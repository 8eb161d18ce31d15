import TokenListing.Text.Place

set_option autoImplicit false

/-!
The lines of a text and the places in it. A place says how many lines there are above it and how much
of its own line is in front of it, so that it can be found again in the lines of the text. A line feed
ends a line wherever it is, a carriage return may have to leave that to the line feed behind it.
-/

namespace TokenListing.Text

/-- The lines of a text, each with its end. The last one has none. -/
def lines : List Char → List (List Char)
  | [] => [[]]
  | '\r' :: '\n' :: rest => ['\r', '\n'] :: lines rest
  | c :: rest =>
    if c = '\n' ∨ c = '\r' then [c] :: lines rest else (lines rest).modifyHead (c :: ·)

/-- How many carriage returns of a text have no line feed behind them, if `rest` is behind the text. -/
def loneReturns (rest : List Char) : List Char → Nat
  | [] => 0
  | c :: cs => (if c = '\r' ∧ (cs ++ rest).head? ≠ some '\n' then 1 else 0) + loneReturns rest cs

section

variable {c : Char} {rest : List Char}

theorem lines_cons_end (ends : c = '\n' ∨ c = '\r') (alone : c = '\r' → rest.head? ≠ some '\n') :
    lines (c :: rest) = [c] :: lines rest := by
  rw [lines, if_pos ends]
  rintro more isReturn rfl
  exact alone isReturn rfl

theorem lines_cons (inside : c ≠ '\n' ∧ c ≠ '\r') (rest : List Char) :
    lines (c :: rest) = (lines rest).modifyHead (c :: ·) := by
  rw [lines, if_neg (not_or.mpr inside)]
  rintro more rfl -
  exact inside.2 rfl

theorem Place.behind_cons_end (ends : c = '\n' ∨ c = '\r')
    (alone : c = '\r' → rest.head? ≠ some '\n') (p : Place) :
    p.behind (c :: rest) = p.nextLine.behind rest := by
  rw [behind, if_pos ends]
  rintro more isReturn rfl
  exact alone isReturn rfl

theorem Place.behind_cons (inside : c ≠ '\n' ∧ c ≠ '\r') (rest : List Char) (p : Place) :
    p.behind (c :: rest) = (p.along c).behind rest := by
  rw [behind, if_neg (not_or.mpr inside)]
  rintro more rfl -
  exact inside.2 rfl

/-- A text begins with one of the three ends of lines or with a character inside a line. -/
theorem lines_induction {motive : List Char → Prop} (nothing : motive [])
    (pair : ∀ rest, motive rest → motive ('\r' :: '\n' :: rest))
    (ended : ∀ c rest, c = '\n' ∨ c = '\r' → (c = '\r' → rest.head? ≠ some '\n') → motive rest →
      motive (c :: rest))
    (inside : ∀ c rest, c ≠ '\n' ∧ c ≠ '\r' → motive rest → motive (c :: rest))
    (cs : List Char) : motive cs := by
  fun_induction lines cs with
  | case1 => exact nothing
  | case2 rest ih => exact pair rest ih
  | case3 c rest pairs ends ih =>
    refine ended c rest ends (fun isReturn feed => ?_) ih
    obtain ⟨more, rfl⟩ := List.head?_eq_some_iff.mp feed
    exact pairs more isReturn rfl
  | case4 c rest _ other ih => exact inside c rest (not_or.mp other) ih

theorem lines_append_run {run : List Char} (inside : ∀ c ∈ run, c ≠ '\n' ∧ c ≠ '\r')
    (rest : List Char) : lines (run ++ rest) = (lines rest).modifyHead (run ++ ·) := by
  induction run with
  | nil => cases below : lines rest <;> simp [below]
  | cons c run ih =>
    rw [List.forall_mem_cons] at inside
    rw [List.cons_append, lines_cons inside.1, ih inside.2, List.modifyHead_modifyHead]
    rfl

theorem lines_ne_nil (cs : List Char) : lines cs ≠ [] := by
  fun_induction lines cs with
  | case4 c rest _ _ ih => simpa using ih
  | _ => simp

theorem flatten_lines (cs : List Char) : (lines cs).flatten = cs := by
  induction cs using lines_induction with
  | nothing => rfl
  | pair rest ih => simp [lines, ih]
  | ended c rest ends alone ih => simp [lines_cons_end ends alone, ih]
  | inside c rest other ih =>
    obtain ⟨line, below, split⟩ := List.exists_cons_of_ne_nil (lines_ne_nil rest)
    rw [split] at ih
    rw [lines_cons other, split, List.modifyHead_cons, List.flatten_cons, List.cons_append,
      ← List.flatten_cons, ih]

theorem head?_append_ne_feed {cs : List Char} (here : cs.head? ≠ some '\n')
    (alone : rest.head? ≠ some '\n') : (cs ++ rest).head? ≠ some '\n' := by
  cases cs with
  | nil => exact alone
  | cons c cs => exact here

theorem length_lines (alone : rest.head? ≠ some '\n') (cs : List Char) :
    (lines cs).length = 1 + cs.count '\n' + loneReturns rest cs := by
  induction cs using lines_induction with
  | nothing => rfl
  | pair cs ih =>
    simp [lines, loneReturns, ih]
    omega
  | ended c cs ends unpaired ih =>
    rw [lines_cons_end ends unpaired, List.length_cons, ih, loneReturns]
    rcases ends with rfl | rfl
    · simp
      omega
    · rw [if_pos ⟨rfl, head?_append_ne_feed (unpaired rfl) alone⟩, List.count_cons_of_ne (by decide)]
      omega
  | inside c cs other ih =>
    simp [lines_cons other, loneReturns, ih, other]

theorem loneReturns_eq_zero_iff {cs : List Char} :
    loneReturns rest cs = 0 ↔
      ∀ pre post, cs = pre ++ '\r' :: post → (post ++ rest).head? = some '\n' := by
  induction cs with
  | nil => simp [loneReturns]
  | cons c cs ih =>
    have here : (if c = '\r' ∧ (cs ++ rest).head? ≠ some '\n' then 1 else 0) = 0 ↔
        (c = '\r' → (cs ++ rest).head? = some '\n') := by
      simp only [ite_eq_right_iff, Nat.one_ne_zero, imp_false, not_and, ne_eq, Decidable.not_not]
    rw [loneReturns, Nat.add_eq_zero_iff, here, ih]
    constructor
    · rintro ⟨first, later⟩ pre post split
      rcases List.cons_eq_append_iff.mp split with ⟨rfl, same⟩ | ⟨pre, rfl, more⟩
      · obtain ⟨isReturn, rfl⟩ := List.cons.inj same
        exact first isReturn.symm
      · exact later pre post more
    · intro all
      refine ⟨?_, fun pre post split => all (c :: pre) post (by rw [split, List.cons_append])⟩
      rintro rfl
      exact all [] cs rfl

end

/-- What a text that goes on consists of: the lines `above` and the beginning of another one. -/
structure Under (cs : List Char) (above : List (List Char)) (last : List Char) : Prop where
  lines : ∀ rest : List Char, rest.head? ≠ some '\n' →
    lines (cs ++ rest) = above ++ (lines rest).modifyHead (last ++ ·)
  ended : ∀ line ∈ above, ∃ c ∈ line.getLast?, c = '\n' ∨ c = '\r'
  inside : ∀ c ∈ last, c ≠ '\n' ∧ c ≠ '\r'
  behind : ∀ p : Place, p.behind cs =
    ⟨p.line + above.length, (if above = [] then p.column else 1) + byteLength last⟩

namespace Under

variable {cs : List Char} {above : List (List Char)} {last : List Char}

theorem nothing : Under [] [] [] where
  lines rest _ := by cases below : Text.lines rest <;> simp [below]
  ended := by simp
  inside := by simp
  behind := by simp

theorem below (under : Under cs above last) (line : List Char)
    (ended : ∃ c ∈ line.getLast?, c = '\n' ∨ c = '\r')
    (ends : ∀ rest : List Char, rest.head? ≠ some '\n' →
      Text.lines (line ++ (cs ++ rest)) = line :: Text.lines (cs ++ rest))
    (next : ∀ p : Place, p.behind (line ++ cs) = p.nextLine.behind cs) :
    Under (line ++ cs) (line :: above) last where
  lines rest alone := by
    rw [List.append_assoc, ends rest alone, under.lines rest alone, List.cons_append]
  ended := List.forall_mem_cons.mpr ⟨ended, under.ended⟩
  inside := under.inside
  behind p := by
    rw [next, under.behind]
    simp [Place.nextLine, Nat.add_assoc, Nat.add_comm 1]

theorem cons {c : Char} (under : Under cs above last) (inside : c ≠ '\n' ∧ c ≠ '\r') :
    ∃ above last, Under (c :: cs) above last := by
  cases above with
  | nil =>
    refine ⟨[], c :: last, fun rest alone => ?_, under.ended,
      List.forall_mem_cons.mpr ⟨inside, under.inside⟩, fun p => ?_⟩
    · rw [List.cons_append, lines_cons inside, under.lines rest alone, List.nil_append,
        List.modifyHead_modifyHead]
      rfl
    · rw [Place.behind_cons inside, under.behind]
      simp [Place.along, Nat.add_assoc]
  | cons line above =>
    obtain ⟨⟨d, hd, ends⟩, ended⟩ := List.forall_mem_cons.mp under.ended
    refine ⟨(c :: line) :: above, last, fun rest alone => ?_,
      List.forall_mem_cons.mpr ⟨⟨d, ?_, ends⟩, ended⟩, under.inside, fun p => ?_⟩
    · rw [List.cons_append, lines_cons inside, under.lines rest alone]
      rfl
    · simp_all [List.getLast?_cons]
    · rw [Place.behind_cons inside, under.behind]
      simp [Place.along]

end Under

theorem exists_under (cs : List Char) : ∃ above last, Under cs above last := by
  induction cs using lines_induction with
  | nothing => exact ⟨[], [], .nothing⟩
  | pair cs ih =>
    obtain ⟨above, last, under⟩ := ih
    exact ⟨_, last, under.below ['\r', '\n'] (by simp) (fun _ _ => rfl) fun _ => rfl⟩
  | ended c cs ends unpaired ih =>
    obtain ⟨above, last, under⟩ := ih
    refine ⟨_, last, under.below [c] (by simpa using ends) (fun rest alone => ?_) ?_⟩
    · have stillAlone : c = '\r' → (cs ++ rest).head? ≠ some '\n' :=
        fun isReturn => head?_append_ne_feed (unpaired isReturn) alone
      exact lines_cons_end ends stillAlone
    · exact Place.behind_cons_end ends unpaired
  | inside c cs other ih =>
    obtain ⟨above, last, under⟩ := ih
    exact under.cons other

namespace Under

variable {cs : List Char} {above : List (List Char)} {last : List Char}

theorem lines_eq (under : Under cs above last) : Text.lines cs = above ++ [last] := by
  have whole := under.lines [] (by simp)
  simpa [Text.lines] using whole

theorem flatten (under : Under cs above last) : above.flatten ++ last = cs := by
  have same := flatten_lines cs
  rw [under.lines_eq] at same
  simpa using same

theorem ended_flatten (under : Under cs above last) :
    ∀ c ∈ above.flatten.getLast?, c = '\n' ∨ c = '\r' := by
  intro c hc
  rcases List.eq_nil_or_concat above with rfl | ⟨others, line, rfl⟩
  · simp at hc
  · obtain ⟨d, hd, ends⟩ := under.ended line (by simp)
    rw [List.concat_eq_append, List.flatten_append, List.flatten_cons, List.flatten_nil,
      List.append_nil, List.getLast?_append, Option.mem_def.mp hd, Option.some_or] at hc
    obtain rfl := Option.some.inj hc
    exact ends

end Under

/-- A place leads to `run`, which stands between `front` and `back`, on a line that is the `line`-th one
by the line feeds. -/
structure Place.LeadsTo (p : Place) (line : Nat) (front run back : List Char) : Prop where
  counted : p.line = line + loneReturns (run ++ back) front
  agrees : p.line = line ↔
    ∀ pre post, front = pre ++ '\r' :: post → (post ++ (run ++ back)).head? = some '\n'
  column : ∃ ended last, front = ended ++ last ∧ (∀ c ∈ ended.getLast?, c = '\n' ∨ c = '\r') ∧
    (∀ c ∈ last, c ≠ '\n' ∧ c ≠ '\r') ∧ p.column = 1 + byteLength last
  reached : ∃ above here below upTo more, lines (front ++ (run ++ back)) = above ++ here :: below ∧
    p.line = above.length + 1 ∧ cut? (p.column - 1) here = some (upTo, run ++ more) ∧
    above.flatten ++ upTo = front ∧ more ++ below.flatten = back

/-- The place behind a text is the place of what comes next, if that is in a line. -/
theorem Place.leadsTo_behind {front run : List Char} (nonempty : run ≠ [])
    (inside : ∀ c ∈ run, c ≠ '\n' ∧ c ≠ '\r') (back : List Char) :
    (start.behind front).LeadsTo (1 + front.count '\n') front run back := by
  have alone : (run ++ back).head? ≠ some '\n' := by
    obtain ⟨c, more, rfl⟩ := List.exists_cons_of_ne_nil nonempty
    simpa using (inside c List.mem_cons_self).1
  obtain ⟨above, last, under⟩ := exists_under front
  have place : start.behind front = ⟨1 + above.length, 1 + byteLength last⟩ := by
    simp [under.behind, start]
  have counted : 1 + above.length = 1 + front.count '\n' + loneReturns (run ++ back) front := by
    have length := length_lines alone front
    rw [under.lines_eq, List.length_append, List.length_singleton] at length
    omega
  obtain ⟨here, below, split⟩ := List.exists_cons_of_ne_nil (lines_ne_nil back)
  rw [place]
  exact {
    counted := counted
    agrees := by
      rw [← loneReturns_eq_zero_iff]
      dsimp only
      omega
    column := ⟨above.flatten, last, under.flatten.symm, under.ended_flatten, under.inside, rfl⟩
    reached := by
      refine ⟨above, last ++ (run ++ here), below, last, here, ?_, Nat.add_comm .., ?_,
        under.flatten, ?_⟩
      · rw [under.lines _ alone, lines_append_run inside, split]
        rfl
      · rw [Nat.add_sub_cancel_left, cut?_byteLength_append]
      · rw [← List.flatten_cons, ← split, flatten_lines] }

end TokenListing.Text
