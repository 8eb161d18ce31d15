import TokenListing.Proofs.Grammar.Concat
import TokenListing.Proofs.Tokenizer.Rows

set_option autoImplicit false

/-!
Rows of texts one behind the other. Behind a line feed a text has the rows that it has alone, so many
lines further down, and fails by the same fault, so many lines and bytes further on.
-/

namespace TokenListing

open Grammar Text

def Row.below (lines : Nat) (r : Row Word) : Row Word := ⟨r.line + UInt32.ofNat lines, r.token⟩

/-- The fault of a text that stands so many lines and bytes further on. -/
def Fault.beyond (lines bytes : Nat) : Fault → Fault
  | .endOfInput line => .endOfInput (line + UInt32.ofNat lines)
  | .tooLarge literal line offset source =>
    .tooLarge literal (line + UInt32.ofNat lines) (offset + bytes) source

theorem lineAfter_behind (pre cs : List Char) :
    lineAfter (pre ++ cs) = lineAfter cs + UInt32.ofNat (pre.count '\n') := by
  rw [← lineAfter_append, lineAfter, lineAfter, List.count_append, List.count_append,
    Nat.add_comm (pre.count '\n')]

theorem toNat_add_ofNat {line : UInt32} {lines : Nat} (few : line.toNat + lines < UInt32.size) :
    (line + UInt32.ofNat lines).toNat = line.toNat + lines := by
  rw [UInt32.toNat_add, UInt32.toNat_ofNat', Nat.add_mod_mod, Nat.mod_eq_of_lt few]

namespace Grammar

/-- A segment where it is when `pre` is put in front of the text. -/
def Placed.behind (pre : List Char) (p : Placed) : Placed := ⟨pre ++ p.front, p.segment⟩

theorem placed_behind (pre front : List Char) (l : List Segment) :
    placed (pre ++ front) l = (placed front l).map (Placed.behind pre) := by
  induction l generalizing front with
  | nil => rfl
  | cons s l ih => simp [placed, Placed.behind, ← ih]

theorem Placed.outcome?_behind (pre : List Char) (p : Placed) :
    (p.behind pre).outcome? =
      p.outcome?.map (Except.mapError (Fault.beyond (pre.count '\n') (byteLength pre))) := by
  simp only [Placed.outcome?, Segment.outcomeOn?, Placed.behind, Option.map_map]
  congr 1
  funext token
  by_cases large : p.segment.isTooLarge = true
  · simp [large, Except.mapError, Fault.beyond, lineAfter_behind, Nat.add_comm]
  · simp [large, Except.mapError]

theorem listing_behind (pre : List Char) (ps : List Placed) :
    listing (ps.map (Placed.behind pre)) =
      ((listing ps).map (List.map (Row.below (pre.count '\n')))).mapError
        (Fault.beyond (pre.count '\n') (byteLength pre)) := by
  induction ps with
  | nil => rfl
  | cons p more ih =>
    have here := p.outcome?_behind pre
    cases outcome : p.outcome? with
    | none =>
      rw [outcome] at here
      simpa [listing, here, outcome] using ih
    | some value =>
      rw [outcome] at here
      cases value with
      | error fault => simp [listing, here, outcome, Except.mapError, Except.map]
      | ok token =>
        simp only [List.map_cons, listing, here, outcome, Option.map_some, ih]
        cases listing more with
        | error fault => rfl
        | ok rows => simp [Except.mapError, Except.map, Row.below, Placed.behind, lineAfter_behind]

/-- The lines of a text can be counted on from so many lines more. -/
theorem toNat_line_add {cs : List Char} {lines : Nat} (few : lines + cs.count '\n' < UInt32.size - 1)
    {p : Placed} (hp : p ∈ placed [] (segments cs)) :
    (lineAfter p.front + UInt32.ofNat lines).toNat = (lineAfter p.front).toNat + lines := by
  have le := count_front_le hp '\n'
  rw [List.nil_append, (cuts_segments cs).textOf_eq] at le
  refine toNat_add_ofNat ?_
  rw [toNat_lineAfter (by omega)]
  omega

end Grammar

theorem plain_rows_concat (a b : String) (noBlock : ¬EndsInBlock a.toList) :
    (rows (a ++ "\n" ++ b)).map (List.map Row.plain) =
      ((rows a).map (List.map Row.plain)).bind fun first =>
        ((((rows b).map (List.map Row.plain)).map
          (List.map (Row.below (a.toList.count '\n' + 1)))).mapError
            (Fault.beyond (a.toList.count '\n' + 1) (a.utf8ByteSize + 1))).map (first ++ ·) := by
  obtain ⟨l, g, split, gap, text, first⟩ := segments_concat noBlock b.toList
  have both : (a ++ "\n" ++ b).toList = a.toList ++ '\n' :: b.toList := by simp
  have lines : (a.toList ++ ['\n']).count '\n' = a.toList.count '\n' + 1 := by simp
  have bytes : byteLength (a.toList ++ ['\n']) = a.utf8ByteSize + 1 := by
    rw [byteLength_append, byteLength_toList]
    rfl
  have behind := placed_behind (a.toList ++ ['\n']) [] (segments b.toList)
  -- A comment at the end of `a` has no row, whether the line feed closes it or not.
  have same : listing (placed [] (segments a.toList)) = listing (placed [] l) := by
    rcases first with rfl | ⟨s, last, blank⟩
    · rfl
    · rw [last, placed_append, listing_append, placed, listing_cons_of_gap _ blank]
      cases listing (placed [] l) <;> simp [placed, listing, Except.bind, Except.map]
  rw [List.append_nil] at behind
  rw [plain_rows, plain_rows, plain_rows, both, split, placed_append, listing_append, placed,
    listing_cons_of_gap _ gap, List.nil_append, text, behind, listing_behind, lines, bytes, same]

/-- Behind a line feed a text goes on as it does alone, unless the text in front fails or leaves a
block comment open. -/
theorem rows_concat (a b : String) (few : (a ++ "\n" ++ b).toList.count '\n' < UInt32.size - 1)
    (noBlock : ¬EndsInBlock a.toList) :
    (∀ first second, rows a = .ok first → rows b = .ok second →
        ∃ both, rows (a ++ "\n" ++ b) = .ok both ∧
          both.map (fun r => (r.line.toNat, r.token.plain)) =
            first.map (fun r => (r.line.toNat, r.token.plain)) ++
              second.map fun r => (r.line.toNat + (a.toList.count '\n' + 1), r.token.plain)) ∧
      (∀ first fault, rows a = .ok first → rows b = .error fault →
        ∃ literal line further offset shown, fault = .tooLarge literal line offset shown ∧
          rows (a ++ "\n" ++ b) =
            .error (.tooLarge literal further (offset + (a.utf8ByteSize + 1)) shown) ∧
          further.toNat = line.toNat + (a.toList.count '\n' + 1)) ∧
      ∀ fault, rows a = .error fault → rows (a ++ "\n" ++ b) = .error fault := by
  have whole := plain_rows_concat a b noBlock
  have fewer : a.toList.count '\n' + 1 + b.toList.count '\n' < UInt32.size - 1 := by
    have both : (a ++ "\n" ++ b).toList = a.toList ++ '\n' :: b.toList := by simp
    rw [both, List.count_append, List.count_cons_self] at few
    omega
  have alone := plain_rows b
  refine ⟨fun first second ha hb => ?_, fun first fault ha hb => ?_, fun fault ha => ?_⟩
  · rw [ha, hb] at whole
    rw [hb] at alone
    obtain ⟨both, result, plain⟩ := map_eq_ok_iff.mp whole
    have shown : both.map (fun r => (r.line.toNat, r.token.plain)) =
        (both.map Row.plain).map fun r => (r.line.toNat, r.token) := by
      simp [Row.plain]
    refine ⟨both, result, ?_⟩
    rw [shown, plain]
    simp only [List.map_append, List.map_map]
    congr 1
    refine List.map_congr_left fun r hr => ?_
    obtain ⟨p, hp, _, line⟩ := exists_of_listing_ok alone.symm (List.mem_map_of_mem hr)
    have further := toNat_line_add fewer hp
    rw [← line] at further
    simpa [Row.below, Row.plain] using further
  · rw [ha, hb] at whole
    rw [hb] at alone
    obtain ⟨p, hp, outcome⟩ := exists_of_listing_error alone.symm
    obtain ⟨_, rfl⟩ := Segment.eq_tooLarge_of_outcomeOn? outcome
    exact ⟨_, _, _, _, _, rfl, map_eq_error_iff.mp whole, toNat_line_add fewer hp⟩
  · rw [ha] at whole
    exact map_eq_error_iff.mp whole

/-- A line feed that closes a comment. -/
theorem rows_concat_comment :
    (∃ both, rows ("x // é" ++ "\n" ++ "1/*\n*/y") = .ok both ∧
        both.map (fun r => (r.line.toNat, r.token.plain)) =
          [(1, .word (.ofLexeme "x")), (2, .integer 1), (3, .word (.ofLexeme "y"))]) ∧
      ∃ line, rows ("x // é" ++ "\n" ++ "y\n2147483648") =
          .error (.tooLarge "2147483648" line 10 .placeholder) ∧ line.toNat = 3 := by
  have noBlock : ¬EndsInBlock "x // é".toList := by
    unfold EndsInBlock
    decide +kernel
  have front : rows "x // é" = .ok [⟨1, .word ⟨.ofLexeme "x", ⟨0, 2⟩⟩⟩] := by decide +kernel
  have listed : rows "1/*\n*/y" = .ok [⟨1, .integer 1⟩, ⟨2, .word ⟨.ofLexeme "y", ⟨0, 2⟩⟩⟩] := by
    decide +kernel
  have large : rows "y\n2147483648" = .error (.tooLarge "2147483648" 2 2 .placeholder) := by
    decide +kernel
  constructor
  · obtain ⟨both, found, shown⟩ :=
      (rows_concat "x // é" "1/*\n*/y" (by decide) noBlock).1 _ _ front listed
    exact ⟨both, found, shown.trans (by decide +kernel)⟩
  · obtain ⟨_, _, line, _, _, same, found, further⟩ :=
      (rows_concat "x // é" "y\n2147483648" (by decide) noBlock).2.1 _ _ front large
    cases same
    exact ⟨line, found, further⟩

end TokenListing
