import TokenListing.Proofs.Reader.Moves

set_option autoImplicit false

/-!
What readers can be asked. A reader reads, steps, lets go and looks ahead, and a copy of it can be put
aside and taken up again. In whatever order that is done, each reader divides its text into what it
has read and what is left. All that it answers is told by where it divides the text, and by whether
the last character that it has read is still pending.
-/

namespace TokenListing

open Text

namespace Reader

/-- What has been read and what is left make up the text. -/
structure Divides (r : Reader) (source : String) (passed rest : List Char) : Prop where
  text : source.toList = passed ++ rest
  same : r.source = source
  unread : r.unread = rest
  pending : passed.getLast? = some r.pending ∨ r.pending = ' '
  start : r.start = byteLength passed.dropLast
  stop : r.stop = byteLength passed
  line : r.line = lineAfter passed

theorem divides_ofString (source : String) : (ofString source).Divides source [] source.toList :=
  ⟨rfl, rfl, rfl, .inr rfl, rfl, rfl, rfl⟩

section

variable {r : Reader} {source : String} {passed rest : List Char}

theorem Divides.take {c : Char} (h : r.Divides source passed (c :: rest)) :
    (r.take c rest).Divides source (passed ++ [c]) rest where
  text := by simp [h.text]
  same := h.same
  unread := rfl
  pending := .inl (by simp)
  start := by rw [List.dropLast_concat]; exact h.stop
  stop := by simp [Reader.take, h.stop]
  line := by simp [Reader.take, lineAfter_concat, h.line]

/-- Letting go is not seen from what has been read. -/
theorem Divides.clear (h : r.Divides source passed rest) : r.clear.Divides source passed rest :=
  { h with pending := .inr rfl }

theorem Moves.divides (moves : (ofString source).Moves r) :
    ∃ passed rest, r.Divides source passed rest := by
  induction moves with
  | refl => exact ⟨[], source.toList, divides_ofString source⟩
  | @take s c rest before more ih =>
    obtain ⟨passed, left, here⟩ := ih
    obtain rfl : left = c :: rest := here.unread.symm.trans more
    exact ⟨passed ++ [c], rest, here.take⟩
  | clear before ih =>
    obtain ⟨passed, rest, here⟩ := ih
    exact ⟨passed, rest, here.clear⟩

/-- Where a pending character is no space, it is the last one that has been read. -/
theorem Divides.exists_holds (h : r.Divides source passed rest) (pends : r.pending ≠ ' ') :
    ∃ front, passed = front ++ [r.pending] ∧ r.Holds front (r.pending :: rest) := by
  obtain ⟨front, split⟩ := List.getLast?_eq_some_iff.mp (h.pending.resolve_right pends)
  have start := h.start
  have stop := h.stop
  have line := h.line
  rw [split] at start stop line
  rw [List.dropLast_concat] at start
  exact ⟨front, split, by rw [h.unread], start, stop, line⟩

/-- What a reader answers and what comes of its operations, told by what has been read and what is
left. -/
structure Accounts (r : Reader) (source : String) (passed rest : List Char) : Prop where
  text : source.toList = passed ++ rest
  same : r.source = source
  unread : r.unread = rest
  hasMore : r.hasMore = true ↔ rest ≠ []
  ahead : r.ahead? = rest.head?
  looksAt : ∀ a b, r.looksAt a b = true ↔ r.pending = a ∧ ∃ more, rest = b :: more
  line : r.line.toNat = 1 + passed.count '\n'
  start : r.start = byteLength passed.dropLast
  pending : passed.getLast? = some r.pending ∨ r.pending = ' '
  clear : r.clear = { r with pending := ' ' }
  fails : ∀ fault, r.read = .error fault ↔ rest = [] ∧ fault = .endOfInput r.line
  ends : rest = [] → r.step = { r with pending := ' ' }
  goes : ∀ c more, rest = c :: more → ∃ next, r.read = .ok next ∧ r.step = next ∧
    next.pending = c ∧ next.Divides source (passed ++ [c]) more ∧
    next.start = source.utf8ByteSize - byteLength rest

theorem Divides.read_eq_error_iff (h : r.Divides source passed rest) (fault : Fault) :
    r.read = .error fault ↔ rest = [] ∧ fault = .endOfInput r.line := by
  obtain rfl := h.unread
  cases more : r.unread with
  | nil => simp [read_nil more, eq_comm]
  | cons c rest => simp [read_cons more]

/-- The bytes that are left tell where the next character starts. -/
theorem Divides.stop_eq (h : r.Divides source passed rest) :
    r.stop = source.utf8ByteSize - byteLength rest := by
  rw [h.stop, ← byteLength_toList, h.text, byteLength_append, Nat.add_sub_cancel]

theorem Divides.accounts (h : r.Divides source passed rest)
    (few : source.toList.count '\n' < UInt32.size - 1) : r.Accounts source passed rest where
  text := h.text
  same := h.same
  unread := h.unread
  hasMore := by simp [hasMore, h.unread]
  ahead := by rw [ahead?, h.unread]
  looksAt a b := by rw [looksAt_iff, h.unread]
  line := by rw [h.line, toNat_lineAfter_of_append h.text few]
  start := h.start
  pending := h.pending
  clear := rfl
  fails := h.read_eq_error_iff
  ends none := step_nil (h.unread.trans none)
  goes c more left := by
    subst left
    exact ⟨_, read_cons h.unread, step_cons h.unread, rfl, h.take, h.stop_eq⟩

end

/-- What is done with a reader. The copies that were put aside are numbered in their order. -/
inductive Operation where
  | read
  | step
  | clear
  | ahead
  | looksAt (a b : Char)
  | putAside
  | takeUp (k : Nat)
  deriving DecidableEq, Repr

/-- The reader in use and the copies that were put aside. -/
structure Desk where
  reader : Reader
  aside : List Reader
  deriving DecidableEq, Repr

namespace Desk

def operate (d : Desk) : Operation → Desk
  | .read =>
    match d.reader.read with
    | .ok next => { d with reader := next }
    | .error _ => d
  | .step => { d with reader := d.reader.step }
  | .clear => { d with reader := d.reader.clear }
  | .ahead | .looksAt _ _ => d
  | .putAside => { d with aside := d.aside ++ [d.reader] }
  | .takeUp k => { d with reader := d.aside[k]?.getD d.reader }

def ofOperations (source : String) (operations : List Operation) : Desk :=
  operations.foldl operate ⟨ofString source, []⟩

/-- Every reader on the desk comes from the start of the text. -/
def Reached (d : Desk) (source : String) : Prop :=
  ∀ r ∈ d.reader :: d.aside, (ofString source).Moves r

theorem Reached.use {d : Desk} {source : String} (reached : d.Reached source) {r : Reader}
    (moves : d.reader.Moves r) : Reached { d with reader := r } source := by
  intro s hs
  rcases List.mem_cons.mp hs with rfl | hs
  · exact (reached d.reader List.mem_cons_self).trans moves
  · exact reached s (List.mem_cons_of_mem _ hs)

theorem Reached.operate {d : Desk} {source : String} (reached : d.Reached source) (o : Operation) :
    (d.operate o).Reached source := by
  cases o with
  | read =>
    cases more : d.reader.unread with
    | nil => simpa [Desk.operate, read_nil more] using reached
    | cons c rest =>
      simp only [Desk.operate, read_cons more]
      exact reached.use (.take .refl more)
  | step => exact reached.use (moves_step _)
  | clear => exact reached.use (.clear .refl)
  | ahead | looksAt => exact reached
  | putAside =>
    intro s hs
    simp only [Desk.operate, List.mem_cons, List.mem_append, List.not_mem_nil, or_false] at hs
    rcases hs with rfl | old | rfl
    · exact reached _ List.mem_cons_self
    · exact reached s (List.mem_cons_of_mem _ old)
    · exact reached _ List.mem_cons_self
  | takeUp k =>
    intro s hs
    rcases List.mem_cons.mp hs with rfl | hs
    · cases found : d.aside[k]? with
      | none => simpa [Desk.operate, found] using reached _ List.mem_cons_self
      | some copy =>
        simpa [Desk.operate, found] using
          reached copy (List.mem_cons_of_mem _ (List.mem_of_getElem? found))
    · exact reached s (List.mem_cons_of_mem _ hs)

theorem reached_ofOperations (source : String) (operations : List Operation) :
    (ofOperations source operations).Reached source := by
  refine operations.foldlRecOn Desk.operate (motive := (·.Reached source)) (fun r hr => ?_)
    fun _ reached o _ => reached.operate o
  obtain rfl := List.mem_singleton.mp hr
  exact .refl

/-- The reader in use and every copy account for all of the text. Reading fails where nothing is left,
and then it changes nothing; otherwise it is a step. -/
structure Accounted (d : Desk) (source : String) : Prop where
  reader : ∃ passed rest, d.reader.Accounts source passed rest ∧
    (rest = [] → d.operate .read = d) ∧ (rest ≠ [] → d.operate .read = d.operate .step)
  aside : ∀ r ∈ d.aside, ∃ passed rest, r.Accounts source passed rest

theorem readers_accounted (source : String) (few : source.toList.count '\n' < UInt32.size - 1)
    (operations : List Operation) : (ofOperations source operations).Accounted source := by
  have reached := reached_ofOperations source operations
  constructor
  · obtain ⟨passed, rest, here⟩ := (reached _ List.mem_cons_self).divides
    refine ⟨passed, rest, here.accounts few, fun none => ?_, fun more => ?_⟩
    · simp [operate, read_nil (here.unread.trans none)]
    · obtain ⟨c, later, left⟩ := List.exists_cons_of_ne_nil more
      have unread := here.unread.trans left
      simp [operate, read_cons unread, step_cons unread]
  · intro r hr
    obtain ⟨passed, rest, there⟩ := (reached r (List.mem_cons_of_mem _ hr)).divides
    exact ⟨passed, rest, there.accounts few⟩

/-- A copy that was taken behind two letters is taken up again at the end of the text, and lets go. -/
theorem readers_accounted_copy :
    ((ofOperations "é€\nb" [.read, .step, .putAside, .read, .step, .read, .takeUp 0, .clear]).Accounted
        "é€\nb") ∧
      (ofOperations "é€\nb" [.read, .step, .putAside, .read, .step, .read, .takeUp 0, .clear]).reader =
        ⟨"é€\nb", ['\n', 'b'], ' ', 2, 5, 1⟩ :=
  ⟨readers_accounted _ (by decide) _, by decide⟩

end Desk

end Reader

end TokenListing
