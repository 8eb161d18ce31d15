import TokenListing.CharClass
import TokenListing.Fault

set_option autoImplicit false

/-!
A reader goes through a text once, from the left. It holds one pending character, which has been
read and is not yet used, and can look at the next one without reading it. Where nothing is pending
it holds a blank. It knows the line of the last character that it read, a line feed counting to the
line below, and the bytes which that character takes up.
-/

namespace TokenListing

structure Reader where
  source : String
  unread : List Char
  pending : Char
  /-- The byte at which the last character read starts; zero before there is one. -/
  start : Nat
  /-- The byte behind the last character read. -/
  stop : Nat
  line : UInt32
  deriving DecidableEq, Repr

namespace Reader

def ofString (source : String) : Reader := ⟨source, source.toList, ' ', 0, 0, 1⟩

def hasMore (r : Reader) : Bool := !r.unread.isEmpty

/-- The next character, which stays unread. -/
def ahead? (r : Reader) : Option Char := r.unread.head?

/-- Whether the pending character is `a` and the next one `b`. -/
def looksAt (r : Reader) (a b : Char) : Bool := r.pending == a && r.ahead? == some b

/-- The reader with `c` read and `rest` left. -/
def take (r : Reader) (c : Char) (rest : List Char) : Reader :=
  { r with
    unread := rest
    pending := c
    start := r.stop
    stop := r.stop + c.utf8Size
    line := if c = '\n' then r.line + 1 else r.line }

/-- Reads one character, which becomes the pending one. -/
def read (r : Reader) : Except Fault Reader :=
  match r.unread with
  | [] => .error (.endOfInput r.line)
  | c :: rest => .ok (r.take c rest)

/-- Lets go of the pending character. -/
def clear (r : Reader) : Reader := { r with pending := ' ' }

/-- Reads one character, or lets go of the last. -/
def step (r : Reader) : Reader :=
  match r.read with
  | .ok next => next
  | .error _ => r.clear

/-- So many steps. -/
def steps : Nat → Reader → Reader
  | 0, r => r
  | n + 1, r => r.step.steps n

/-- The longest run of characters of a class, the pending one first, and the reader behind it. -/
def takeRun (p : Char → Bool) (r : Reader) : List Char × Reader :=
  let run := (r.pending :: r.unread).takeWhile p
  (run, r.steps run.length)

/-- Reads on until `p` holds. The flag tells whether it does; if not, all is read. -/
def seek (p : Reader → Bool) (r : Reader) : Bool × Reader :=
  if p r then (true, r)
  else
    match _more : r.unread with
    | [] => (false, r)
    | c :: rest => (r.take c rest).seek p
termination_by r.unread.length
decreasing_by simp [take, *]

@[simp] theorem unread_take (r : Reader) (c : Char) (rest : List Char) :
    (r.take c rest).unread = rest := rfl

@[simp] theorem pending_take (r : Reader) (c : Char) (rest : List Char) :
    (r.take c rest).pending = c := rfl

@[simp] theorem unread_clear (r : Reader) : r.clear.unread = r.unread := rfl

@[simp] theorem pending_clear (r : Reader) : r.clear.pending = ' ' := rfl

@[simp] theorem line_clear (r : Reader) : r.clear.line = r.line := rfl

theorem read_nil {r : Reader} (h : r.unread = []) : r.read = .error (.endOfInput r.line) := by
  simp [read, h]

theorem read_cons {r : Reader} {c : Char} {rest : List Char} (h : r.unread = c :: rest) :
    r.read = .ok (r.take c rest) := by
  simp [read, h]

theorem step_nil {r : Reader} (h : r.unread = []) : r.step = r.clear := by
  simp [step, read_nil h]

theorem step_cons {r : Reader} {c : Char} {rest : List Char} (h : r.unread = c :: rest) :
    r.step = r.take c rest := by
  simp [step, read_cons h]

theorem looksAt_iff {r : Reader} {a b : Char} :
    r.looksAt a b = true ↔ r.pending = a ∧ ∃ rest, r.unread = b :: rest := by
  cases h : r.unread with
  | nil => simp [looksAt, ahead?, h]
  | cons c rest => simp [looksAt, ahead?, h]

theorem seek_of_true {p : Reader → Bool} {r : Reader} (h : p r = true) : r.seek p = (true, r) := by
  rw [seek]
  simp [h]

theorem seek_of_nil {p : Reader → Bool} {r : Reader} (h : p r = false) (ends : r.unread = []) :
    r.seek p = (false, r) := by
  rw [seek]
  split
  · simp_all
  · split <;> simp_all

theorem seek_of_cons {p : Reader → Bool} {r : Reader} {c : Char} {rest : List Char}
    (h : p r = false) (more : r.unread = c :: rest) : r.seek p = (r.take c rest).seek p := by
  rw [seek]
  split
  · simp_all
  · split <;> simp_all

/-- Where a search stops with success, the condition holds. -/
theorem seek_found {p : Reader → Bool} {r : Reader} (h : (r.seek p).1 = true) :
    p (r.seek p).2 = true := by
  fun_induction seek p r with
  | case1 r holds => exact holds
  | case2 r _ _ => simp at h
  | case3 r _ c rest _ ih => exact ih h

/-- A search that fails reads everything. -/
theorem seek_exhausts {p : Reader → Bool} {r : Reader} (h : (r.seek p).1 = false) :
    (r.seek p).2.unread = [] := by
  fun_induction seek p r with
  | case1 r holds => simp at h
  | case2 r _ ends => exact ends
  | case3 r _ c rest _ ih => exact ih h

/-- What a reader has left to use: the unread characters and a pending one that is no blank. -/
def weight (r : Reader) : Nat :=
  r.unread.length + if isBlank r.pending then 0 else 1

theorem length_unread_le_weight (r : Reader) : r.unread.length ≤ r.weight :=
  Nat.le_add_right _ _

theorem weight_take_le {r : Reader} {c : Char} {rest : List Char} (h : r.unread = c :: rest) :
    (r.take c rest).weight ≤ r.unread.length := by
  unfold weight
  rw [h]
  cases blank : isBlank c <;> simp [blank]

theorem weight_clear (r : Reader) : r.clear.weight = r.unread.length := by
  simp [weight, isBlank]

theorem weight_step_le_length (r : Reader) : r.step.weight ≤ r.unread.length := by
  cases h : r.unread with
  | nil => simp [step_nil h, weight_clear, h]
  | cons c rest =>
    rw [step_cons h, ← h]
    exact weight_take_le h

theorem weight_step_le (r : Reader) : r.step.weight ≤ r.weight :=
  Nat.le_trans r.weight_step_le_length r.length_unread_le_weight

/-- A step uses up a pending character. -/
theorem weight_step_lt {r : Reader} (h : isBlank r.pending = false) : r.step.weight < r.weight := by
  have bound := r.weight_step_le_length
  simp only [weight, h] at bound ⊢
  exact Nat.lt_succ_of_le bound

theorem weight_steps_le (n : Nat) (r : Reader) : (r.steps n).weight ≤ r.weight := by
  induction n generalizing r with
  | zero => exact Nat.le_refl _
  | succ n ih => exact Nat.le_trans (ih r.step) r.weight_step_le

/-- A run that is not empty uses up characters, unless it starts with a blank. -/
theorem weight_takeRun_lt {p : Char → Bool} {r : Reader} (member : p r.pending = true)
    (h : isBlank r.pending = false) : (r.takeRun p).2.weight < r.weight := by
  simp only [takeRun, List.takeWhile_cons, member, if_true, List.length_cons, steps]
  exact Nat.lt_of_le_of_lt (weight_steps_le _ _) (weight_step_lt h)

theorem length_unread_seek_le (p : Reader → Bool) (r : Reader) :
    (r.seek p).2.unread.length ≤ r.unread.length := by
  fun_induction seek p r with
  | case1 r holds => exact Nat.le_refl _
  | case2 r _ _ => exact Nat.le_refl _
  | case3 r _ c rest more ih =>
    rw [more]
    exact Nat.le_succ_of_le ih

theorem weight_seek_le (p : Reader → Bool) (r : Reader) : (r.seek p).2.weight ≤ r.weight := by
  fun_induction seek p r with
  | case1 r holds => exact Nat.le_refl _
  | case2 r _ _ => exact Nat.le_refl _
  | case3 r _ c rest more ih =>
    exact Nat.le_trans ih (Nat.le_trans (weight_take_le more) r.length_unread_le_weight)

end Reader

end TokenListing
