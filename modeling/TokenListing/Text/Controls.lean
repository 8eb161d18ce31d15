set_option autoImplicit false

/-!
Text without its control functions, as it is shown where no terminal interprets them. An escape
character starts a function: an escape sequence of a few characters, a control sequence up to its
last character, or a control string up to its end, with what belongs to it in between. Four control
characters that only move the place of writing stay. What is left holds no other control character
of ASCII, and a text that holds none is left as it is.
-/

namespace TokenListing.Text.Controls

/-- Tab, line feed, form feed and carriage return only move the place of writing. -/
def isMotion (c : Char) : Bool :=
  c == '\t' || c == '\n' || c == '\x0c' || c == '\r'

def isVisible (c : Char) : Bool :=
  isMotion c || (0x20 ≤ c.toNat && c.toNat != 0x7F)

/-- The part of a function that stands open. -/
inductive State where
  | ground
  | escape
  | designation
  | sequence
  | command
  | device
  | deviceParameters
  | deviceIntermediates
  | data
  deriving DecidableEq, Repr

namespace State

/-- Behind an escape character: the kind of function that a character starts. -/
def ofIntroducer (c : Char) : State :=
  if c = '[' then .sequence
  else if c = ']' then .command
  else if c = 'P' then .device
  else if c = 'X' ∨ c = '^' ∨ c = '_' then .data
  else if 0x20 ≤ c.toNat ∧ c.toNat ≤ 0x2F then .designation
  else if 0x30 ≤ c.toNat ∧ c.toNat ≤ 0x7E then .ground
  else .escape

/-- An escape and the two cancelling characters count everywhere. Data also ends with a character
whose encoding holds the byte `0x9C`, the string terminator of eight-bit text. -/
def next (s : State) (c : Char) : State :=
  let n := c.toNat
  if c = '\x1b' then .escape
  else if c = '\x18' ∨ c = '\x1a' then .ground
  else
    match s with
    | .ground => .ground
    | .escape => ofIntroducer c
    | .designation => if 0x30 ≤ n ∧ n ≤ 0x7E then .ground else .designation
    | .sequence => if 0x40 ≤ n ∧ n ≤ 0x7E then .ground else .sequence
    | .command => if c = '\x07' then .ground else .command
    | .device =>
      if 0x20 ≤ n ∧ n ≤ 0x2F then .deviceIntermediates
      else if 0x30 ≤ n ∧ n ≤ 0x3F then .deviceParameters
      else if 0x40 ≤ n ∧ n ≤ 0x7E then .data
      else .device
    | .deviceParameters =>
      if 0x20 ≤ n ∧ n ≤ 0x2F then .deviceIntermediates
      else if 0x3C ≤ n ∧ n ≤ 0x7E then .data
      else .deviceParameters
    | .deviceIntermediates => if 0x30 ≤ n ∧ n ≤ 0x7E then .data else .deviceIntermediates
    | .data => if 0x9C ∈ String.utf8EncodeChar c then .ground else .data

/-- Whether a character is shown although a function may stand open. Motions are carried out inside
the short functions and belong to the others. -/
def shows : State → Char → Bool
  | .ground, c => isVisible c
  | .escape, c | .designation, c | .sequence, c => isMotion c
  | _, _ => false

/-- Behind a shown character. One outside ASCII closes what stands open. -/
def behindShown (s : State) (c : Char) : State :=
  if 0x80 ≤ c.toNat then .ground else s

theorem isVisible_of_shows {s : State} {c : Char} (h : s.shows c = true) : isVisible c = true := by
  cases s <;> simp_all [shows, isVisible]

end State

/-- What is shown of a text. Once a character is shown, all that can be seen is, up to the next
character that cannot. -/
def stripFrom (showing : Bool) (s : State) : List Char → List Char
  | [] => []
  | c :: cs =>
    if (if showing then isVisible c else s.shows c) then
      c :: stripFrom true (s.behindShown c) cs
    else stripFrom false (s.next c) cs

/-- A text without its control functions. -/
def strip (cs : List Char) : List Char :=
  stripFrom false .ground cs

theorem isVisible_of_mem_stripFrom {showing : Bool} {s : State} {cs : List Char} {c : Char}
    (h : c ∈ stripFrom showing s cs) : isVisible c = true := by
  induction cs generalizing showing s with
  | nil => simp [stripFrom] at h
  | cons d ds ih =>
    rw [stripFrom] at h
    by_cases shown : (if showing then isVisible d else s.shows d) = true
    · rw [if_pos shown] at h
      rcases List.mem_cons.1 h with rfl | inRest
      · cases showing
        · exact State.isVisible_of_shows (by simpa using shown)
        · simpa using shown
      · exact ih inRest
    · rw [if_neg shown] at h
      exact ih h

theorem stripFrom_true_of_visible {s : State} {cs : List Char}
    (h : ∀ c ∈ cs, isVisible c = true) : stripFrom true s cs = cs := by
  induction cs generalizing s with
  | nil => rfl
  | cons c cs ih =>
    have first := h c (by simp)
    simp [stripFrom, first, ih fun d inRest => h d (by simp [inRest])]

/-- Nothing of a text that can be seen is lost. -/
theorem strip_of_visible {cs : List Char} (h : ∀ c ∈ cs, isVisible c = true) : strip cs = cs := by
  cases cs with
  | nil => rfl
  | cons c cs =>
    have first : State.ground.shows c = true := h c (by simp)
    simp [strip, stripFrom, first,
      stripFrom_true_of_visible fun d inRest => h d (List.mem_cons_of_mem c inRest)]

theorem isVisible_of_mem_strip {cs : List Char} {c : Char} (h : c ∈ strip cs) :
    isVisible c = true :=
  isVisible_of_mem_stripFrom h

/-- A text that has been stripped has nothing more to strip. -/
theorem strip_strip (cs : List Char) : strip (strip cs) = strip cs :=
  strip_of_visible fun _ inStripped => isVisible_of_mem_strip inStripped

end TokenListing.Text.Controls
