import TokenListing.Text.Pattern.Modes

set_option autoImplicit false

/-!
The smallest parts of a regular expression: characters, the classes and the edges that a letter
behind a backslash stands for. Classes and edges of words are known for ASCII only.
-/

namespace TokenListing.Text.Pattern

/-- A character may be given as a byte, by two hexadecimal digits. -/
inductive Atom where
  | char (c : Char) (isByte : Bool)
  | letterClass (negated : Bool)
  | edge
  | wordEdge
  deriving DecidableEq, Repr

def hexValue? (c : Char) : Option Nat :=
  if c.isDigit then some (c.toNat - '0'.toNat)
  else if 'a' ≤ c ∧ c ≤ 'f' then some (c.toNat - 'a'.toNat + 10)
  else if 'A' ≤ c ∧ c ≤ 'F' then some (c.toNat - 'A'.toNat + 10)
  else none

/-- The number that so many hexadecimal digits add to the digits in front of them. -/
def hexDigits? (m : Modes) : Nat → Nat → List Char → Option (Nat × List Char)
  | 0, value, cs => some (value, cs)
  | count + 1, value, cs =>
    match m.skip cs with
    | [] => none
    | c :: rest =>
      match hexValue? c with
      | some digit => hexDigits? m count (16 * value + digit) rest
      | none => none

def charByHex? (m : Modes) (count : Nat) (cs : List Char) : Option (Atom × List Char) :=
  match hexDigits? m count 0 cs with
  | some (value, rest) =>
    if value.isValidChar then some (.char (Char.ofNat value) (count == 2), rest) else none
  | none => none

/-- What stands behind a backslash. Every sign of ASCII may, but for the two angles an edge of a
word is meant; of the letters only some have a meaning. -/
def escape? (m : Modes) : List Char → Option (Atom × List Char)
  | [] => none
  | c :: rest =>
    match c with
    | 'x' => charByHex? m 2 rest
    | 'u' => charByHex? m 4 rest
    | 'U' => charByHex? m 8 rest
    | 'd' | 's' | 'w' => some (.letterClass false, rest)
    | 'D' | 'S' | 'W' => some (.letterClass true, rest)
    | 'A' | 'z' => some (.edge, rest)
    | 'b' | 'B' | '<' | '>' => some (.wordEdge, rest)
    | 'a' => some (.char '\x07' false, rest)
    | 'f' => some (.char '\x0c' false, rest)
    | 't' => some (.char '\t' false, rest)
    | 'n' => some (.char '\n' false, rest)
    | 'r' => some (.char '\r' false, rest)
    | 'v' => some (.char '\x0b' false, rest)
    | c => if c.toNat < 0x80 ∧ !c.isAlphanum then some (.char c false, rest) else none

/-- A member of a class in brackets, where no sign but the backslash has a meaning of its own. -/
def member? (m : Modes) : List Char → Option (Atom × List Char)
  | [] => none
  | '\\' :: rest => escape? m rest
  | c :: rest => some (.char c false, rest)

namespace Atom

def isAdmitted (m : Modes) : Atom → Bool
  | .char c isByte => m.admitsChar c isByte
  | .letterClass negated => !m.unicode && !negated
  | .edge => true
  | .wordEdge => !m.unicode

/-- In brackets there are no edges, and where bytes are meant no character outside ASCII. -/
def isAdmittedMember (m : Modes) : Atom → Bool
  | .char c isByte => m.admitsChar c isByte && (m.unicode || c.toNat < 0x80)
  | .letterClass negated => !m.unicode && !negated
  | _ => false

/-- A range of characters goes upwards. -/
def isRange (first last : Atom) : Bool :=
  match first, last with
  | .char c _, .char d _ => c ≤ d
  | _, _ => false

end Atom

theorem length_of_hexDigits? {m : Modes} {count value number : Nat} {cs rest : List Char}
    (h : hexDigits? m count value cs = some (number, rest)) : rest.length ≤ cs.length := by
  induction count generalizing value cs with
  | zero =>
    simp only [hexDigits?, Option.some.injEq, Prod.mk.injEq] at h
    exact h.2 ▸ Nat.le_refl _
  | succ count ih =>
    have skipped := m.length_skip_le cs
    simp only [hexDigits?] at h
    split at h
    · simp at h
    · split at h
      · have shorter := ih h
        grind
      · simp at h

theorem length_of_charByHex? {m : Modes} {count : Nat} {cs rest : List Char} {a : Atom}
    (h : charByHex? m count cs = some (a, rest)) : rest.length ≤ cs.length := by
  simp only [charByHex?] at h
  split at h
  · rename_i digits
    have shorter := length_of_hexDigits? digits
    grind
  · simp at h

theorem length_of_escape? {m : Modes} {cs rest : List Char} {a : Atom}
    (h : escape? m cs = some (a, rest)) : rest.length < cs.length := by
  cases cs with
  | nil => simp [escape?] at h
  | cons c cs =>
    have hex {count : Nat} (found : charByHex? m count cs = some (a, rest)) :
        rest.length < (c :: cs).length :=
      Nat.lt_of_le_of_lt (length_of_charByHex? found) (Nat.lt_succ_self _)
    simp only [escape?] at h
    split at h <;> first | exact hex h | grind

theorem length_of_member? {m : Modes} {cs rest : List Char} {a : Atom}
    (h : member? m cs = some (a, rest)) : rest.length < cs.length := by
  unfold member? at h
  split at h
  · simp at h
  · have shorter := length_of_escape? h
    grind
  · grind

end TokenListing.Text.Pattern
