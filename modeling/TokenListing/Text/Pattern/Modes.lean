import TokenListing.Unicode.Letters
import TokenListing.Unicode.Numbers
import TokenListing.Unicode.Spaces

set_option autoImplicit false

/-!
Modes of a regular expression and the heads of its groups. The head of a group may switch modes, for
the group alone or, where it is all of the group, up to the end of the group around it.
-/

namespace TokenListing.Text.Pattern

open Unicode (isLetter isNumber isSpace)

/-- The modes that decide what may be written: whether case counts, whether characters or only
ASCII bytes are meant, and whether white space and comments may stand between the parts. -/
structure Modes where
  caseless : Bool
  unicode : Bool
  spaced : Bool
  deriving DecidableEq, Repr

/-- Text behind white space and comments. A comment goes from a number sign to the line end. -/
def skipFrom (inComment : Bool) : List Char → List Char
  | [] => []
  | c :: cs =>
    if inComment then skipFrom (c != '\n') cs
    else if c = '#' then skipFrom true cs
    else if isSpace c then skipFrom false cs
    else c :: cs

theorem length_skipFrom_le (inComment : Bool) (cs : List Char) :
    (skipFrom inComment cs).length ≤ cs.length := by
  fun_induction skipFrom inComment cs <;> grind

namespace Modes

def initial : Modes := ⟨false, true, false⟩

def skip (m : Modes) (cs : List Char) : List Char :=
  if m.spaced then skipFrom false cs else cs

theorem length_skip_le (m : Modes) (cs : List Char) : (m.skip cs).length ≤ cs.length := by
  unfold skip
  split
  · exact length_skipFrom_le false cs
  · exact Nat.le_refl _

/-- The next character behind white space and one number sign at most. -/
def peek (m : Modes) (cs : List Char) : Option Char :=
  if m.spaced then
    match cs.dropWhile isSpace with
    | '#' :: more => (more.dropWhile isSpace).head?
    | rest => rest.head?
  else cs.head?

/-- Case can be ignored for ASCII bytes only, and a byte outside ASCII is no text. -/
def admitsChar (m : Modes) (c : Char) (isByte : Bool) : Bool :=
  if m.unicode then !m.caseless else !isByte || c.toNat < 0x80

/-- The modes with some switched on and, behind a hyphen, others off. No letter may come twice. -/
def switch? (m : Modes) (flags : List Char) : Option Modes :=
  if flags.all ("imsUuRx-".toList.contains ·) && decide flags.Nodup &&
      flags.getLast? != some '-' then
    let on := flags.takeWhile (· != '-')
    let value (flag : Char) (before : Bool) : Bool :=
      if on.contains flag then true else if flags.contains flag then false else before
    some ⟨value 'i' m.caseless, value 'u' m.unicode, value 'x' m.spaced⟩
  else none

end Modes

/-- The start of a group: one that opens, with a name or without, or one that only switches
modes. -/
inductive Head where
  | opening (modes : Modes) (name? : Option (List Char))
  | switching (modes : Modes)
  deriving DecidableEq, Repr

def isName : List Char → Bool
  | [] => false
  | c :: cs =>
    (c == '_' || isLetter c) &&
      cs.all fun d => d == '_' || d == '.' || d == '[' || d == ']' || isLetter d || isNumber d

/-- A group with a name, read from behind the sign in front of the name. -/
def namedHead? (m : Modes) (cs : List Char) : Option (Head × List Char) :=
  let name := cs.takeWhile (· != '>')
  match cs.drop name.length with
  | '>' :: rest => if isName name then some (.opening m (some name), rest) else none
  | _ => none

/-- A group with flags, which a colon ends or the end of the group. -/
def flagHead? (m : Modes) (cs : List Char) : Option (Head × List Char) :=
  let flags := cs.takeWhile fun c => c != ':' && c != ')'
  match cs.drop flags.length with
  | ':' :: rest => (m.switch? flags).map (.opening · none, rest)
  | _ :: rest => if flags = [] then none else (m.switch? flags).map (.switching ·, rest)
  | [] => none

/-- The head of a group, read from behind its parenthesis. There is no looking around. -/
def head? (m : Modes) (cs : List Char) : Option (Head × List Char) :=
  match m.skip cs with
  | '?' :: '=' :: _ | '?' :: '!' :: _ | '?' :: '<' :: '=' :: _ | '?' :: '<' :: '!' :: _ => none
  | '?' :: 'P' :: '<' :: rest => namedHead? m rest
  | '?' :: '<' :: rest => namedHead? m rest
  | '?' :: rest => flagHead? m rest
  | rest => some (.opening m none, rest)

theorem length_le_of_drop_eq_cons {n : Nat} {cs rest : List Char} {c : Char}
    (h : cs.drop n = c :: rest) : rest.length < cs.length := by
  have lengths := congrArg List.length h
  simp only [List.length_drop, List.length_cons] at lengths
  omega

theorem length_of_namedHead? {m : Modes} {cs rest : List Char} {head : Head}
    (h : namedHead? m cs = some (head, rest)) : rest.length ≤ cs.length := by
  simp only [namedHead?] at h
  split at h
  · rename_i found
    have shorter := length_le_of_drop_eq_cons found
    grind
  · simp at h

theorem length_of_flagHead? {m : Modes} {cs rest : List Char} {head : Head}
    (h : flagHead? m cs = some (head, rest)) : rest.length ≤ cs.length := by
  simp only [flagHead?] at h
  split at h
  · rename_i found
    have shorter := length_le_of_drop_eq_cons found
    obtain ⟨_, _, same⟩ := Option.map_eq_some_iff.1 h
    grind
  · rename_i found
    have shorter := length_le_of_drop_eq_cons found
    split at h
    · simp at h
    · obtain ⟨_, _, same⟩ := Option.map_eq_some_iff.1 h
      grind
  · simp at h

theorem length_of_head? {m : Modes} {cs rest : List Char} {head : Head}
    (h : head? m cs = some (head, rest)) : rest.length ≤ cs.length := by
  have skipped := m.length_skip_le cs
  simp only [head?] at h
  split at h <;> try simp at h
  · have shorter := length_of_namedHead? h
    grind
  · have shorter := length_of_namedHead? h
    grind
  · have shorter := length_of_flagHead? h
    grind
  · grind

end TokenListing.Text.Pattern
