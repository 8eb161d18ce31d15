import TokenListing.Text.Pattern.Atom

set_option autoImplicit false

/-!
Which texts are regular expressions. The text is read part by part; what is kept of the parts read
so far is how deep each of them nests, whether it can be repeated, and what stands open: groups and
classes in brackets. A counted repetition cannot be read, and nesting has a limit.
-/

namespace TokenListing.Text.Pattern

open Unicode (isSpace)

/-- The greatest depth of nesting. -/
def depthLimit : Nat := 250

/-- The depth of parts in a row: several of them are nested in the row, a single one is not. -/
def rowDepth : List Nat → Nat
  | [] => 0
  | [depth] => depth
  | depths => depths.foldl max 0 + 1

/-- A part of a row. A switch of modes cannot be repeated. -/
structure Part where
  depth : Nat
  repeatable : Bool
  deriving DecidableEq, Repr

/-- The inside of a group, the latest first: the parts behind the last bar, and the depths of the
alternatives in front of it. -/
structure Group where
  parts : List Part
  alternatives : List Nat
  deriving DecidableEq, Repr

namespace Group

def empty : Group := ⟨[], []⟩

def push (g : Group) (p : Part) : Group := { g with parts := p :: g.parts }

def split (g : Group) : Group := ⟨[], rowDepth (g.parts.map Part.depth) :: g.alternatives⟩

def depth (g : Group) : Nat := rowDepth g.split.alternatives

end Group

/-- The inside of brackets: the depths of the members behind the last operator, the depth of what
stands in front of it, and whether a hyphen or a closing bracket would still be a member. -/
structure Brackets where
  members : List Nat
  left? : Option Nat
  opening : Bool
  deriving DecidableEq, Repr

namespace Brackets

def fresh : Brackets := ⟨[], none, true⟩

def push (b : Brackets) (depth : Nat) : Brackets :=
  ⟨depth :: b.members, b.left?, false⟩

def depth (b : Brackets) : Nat :=
  match b.left? with
  | none => rowDepth b.members
  | some left => max left (rowDepth b.members) + 1

def operate (b : Brackets) : Brackets := ⟨[], some b.depth, false⟩

end Brackets

/-- What has been read of a regular expression. -/
structure Reading where
  modes : Modes
  group : Group
  outer : List (Group × Modes)
  brackets : List Brackets
  names : List (List Char)
  deriving DecidableEq, Repr

/-- The names of the classes that stand between colons. -/
def classNames : List String :=
  ["alnum", "alpha", "ascii", "blank", "cntrl", "digit", "graph", "lower", "print", "punct",
    "space", "upper", "word", "xdigit"]

/-- A named class, read from behind its bracket: whether it is negated, and what follows. -/
def namedClass? : List Char → Option (Bool × List Char)
  | ':' :: cs =>
    let negated := cs.head? == some '^'
    let inner := if negated then cs.tail else cs
    let name := inner.takeWhile (· != ':')
    match inner.drop name.length with
    | ':' :: ']' :: rest =>
      if classNames.contains (String.ofList name) then some (negated, rest) else none
    | _ => none
  | _ => none

namespace Reading

def initial : Reading := ⟨.initial, .empty, [], [], []⟩

def push (s : Reading) (p : Part) : Reading := { s with group := s.group.push p }

/-- Brackets open. Where bytes are meant a negated class would hold bytes that are no text. -/
def openBrackets (s : Reading) (cs : List Char) : Option (Reading × List Char) :=
  let opened := { s with brackets := .fresh :: s.brackets }
  match s.modes.skip cs with
  | '^' :: rest => if s.modes.unicode then some (opened, rest) else none
  | rest => some (opened, rest)

/-- The innermost brackets close and become a member of those around them, or a part. -/
def closeBrackets (s : Reading) (b : Brackets) (around : List Brackets) : Reading :=
  match around with
  | [] => { s with brackets := [], group := s.group.push ⟨b.depth + 1, true⟩ }
  | next :: rest => { s with brackets := next.push (b.depth + 1) :: rest }

def openGroup (s : Reading) (cs : List Char) : Option (Reading × List Char) :=
  match head? s.modes cs with
  | none => none
  | some (.switching modes, rest) => some ({ s with modes }.push ⟨0, false⟩, rest)
  | some (.opening modes none, rest) =>
    some ({ s with modes, group := .empty, outer := (s.group, s.modes) :: s.outer }, rest)
  | some (.opening modes (some name), rest) =>
    if s.names.contains name then none
    else
      some ({ s with
        modes, group := .empty, outer := (s.group, s.modes) :: s.outer, names := name :: s.names },
        rest)

/-- The last part is repeated. A question mark behind the sign belongs to it. -/
def repeatLast (s : Reading) (cs : List Char) : Option (Reading × List Char) :=
  match s.group.parts with
  | ⟨depth, true⟩ :: parts =>
    some ({ s with group := { s.group with parts := ⟨depth + 1, true⟩ :: parts } },
      if cs.head? = some '?' then cs.tail else cs)
  | _ => none

def addAtom (s : Reading) (atom? : Option (Atom × List Char)) : Option (Reading × List Char) :=
  match atom? with
  | some (a, rest) => if a.isAdmitted s.modes then some (s.push ⟨0, true⟩, rest) else none
  | none => none

/-- One step outside brackets. -/
def stepOutside (s : Reading) (c : Char) (cs : List Char) : Option (Reading × List Char) :=
  match c with
  | '(' => s.openGroup cs
  | ')' =>
    match s.outer with
    | [] => none
    | (group, modes) :: outer =>
      some ({ s with modes, outer, group := group.push ⟨s.group.depth + 1, true⟩ }, cs)
  | '|' => some ({ s with group := s.group.split }, cs)
  | '[' => s.openBrackets cs
  | '*' | '+' | '?' => s.repeatLast cs
  | '\x7b' => none
  | '.' => if s.modes.unicode then some (s.push ⟨0, true⟩, cs) else none
  | '^' | '$' => some (s.push ⟨0, true⟩, cs)
  | '\\' => s.addAtom (escape? s.modes cs)
  | c => s.addAtom (some (.char c false, cs))

/-- A member of a class or a range of members. A hyphen in front of a closing bracket or of
another hyphen makes no range. -/
def addMember (s : Reading) (b : Brackets) (around : List Brackets) (cs : List Char) :
    Option (Reading × List Char) :=
  let added := { s with brackets := b.push 0 :: around }
  match member? s.modes cs with
  | none => none
  | some (first, rest) =>
    let single := if first.isAdmittedMember s.modes then some (added, rest) else none
    match s.modes.skip rest with
    | '-' :: more =>
      if s.modes.peek more = some ']' ∨ s.modes.peek more = some '-' then single
      else
        match member? s.modes (s.modes.skip more) with
        | some (last, rest) =>
          if first.isRange last && first.isAdmittedMember s.modes &&
              last.isAdmittedMember s.modes then some (added, rest)
          else none
        | none => none
    | _ => single

/-- One step inside the innermost brackets. -/
def stepInside (s : Reading) (b : Brackets) (around : List Brackets) (c : Char) (cs : List Char) :
    Option (Reading × List Char) :=
  let literal := { s with brackets := { b with members := 0 :: b.members } :: around }
  if b.opening && c == '-' then
    if s.modes.admitsChar '-' false then some (literal, cs) else none
  else if b.opening && c == ']' && b.members.isEmpty then
    if s.modes.admitsChar ']' false then
      some ({ s with brackets := b.push 0 :: around }, cs)
    else none
  else if c = '[' then
    match namedClass? cs with
    | some (negated, rest) =>
      if s.modes.admitsChar 'a' false && (s.modes.unicode || !negated) then
        some ({ s with brackets := b.push 0 :: around }, rest)
      else none
    | none => { s with brackets := { b with opening := false } :: around }.openBrackets cs
  else if c = ']' then some (s.closeBrackets b around, cs)
  else if (c = '&' ∨ c = '-' ∨ c = '~') ∧ cs.head? = some c then
    some ({ s with brackets := b.operate :: around }, cs.tail)
  else s.addMember b around (c :: cs)

/-- One step: white space and comments where they may stand, or the next part. -/
def step (s : Reading) (c : Char) (cs : List Char) : Option (Reading × List Char) :=
  if s.modes.spaced && (isSpace c || c == '#') then some (s, skipFrom (c == '#') cs)
  else
    match s.brackets with
    | [] => s.stepOutside c cs
    | b :: around => s.stepInside b around c cs

theorem length_of_openBrackets {s next : Reading} {cs rest : List Char}
    (h : s.openBrackets cs = some (next, rest)) : rest.length ≤ cs.length := by
  have skipped := s.modes.length_skip_le cs
  simp only [openBrackets] at h
  split at h <;> grind

theorem length_of_openGroup {s next : Reading} {cs rest : List Char}
    (h : s.openGroup cs = some (next, rest)) : rest.length ≤ cs.length := by
  simp only [openGroup] at h
  split at h
  · simp at h
  all_goals
    rename_i found
    have shorter := length_of_head? found
    grind

theorem length_of_repeatLast {s next : Reading} {cs rest : List Char}
    (h : s.repeatLast cs = some (next, rest)) : rest.length ≤ cs.length := by
  simp only [repeatLast] at h
  split at h
  · grind
  · simp at h

theorem exists_atom_of_addAtom {s next : Reading} {atom? : Option (Atom × List Char)}
    {rest : List Char} (h : s.addAtom atom? = some (next, rest)) :
    ∃ a, atom? = some (a, rest) := by
  simp only [addAtom] at h
  split at h
  · rename_i a more
    split at h
    · simp only [Option.some.injEq, Prod.mk.injEq] at h
      exact ⟨a, by rw [h.2]⟩
    · simp at h
  · simp at h

theorem length_of_stepOutside {s next : Reading} {c : Char} {cs rest : List Char}
    (h : s.stepOutside c cs = some (next, rest)) : rest.length ≤ cs.length := by
  unfold stepOutside at h
  split at h
  · exact length_of_openGroup h
  · split at h <;> grind
  · grind
  · exact length_of_openBrackets h
  · exact length_of_repeatLast h
  · exact length_of_repeatLast h
  · exact length_of_repeatLast h
  · simp at h
  · grind
  · grind
  · grind
  · obtain ⟨a, found⟩ := exists_atom_of_addAtom h
    exact Nat.le_of_lt (length_of_escape? found)
  · obtain ⟨a, found⟩ := exists_atom_of_addAtom h
    grind

theorem length_of_addMember {s next : Reading} {b : Brackets} {around : List Brackets}
    {cs rest : List Char} (h : s.addMember b around cs = some (next, rest)) :
    rest.length < cs.length := by
  simp only [addMember] at h
  split at h
  · simp at h
  · rename_i first more found
    have shorter := length_of_member? found
    have skipped := s.modes.length_skip_le more
    split at h
    · rename_i last behind
      have skippedAgain := s.modes.length_skip_le last
      split at h
      · grind
      · split at h
        · rename_i foundLast
          have shorterLast := length_of_member? foundLast
          grind
        · simp at h
    · grind

theorem length_of_namedClass? {cs rest : List Char} {negated : Bool}
    (h : namedClass? cs = some (negated, rest)) : rest.length ≤ cs.length := by
  unfold namedClass? at h
  split at h
  · simp only at h
    split at h
    · rename_i found
      have shorter := length_le_of_drop_eq_cons found
      grind
    · simp at h
  · simp at h

theorem length_of_stepInside {s next : Reading} {b : Brackets} {around : List Brackets} {c : Char}
    {cs rest : List Char} (h : s.stepInside b around c cs = some (next, rest)) :
    rest.length ≤ cs.length := by
  simp only [stepInside] at h
  split at h
  · grind
  · split at h
    · grind
    · split at h
      · split at h
        · rename_i found
          have shorter := length_of_namedClass? found
          grind
        · exact length_of_openBrackets h
      · split at h
        · grind
        · split at h
          · grind
          · exact Nat.le_of_lt_succ (length_of_addMember h)

theorem length_of_step {s next : Reading} {c : Char} {cs rest : List Char}
    (h : s.step c cs = some (next, rest)) : rest.length ≤ cs.length := by
  simp only [step] at h
  split at h
  · have skipped := length_skipFrom_le (c == '#') cs
    grind
  · split at h
    · exact length_of_stepOutside h
    · exact length_of_stepInside h

/-- Every step reads a character at least, so the reading ends. -/
def run (s : Reading) (cs : List Char) : Option Reading :=
  match cs with
  | [] => some s
  | c :: cs =>
    match found : s.step c cs with
    | none => none
    | some (next, rest) => next.run rest
termination_by cs.length
decreasing_by exact Nat.lt_succ_of_le (length_of_step found)

/-- Whether nothing stands open and nothing nests too deep. -/
def isComplete (s : Reading) : Bool :=
  s.outer.isEmpty && s.brackets.isEmpty && s.group.depth ≤ depthLimit

end Reading

/-- Whether a text is a regular expression. -/
def isPattern (cs : List Char) : Bool :=
  match Reading.initial.run cs with
  | some s => s.isComplete
  | none => false

end TokenListing.Text.Pattern
