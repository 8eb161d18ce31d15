import TokenListing.Word

set_option autoImplicit false

/-!
The vocabulary of a text: one entry for each spelling met so far. An entry is told from every other
by the vocabulary that made it and by its slot there, so equal spellings in two vocabularies are two
entries. Entries are only ever added, each behind all the others, and an entry once made is found
again under its spelling.
-/

namespace TokenListing

/-- What tells an entry from all others: the number of its vocabulary and its place in it. -/
structure EntryId where
  vocabulary : Nat
  slot : Nat
  deriving DecidableEq, Repr

/-- A word as a vocabulary keeps it. -/
structure Entry where
  word : Word
  id : EntryId
  deriving DecidableEq, Repr

/-- The entries of one vocabulary in the order of their slots. -/
structure Vocabulary where
  number : Nat
  entries : List Entry
  deriving DecidableEq, Repr

namespace Vocabulary

/-- A fresh vocabulary holds the two reserved words. -/
def fresh (number : Nat) : Vocabulary :=
  ⟨number, [⟨⟨.trueWord, "true"⟩, ⟨number, 0⟩⟩, ⟨⟨.falseWord, "false"⟩, ⟨number, 1⟩⟩]⟩

instance : Inhabited Vocabulary := ⟨fresh 0⟩

def size (v : Vocabulary) : Nat := v.entries.length

def isEmpty (v : Vocabulary) : Bool := v.entries.isEmpty

/-- The entry under a spelling. -/
def find? (v : Vocabulary) (lexeme : String) : Option Entry :=
  v.entries.find? (·.word.lexeme == lexeme)

/-- The entry that a new identifier gets. -/
def newEntry (v : Vocabulary) (lexeme : String) : Entry :=
  ⟨⟨.identifier, lexeme⟩, ⟨v.number, v.entries.length⟩⟩

/-- The entry under a spelling, a new identifier if there is none, and the vocabulary with it. -/
def intern (v : Vocabulary) (lexeme : String) : Entry × Vocabulary :=
  match v.find? lexeme with
  | some e => (e, v)
  | none => (v.newEntry lexeme, { v with entries := v.entries ++ [v.newEntry lexeme] })

@[simp] theorem size_fresh (number : Nat) : (fresh number).size = 2 := rfl

theorem intern_of_find? {v : Vocabulary} {lexeme : String} {e : Entry}
    (h : v.find? lexeme = some e) : v.intern lexeme = (e, v) := by
  simp [intern, h]

theorem intern_of_find?_none {v : Vocabulary} {lexeme : String} (h : v.find? lexeme = none) :
    v.intern lexeme =
      (v.newEntry lexeme, { v with entries := v.entries ++ [v.newEntry lexeme] }) := by
  simp [intern, h]

/-- What was interned is found. -/
theorem find?_intern_self (v : Vocabulary) (lexeme : String) :
    (v.intern lexeme).2.find? lexeme = some (v.intern lexeme).1 := by
  cases h : v.find? lexeme with
  | some e => simp [intern_of_find? h, h]
  | none =>
    rw [intern_of_find?_none h]
    unfold find? at h ⊢
    simp [List.find?_append, h, newEntry]

/-- Interning leaves every entry where it was. -/
theorem find?_intern_of_find? {v : Vocabulary} {lexeme other : String} {e : Entry}
    (h : v.find? other = some e) : (v.intern lexeme).2.find? other = some e := by
  cases found : v.find? lexeme with
  | some e' => simpa [intern_of_find? found] using h
  | none =>
    rw [intern_of_find?_none found]
    unfold find? at h ⊢
    simp [List.find?_append, h]

theorem lexeme_of_find? {v : Vocabulary} {lexeme : String} {e : Entry}
    (h : v.find? lexeme = some e) : e.word.lexeme = lexeme := by
  simpa using List.find?_some h

end Vocabulary

end TokenListing
