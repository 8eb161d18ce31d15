import TokenListing.Text.Bytes

set_option autoImplicit false

/-!
Where in a text a reader of the text would look: a line and a column, both counted from one, the
column in bytes. A line ends at a line feed, at a carriage return with a line feed behind it, and at
a carriage return that stands alone.
-/

namespace TokenListing.Text

/-- A line and the byte column in it. -/
structure Place where
  line : Nat
  column : Nat
  deriving DecidableEq, Repr

namespace Place

/-- The place of the first character of a text. -/
def start : Place := ⟨1, 1⟩

/-- The first place of the line below. -/
def nextLine (p : Place) : Place := ⟨p.line + 1, 1⟩

/-- The place behind one character that ends no line. -/
def along (p : Place) (c : Char) : Place := ⟨p.line, p.column + c.utf8Size⟩

/-- The place behind a piece of text that starts at `p`. -/
def behind (p : Place) : List Char → Place
  | [] => p
  | '\r' :: '\n' :: rest => p.nextLine.behind rest
  | c :: rest => if c = '\n' ∨ c = '\r' then p.nextLine.behind rest else (p.along c).behind rest

@[simp] theorem behind_nil (p : Place) : p.behind [] = p := by
  simp [behind]

end Place

/-- The place of the character that starts at a byte offset. -/
def placeOf (text : String) (offset : Nat) : Place :=
  Place.start.behind (firstBytes offset text.toList)

end TokenListing.Text
