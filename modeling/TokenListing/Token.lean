import TokenListing.Text.Decimal
import TokenListing.Text.Displayed
import TokenListing.Vocabulary

set_option autoImplicit false

/-!
Tokens and how they are shown. A token carries its word either as such or as a vocabulary's entry.
Two tokens are equal when they show the same word, whatever entries they carry; that they share an
entry is a question of its own.
-/

namespace TokenListing

open Text

/-- One symbol, one integer, or one word of the kind `ω`. -/
inductive Token (ω : Type) where
  | symbol (char : Char)
  | integer (value : Int32)
  | word (word : ω)
  deriving DecidableEq, Repr

/-- The category of a token. Each symbol is a category of its own. -/
inductive Tag where
  | symbol (char : Char)
  | integer
  | word (kind : WordKind)
  deriving DecidableEq, Repr

namespace Tag

def name : Tag → String
  | .symbol _ => "SYMBOL"
  | .integer => "INTEGER"
  | .word kind => kind.name

def codePoint? : Tag → Option Nat
  | .symbol c => some c.toNat
  | _ => none

end Tag

/-- A symbol stands between apostrophes, and either quotation mark is escaped in it. -/
def symbolEscaping : Escaping := displayed ['\'', '"']

namespace Token

variable {ω ψ : Type}

def map (f : ω → ψ) : Token ω → Token ψ
  | .symbol c => .symbol c
  | .integer n => .integer n
  | .word w => .word (f w)

@[simp] theorem map_symbol (f : ω → ψ) (c : Char) : (symbol c : Token ω).map f = .symbol c := rfl

@[simp] theorem map_integer (f : ω → ψ) (n : Int32) : (integer n : Token ω).map f = .integer n := rfl

@[simp] theorem map_word (f : ω → ψ) (w : ω) : (word w).map f = .word (f w) := rfl

/-- The token with its word in place of the entry. -/
def plain (t : Token Entry) : Token Word := t.map Entry.word

/-- Whether two tokens carry the very same entry. -/
def sharesEntry : Token Entry → Token Entry → Bool
  | .word a, .word b => a.id == b.id
  | _, _ => false

def tag : Token Word → Tag
  | .symbol c => .symbol c
  | .integer _ => .integer
  | .word w => .word w.kind

def integer? : Token Word → Option Int32
  | .integer n => some n
  | _ => none

def word? : Token Word → Option Word
  | .word w => some w
  | _ => none

/-- What the name of the category is followed by: a symbol between apostrophes, the numeral of an
integer, a word as it is spelled. -/
def displayBody : Token Word → List Char
  | .symbol c => '\'' :: (symbolEscaping.char c ++ ['\''])
  | .integer n => Decimal.ofInt n.toInt
  | .word w => w.lexeme.toList

/-- The text that shows a token. -/
def display (t : Token Word) : String :=
  String.ofList (t.tag.name.toList ++ ' ' :: t.displayBody)

@[simp] theorem toList_display (t : Token Word) :
    t.display.toList = t.tag.name.toList ++ ' ' :: t.displayBody := by
  simp [display]

end Token

/-- A token and the line on which it starts. -/
structure Row (ω : Type) where
  line : UInt32
  token : Token ω
  deriving DecidableEq, Repr

namespace Row

def plain (r : Row Entry) : Row Word := ⟨r.line, r.token.plain⟩

end Row

end TokenListing
