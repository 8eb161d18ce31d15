set_option autoImplicit false

/-!
Words. A word is a spelling together with its kind. In a listing the kind belongs to the spelling:
`true` and `false` are reserved and every other spelling is an identifier.
-/

namespace TokenListing

inductive WordKind where
  | trueWord
  | falseWord
  | identifier
  deriving DecidableEq, Repr

namespace WordKind

/-- The kind of a spelling. Upper and lower case differ. -/
def ofLexeme (lexeme : String) : WordKind :=
  if lexeme = "true" then .trueWord else if lexeme = "false" then .falseWord else .identifier

def name : WordKind → String
  | .trueWord => "TRUE"
  | .falseWord => "FALSE"
  | .identifier => "IDENTIFIER"

theorem name_inj {a b : WordKind} : a.name = b.name ↔ a = b := by
  cases a <;> cases b <;> decide

end WordKind

structure Word where
  kind : WordKind
  lexeme : String
  deriving DecidableEq, Repr

namespace Word

/-- The word that a spelling stands for. -/
def ofLexeme (lexeme : String) : Word := ⟨.ofLexeme lexeme, lexeme⟩

def isReserved (w : Word) : Bool := w.kind != .identifier

@[simp] theorem lexeme_ofLexeme (lexeme : String) : (ofLexeme lexeme).lexeme = lexeme := rfl

@[simp] theorem kind_ofLexeme (lexeme : String) : (ofLexeme lexeme).kind = .ofLexeme lexeme := rfl

end Word

end TokenListing
