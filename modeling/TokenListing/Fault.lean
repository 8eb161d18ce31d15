import TokenListing.Text.Decimal

set_option autoImplicit false

/-!
Faults: why there is no token. The input may have come to its end, or an integer literal may denote
more than an integer holds. A fault of the second kind can be shown in the text where it arose; it
carries that text from the moment that it is attached.
-/

namespace TokenListing

open Text

/-- The greatest integer that a literal may denote. -/
def maxInteger : Nat := 2147483647

/-- A text under the name by which it is reported. -/
structure NamedText where
  name : String
  content : String
  deriving DecidableEq, Repr

/-- What a fault carries before a text is attached. -/
def NamedText.placeholder : NamedText := ⟨"input", ""⟩

/-- A remark on a stretch of the text, given by its byte offset and its length in bytes. -/
structure Label where
  remark : String
  offset : Nat
  length : Nat
  deriving DecidableEq, Repr

inductive Fault where
  | endOfInput (line : UInt32)
  | tooLarge (literal : String) (line : UInt32) (offset : Nat) (source : NamedText)
  deriving DecidableEq, Repr

namespace Fault

def isEnd : Fault → Bool
  | .endOfInput _ => true
  | .tooLarge .. => false

/-- The line on which the fault arose. -/
def line : Fault → UInt32
  | .endOfInput line => line
  | .tooLarge _ line _ _ => line

def message : Fault → String
  | .endOfInput line =>
    "unexpected end of input at line " ++ String.ofList (Decimal.ofNat line.toNat)
  | .tooLarge literal .. => "integer literal '" ++ literal ++ "' does not fit in 32 bits"

/-- The fixed code under which a fault is looked up. -/
def code : Fault → String
  | .endOfInput _ => "lexis::exhausted"
  | .tooLarge .. => "lexis::overflow"

def help? : Fault → Option String
  | .endOfInput _ => none
  | .tooLarge .. =>
    some ("integer literals must not exceed " ++ String.ofList (Decimal.ofNat maxInteger))

/-- The literal of a fault is marked from its first byte to its last. -/
def label? : Fault → Option Label
  | .endOfInput _ => none
  | .tooLarge literal _ offset _ => some ⟨"here", offset, literal.utf8ByteSize⟩

def source? : Fault → Option NamedText
  | .endOfInput _ => none
  | .tooLarge _ _ _ source => some source

/-- The fault with a text to show it in. The end of the input is shown in none. -/
def attach (source : NamedText) : Fault → Fault
  | .endOfInput line => .endOfInput line
  | .tooLarge literal line offset _ => .tooLarge literal line offset source

@[simp] theorem isEnd_attach (source : NamedText) (f : Fault) :
    (f.attach source).isEnd = f.isEnd := by
  cases f <;> rfl

@[simp] theorem line_attach (source : NamedText) (f : Fault) : (f.attach source).line = f.line := by
  cases f <;> rfl

@[simp] theorem message_attach (source : NamedText) (f : Fault) :
    (f.attach source).message = f.message := by
  cases f <;> rfl

@[simp] theorem label?_attach (source : NamedText) (f : Fault) :
    (f.attach source).label? = f.label? := by
  cases f <;> rfl

end Fault

end TokenListing
