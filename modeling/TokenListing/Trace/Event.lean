import TokenListing.Token
import TokenListing.Trace.Record

set_option autoImplicit false

/-!
What is worth telling while a text is cut into tokens: every comment with the line of its opener,
the opener of a comment that is never closed, each identifier when it enters the vocabulary, and
each token with the line on which it starts.
-/

namespace TokenListing.Trace

inductive Event where
  | interned (lexeme : String)
  | lineComment (line : UInt32)
  | blockComment (line : UInt32)
  | unclosed (line : UInt32)
  | scanned (line : UInt32) (token : Token Word)
  deriving DecidableEq, Repr

namespace Event

private def lineField (line : UInt32) : Field := ⟨"line", .number line.toNat⟩

/-- Words are entered in one part of the program, and all else is told by another. -/
def logger : Event → String
  | .interned _ => "lexis::scanner::keywords"
  | _ => "lexis::scanner::lexer"

def level : Event → Level
  | .scanned .. => .trace
  | _ => .debug

def message : Event → String
  | .interned _ => "interning identifier"
  | .lineComment _ => "skipping line comment"
  | .blockComment _ => "skipping block comment"
  | .unclosed _ => "block comment runs to end of input"
  | .scanned .. => "scanned"

def fields : Event → List Field
  | .interned lexeme => [⟨"lexeme", .quoted lexeme⟩]
  | .lineComment line | .blockComment line | .unclosed line => [lineField line]
  | .scanned line token => [lineField line, ⟨"token", .text token.display⟩]

def record (e : Event) : Record := ⟨e.level, e.logger, e.message, e.fields⟩

end Event

end TokenListing.Trace
