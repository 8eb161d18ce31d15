import TokenListing.Text.Decimal
import TokenListing.Text.Displayed

set_option autoImplicit false

/-!
Log records. A record has a level, a logger, a message and named values; a threshold lets through
the levels that are at least as severe. A line of the log shows the level, the message and each
value behind its name.
-/

namespace TokenListing.Trace

open Text

inductive Level where
  | error
  | warn
  | info
  | debug
  | trace
  deriving DecidableEq, Repr

namespace Level

/-- The most severe level comes first. -/
def rank : Level → Nat
  | .error => 1
  | .warn => 2
  | .info => 3
  | .debug => 4
  | .trace => 5

def name : Level → String
  | .error => "ERROR"
  | .warn => "WARN"
  | .info => "INFO"
  | .debug => "DEBUG"
  | .trace => "TRACE"

end Level

/-- The least severe level that is still let through, or none at all. -/
inductive Threshold where
  | off
  | upTo (level : Level)
  deriving DecidableEq, Repr

namespace Threshold

def admits : Threshold → Level → Bool
  | .off, _ => false
  | .upTo level, l => l.rank ≤ level.rank

/-- The threshold that a name or a number gives. Letters count in either case; a number may have a
plus sign and leading zeros. -/
def ofText? (text : List Char) : Option Threshold :=
  match String.ofList (text.map Char.toLower) with
  | "off" => some .off
  | "error" => some (.upTo .error)
  | "warn" => some (.upTo .warn)
  | "info" => some (.upTo .info)
  | "debug" => some (.upTo .debug)
  | "trace" => some (.upTo .trace)
  | _ =>
    let digits := if text.head? = some '+' then text.tail else text
    if digits ≠ [] ∧ digits.all Char.isDigit then
      match Decimal.value digits with
      | 0 => some .off
      | 1 => some (.upTo .error)
      | 2 => some (.upTo .warn)
      | 3 => some (.upTo .info)
      | 4 => some (.upTo .debug)
      | 5 => some (.upTo .trace)
      | _ => none
    else none

@[simp] theorem admits_off (l : Level) : off.admits l = false := rfl

@[simp] theorem admits_trace (l : Level) : (upTo .trace).admits l = true := by
  cases l <;> rfl

end Threshold

/-- A text is shown as it is or quoted. -/
inductive Value where
  | number (n : Nat)
  | text (s : String)
  | quoted (s : String)
  deriving DecidableEq, Repr

/-- Between quotation marks an apostrophe stands for itself. -/
def quotedEscaping : Escaping := displayed ['"']

def Value.shown : Value → String
  | .number n => String.ofList (Decimal.ofNat n)
  | .text s => s
  | .quoted s => String.ofList ('"' :: (quotedEscaping.text s.toList ++ ['"']))

/-- A value under its name. -/
structure Field where
  name : String
  value : Value
  deriving DecidableEq, Repr

/-- What a part of the program has to tell. The part is its logger, named by its path. -/
structure Record where
  level : Level
  logger : String
  message : String
  fields : List Field
  deriving DecidableEq, Repr

namespace Record

/-- The message counts as a field. -/
def hasField (r : Record) (name : String) : Bool :=
  name == "message" || r.fields.any (·.name == name)

/-- The line that shows a record. The logger is left out. -/
def line (r : Record) : String :=
  r.level.name ++ " " ++ r.message ++
    String.join (r.fields.map fun f => " " ++ f.name ++ "=" ++ f.value.shown)

end Record

end TokenListing.Trace
