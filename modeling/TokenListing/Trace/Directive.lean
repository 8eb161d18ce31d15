import TokenListing.Text.Bytes
import TokenListing.Text.Numeral
import TokenListing.Text.Pattern.Reading
import TokenListing.Text.Pieces
import TokenListing.Trace.Record

set_option autoImplicit false

/-!
Directives for the log. A directive sets a threshold for the records that it concerns: those of a
logger and of all loggers whose names go on from there, those that have a field, or all of them. It
is written as a threshold alone, or as `logger[span{field=value}]=threshold` with any part but one
left out.
-/

namespace TokenListing.Trace

/-- The records that a directive is about. What is asked of a span of time or of a value holds of
no record, because there are no spans in this log. -/
inductive Scope where
  | every
  | having (field : String)
  | spans
  deriving DecidableEq, Repr

structure Directive where
  logger? : Option (List Char)
  scope : Scope
  threshold : Threshold
  deriving DecidableEq, Repr

namespace Directive

def concerns (d : Directive) (r : Record) : Bool :=
  (match d.logger? with
    | none => true
    | some start => start.isPrefixOf r.logger.toList) &&
  match d.scope with
    | .every => true
    | .having field => r.hasField field
    | .spans => false

/-- Whether the first of two directives that concern one record is the more specific. A longer
logger counts most, then a field; of two fields the later in the order of text counts. -/
def outranks (d e : Directive) : Bool :=
  let reach (x : Directive) : Nat := match x.logger? with
    | none => 0
    | some start => start.length + 1
  if reach d ≠ reach e then reach e < reach d
  else
    match d.scope, e.scope with
    | .having f, .having g => g < f
    | .having _, _ => true
    | _, _ => false

theorem outranks_self (d : Directive) : d.outranks d = false := by
  cases h : d.scope <;> simp [outranks, h]

/-- Whether a directive can start like this. -/
def opens : List Char → Bool
  | [] => false
  | c :: _ => c == '-' || c == ':' || c == '_' || Unicode.isLetter c || Unicode.isNumber c

/-- A value that can be asked for: a number or a regular expression. -/
def isValue (text : List Char) : Bool :=
  Text.Numeral.isNumeral text || Text.Pattern.isPattern text

/-- What keeps a text from being a directive: it is not written by the rules, or a part of it would
begin or end inside a character. -/
inductive Flaw where
  | malformed
  | insideCharacter
  deriving DecidableEq, Repr

/-- The part of a text between two byte offsets. -/
def part (text : List Char) (first last : Nat) : Except Flaw (List Char) :=
  match Text.slice? first last text with
  | some found => .ok found
  | none => .error .insideCharacter

/-- A written threshold; an empty one lets everything through. -/
def thresholdOf (text : List Char) : Except Flaw Threshold :=
  if text = [] then .ok (.upTo .trace)
  else
    match Threshold.ofText? text with
    | some found => .ok found
    | none => .error .malformed

/-- What a field in brackets asks for, of a span of time or of any record. A value may stand behind
an equals sign; what a further one sets off is passed over. -/
def scopeOf (inSpan : Bool) (field : List Char) : Except Flaw Scope :=
  if field = [] then .error .malformed
  else
    match Text.pieces '=' field with
    | _ :: value :: _ => if isValue value then .ok .spans else .error .malformed
    | _ => .ok (if inSpan then .spans else .having (String.ofList field))

/-- A directive whose brackets have been read. At `place` only a threshold can follow. -/
def close (text : List Char) (logger? : Option (List Char)) (scope : Scope) (place : Nat) :
    List Char → Except Flaw Directive
  | [] => .ok ⟨logger?, scope, .upTo .trace⟩
  | '=' :: _ => do
    let written ← part text (place + 1) (Text.byteLength text)
    return ⟨logger?, scope, ← thresholdOf written⟩
  | _ => .error .malformed

/-- A directive whose brackets open in front of `place`, with what is inside and behind them. -/
def inBrackets (text : List Char) (logger? : Option (List Char)) (place : Nat)
    (inner : List Char) : Except Flaw Directive := do
  let span := inner.takeWhile fun c => c != ']' && c != '\x7b'
  let behind := place + Text.byteLength span
  match inner.drop span.length with
  | [] => throw .malformed
  | ']' :: rest =>
    let _ ← part text place behind
    close text logger? .spans (behind + 1) rest
  | _ :: fields =>
    let _ ← part text place behind
    let field := fields.takeWhile (· != '\x7d')
    let closing := behind + 1 + Text.byteLength field
    match fields.drop field.length with
    | [] => throw .malformed
    | _ :: rest =>
      let scope ← scopeOf (span ≠ []) (← part text (behind + 1) closing)
      match rest with
      | ']' :: rest => close text logger? scope (closing + 2) rest
      | _ => throw .malformed

/-- The places of the parts are found in the text without the white space around it, and the parts
are cut at these places, counted in bytes, out of the text with it. So white space in front leaves
nothing that a record could match or puts a place inside a character, and white space behind belongs
to the last part. The first flaw in the order of the text counts. -/
def ofText (text : List Char) : Except Flaw Directive := do
  let inner := Unicode.trim text
  let head := inner.takeWhile fun c => c != '=' && c != '['
  let place := Text.byteLength head
  match inner.drop head.length with
  | '[' :: brackets =>
    if head = [] then inBrackets text none 1 brackets
    else if opens head then inBrackets text (some (← part text 0 place)) (place + 1) brackets
    else throw .malformed
  | rest =>
    if !opens head then throw .malformed
    else if rest = [] then
      match Threshold.ofText? text with
      | some threshold => return ⟨none, .every, threshold⟩
      | none => return ⟨some text, .every, .upTo .trace⟩
    else close text (some (← part text 0 place)) .every place rest

end Directive

end TokenListing.Trace
