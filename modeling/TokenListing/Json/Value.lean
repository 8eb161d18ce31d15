import TokenListing.Text.Decimal
import TokenListing.Text.Escaping

set_option autoImplicit false

/-!
The JSON values that listings are made of, and how they are laid out: one item or field to a line,
two blanks for each level of nesting, and nothing between the brackets of an empty array or object.
-/

namespace TokenListing.Json

open Text

/-- An object keeps its fields in order. -/
inductive Value where
  | number (n : Int)
  | string (s : String)
  | array (items : List Value)
  | object (fields : List (String × Value))
  deriving Repr

/-- The quotation mark, the backslash and the control characters are escaped, five of these by a
letter and the others by their number in four digits. -/
def stringEscaping : Escaping where
  short
    | '"' => some '"'
    | '\\' => some '\\'
    | '\x08' => some 'b'
    | '\x0c' => some 'f'
    | '\n' => some 'n'
    | '\r' => some 'r'
    | '\t' => some 't'
    | _ => none
  code c :=
    if c.toNat < 0x20 then
      some ['0', '0', Nat.digitChar (c.toNat / 16), Nat.digitChar (c.toNat % 16)]
    else none

def quoted (s : String) : List Char :=
  '"' :: (stringEscaping.text s.toList ++ ['"'])

/-- The line break in front of what is nested so deep. -/
def lineBreak (depth : Nat) : List Char :=
  '\n' :: List.replicate (2 * depth) ' '

/-- The written items of an array or an object, each behind its line break, between brackets that
stand at the given depth. -/
def bracketed (opening closing : Char) (depth : Nat) : List (List Char) → List Char
  | [] => [opening, closing]
  | items =>
    opening :: ([','].intercalate (items.map (lineBreak (depth + 1) ++ ·)) ++
      lineBreak depth ++ [closing])

mutual

/-- The text of a value whose brackets stand at the given depth. -/
def Value.chars (depth : Nat) : Value → List Char
  | .number n => Decimal.ofInt n
  | .string s => quoted s
  | .array items => bracketed '[' ']' depth (itemChars (depth + 1) items)
  | .object fields => bracketed '{' '}' depth (fieldChars (depth + 1) fields)

def itemChars (depth : Nat) : List Value → List (List Char)
  | [] => []
  | v :: vs => v.chars depth :: itemChars depth vs

def fieldChars (depth : Nat) : List (String × Value) → List (List Char)
  | [] => []
  | (key, v) :: rest =>
    (quoted key ++ ':' :: ' ' :: v.chars depth) :: fieldChars depth rest

end

def Value.render (v : Value) : String := String.ofList (v.chars 0)

@[simp] theorem toList_render (v : Value) : v.render.toList = v.chars 0 := by
  simp [Value.render]

end TokenListing.Json
