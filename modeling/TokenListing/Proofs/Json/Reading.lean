import TokenListing.Json.Value
import TokenListing.Proofs.Text.Numerals
import TokenListing.Proofs.Text.Unescaping

set_option autoImplicit false

/-!
JSON texts read back. A text is cut into lexemes, and the lexemes are read with a stack of what is
still open. Of JSON this is the part without fractions, exponents, names and pairs of surrogates;
what is laid out from a value is in it, and reading it gives the value.
-/

namespace TokenListing.Json

open Text

def stringUnescaping : Unescaping where
  mark := '"'
  short
    | '"' => some '"'
    | '\\' => some '\\'
    | '/' => some '/'
    | 'b' => some '\x08'
    | 'f' => some '\x0c'
    | 'n' => some '\n'
    | 'r' => some '\r'
    | 't' => some '\t'
    | _ => none
  code
    | a :: b :: c :: d :: rest => ((Hexadecimal.value? [a, b, c, d]).bind scalar?).map (·, rest)
    | _ => none
  isPlain c := 0x20 ≤ c.toNat
  length_code := by
    intro cs c rest h
    split at h
    · obtain rfl := rest_eq_of_map h
      simp only [List.length_cons]
      omega
    · cases h

theorem stringUnescaping_undoes : stringUnescaping.Undoes stringEscaping where
  mark_ne := by decide
  short {c letter} h := by
    simp only [stringEscaping] at h
    split at h
    all_goals cases h
    all_goals exact ⟨by decide, rfl⟩
  code {c digits} _ h rest := by
    obtain ⟨control, rfl⟩ : c.toNat < 0x20 ∧
        ['0', '0', Nat.digitChar (c.toNat / 16), Nat.digitChar (c.toNat % 16)] = digits := by
      simpa [stringEscaping] using h
    have zeros : Hexadecimal.value? ['0', '0'] = some 0 := by decide
    have high := Hexadecimal.value?_concat zeros (d := c.toNat / 16) (by omega)
    have value := Hexadecimal.value?_concat high (d := c.toNat % 16) (by omega)
    have same : 16 * (16 * 0 + c.toNat / 16) + c.toNat % 16 = c.toNat := by omega
    rw [same] at value
    simp only [List.cons_append, List.nil_append] at value
    simp [stringUnescaping, value]
  isPlain {c} short code := by
    refine ⟨?_, ?_, ?_⟩
    · rintro rfl
      cases short
    · rintro rfl
      cases short
    · simpa [stringEscaping, stringUnescaping] using code

inductive Lexeme where
  | openArray
  | closeArray
  | openObject
  | closeObject
  | comma
  | colon
  | number (n : Int)
  | string (s : String)
  deriving DecidableEq, Repr

namespace Lexeme

def ofMark? : Char → Option Lexeme
  | '[' => some openArray
  | ']' => some closeArray
  | '{' => some openObject
  | '}' => some closeObject
  | ',' => some comma
  | ':' => some colon
  | _ => none

/-- The lexeme that starts with a character. -/
def next? (c : Char) (cs : List Char) : Option (Lexeme × List Char) :=
  match ofMark? c with
  | some mark => some (mark, cs)
  | none =>
    if c = '"' then
      (stringUnescaping.text? cs).map (Prod.map (fun text => string (String.ofList text)) id)
    else (Decimal.integer? (c :: cs)).map (Prod.map number id)

theorem length_next?_le {c : Char} {cs rest : List Char} {x : Lexeme}
    (h : next? c cs = some (x, rest)) : rest.length ≤ cs.length := by
  unfold next? at h
  split at h
  · obtain ⟨-, rfl⟩ := Prod.mk.inj (Option.some.inj h)
    exact Nat.le_refl _
  · split at h
    · obtain ⟨text, read⟩ := exists_of_map_fst h
      exact Nat.le_of_lt (Unescaping.length_text?_lt read)
    · obtain ⟨n, read⟩ := exists_of_map_fst h
      exact Nat.le_of_lt_succ (Decimal.length_integer?_lt read)

end Lexeme

/-- What may stand between lexemes. -/
def isLayout (c : Char) : Bool := c == ' ' || c == '\n' || c == '\r' || c == '\t'

def lexemes? (cs : List Char) : Option (List Lexeme) :=
  match cs with
  | [] => some []
  | c :: cs =>
    if isLayout c then lexemes? cs
    else
      match _read : Lexeme.next? c cs with
      | none => none
      | some (x, rest) => (lexemes? rest).map (x :: ·)
termination_by cs.length
decreasing_by
  · simp
  · exact Nat.lt_succ_of_le (Lexeme.length_next?_le _read)

theorem lexemes?_of_isLayout {c : Char} (layout : isLayout c = true) (cs : List Char) :
    lexemes? (c :: cs) = lexemes? cs := by
  rw [lexemes?]
  simp [layout]

theorem lexemes?_of_next? {c : Char} {cs rest : List Char} {x : Lexeme} (solid : isLayout c = false)
    (read : Lexeme.next? c cs = some (x, rest)) :
    lexemes? (c :: cs) = (lexemes? rest).map (x :: ·) := by
  rw [lexemes?]
  simp only [solid, Bool.false_eq_true, if_false]
  split <;> simp_all

/-- An array or an object that has not been closed, with what it has had so far. An object waits for
the value of its last key. -/
inductive Pending where
  | array (items : List Value)
  | object (fields : List (String × Value)) (key : String)

mutual

/-- Reads on where a value is due. -/
def value? : List Pending → List Lexeme → Option Value
  | stack, .number n :: rest => behind? (.number n) stack rest
  | stack, .string s :: rest => behind? (.string s) stack rest
  | stack, .openArray :: .closeArray :: rest => behind? (.array []) stack rest
  | stack, .openArray :: rest => value? (.array [] :: stack) rest
  | stack, .openObject :: .closeObject :: rest => behind? (.object []) stack rest
  | stack, .openObject :: .string key :: .colon :: rest => value? (.object [] key :: stack) rest
  | _, _ => none

/-- Reads on behind a value. -/
def behind? (v : Value) : List Pending → List Lexeme → Option Value
  | [], [] => some v
  | .array items :: stack, .comma :: rest => value? (.array (items ++ [v]) :: stack) rest
  | .array items :: stack, .closeArray :: rest => behind? (.array (items ++ [v])) stack rest
  | .object fields key :: stack, .comma :: .string next :: .colon :: rest =>
    value? (.object (fields ++ [(key, v)]) next :: stack) rest
  | .object fields key :: stack, .closeObject :: rest =>
    behind? (.object (fields ++ [(key, v)])) stack rest
  | _, _ => none

end

def parse? (text : String) : Option Value :=
  (lexemes? text.toList).bind (value? [])

end TokenListing.Json
