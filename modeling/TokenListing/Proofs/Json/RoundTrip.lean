import Mathlib.Data.List.Forall2
import TokenListing.Proofs.Json.Reading

set_option autoImplicit false

/-!
Values that are laid out and read back. The text of a value is cut into the value's lexemes, however
deep it stands, and these are read to the value itself.
-/

namespace TokenListing.Json

open Text

mutual

def Value.lexemes : Value → List Lexeme
  | .number n => [.number n]
  | .string s => [.string s]
  | .array items => .openArray :: ([.comma].intercalate (itemLexemes items) ++ [.closeArray])
  | .object fields => .openObject :: ([.comma].intercalate (fieldLexemes fields) ++ [.closeObject])

def itemLexemes : List Value → List (List Lexeme)
  | [] => []
  | v :: vs => v.lexemes :: itemLexemes vs

def fieldLexemes : List (String × Value) → List (List Lexeme)
  | [] => []
  | (key, v) :: rest => (.string key :: .colon :: v.lexemes) :: fieldLexemes rest

end

/-- A text is cut into these lexemes wherever no digit stands behind it. -/
def Lexes (cs : List Char) (ls : List Lexeme) : Prop :=
  ∀ rest, Decimal.EndsNumeral rest → lexemes? (cs ++ rest) = (lexemes? rest).map (ls ++ ·)

namespace Lexes

variable {cs ds : List Char} {ls ms : List Lexeme}

theorem nil : Lexes [] [] := by
  intro rest _
  simp

theorem append (front : Lexes cs ls) (back : Lexes ds ms) (ends : Decimal.EndsNumeral ds) :
    Lexes (cs ++ ds) (ls ++ ms) := by
  intro rest restEnds
  -- a numeral at the end of `cs` sees `rest` if there is nothing between
  have endsHere : Decimal.EndsNumeral (ds ++ rest) := by
    cases ds with
    | nil => exact restEnds
    | cons d ds => exact ends
  rw [List.append_assoc, front _ endsHere, back _ restEnds, Option.map_map]
  congr 1
  funext more
  simp

theorem layout {c : Char} (layout : isLayout c = true) (h : Lexes cs ls) : Lexes (c :: cs) ls := by
  intro rest ends
  rw [List.cons_append, lexemes?_of_isLayout layout, h rest ends]

theorem lineBreak (depth : Nat) (h : Lexes cs ls) : Lexes (lineBreak depth ++ cs) ls := by
  refine layout (by decide) ?_
  induction 2 * depth with
  | zero => exact h
  | succ n ih => exact layout (by decide) ih

theorem mark {c : Char} {x : Lexeme} (isMark : Lexeme.ofMark? c = some x) (h : Lexes cs ls) :
    Lexes (c :: cs) (x :: ls) := by
  intro rest ends
  have solid : isLayout c = false := by
    unfold Lexeme.ofMark? at isMark
    split at isMark <;> first | rfl | cases isMark
  have read : Lexeme.next? c (cs ++ rest) = some (x, cs ++ rest) := by
    simp [Lexeme.next?, isMark]
  rw [List.cons_append, lexemes?_of_next? solid read, h rest ends, Option.map_map]
  rfl

theorem quoted (s : String) : Lexes (quoted s) [.string s] := by
  intro rest _
  have text := stringUnescaping_undoes.text?_text s.toList rest
  have read : Lexeme.next? '"' (stringEscaping.text s.toList ++ '"' :: rest) =
      some (.string s, rest) := by
    have noMark : Lexeme.ofMark? '"' = none := rfl
    have mark : stringUnescaping.mark = '"' := rfl
    rw [mark] at text
    simp [Lexeme.next?, noMark, text]
  rw [Json.quoted, List.cons_append, List.append_assoc, List.singleton_append,
    lexemes?_of_next? rfl read]
  rfl

theorem ofInt (n : Int) : Lexes (Decimal.ofInt n) [.number n] := by
  intro rest ends
  obtain ⟨c, more, digits, first⟩ := Decimal.exists_ofInt_cons n
  have apart : isLayout c = false ∧ Lexeme.ofMark? c = none ∧ c ≠ '"' := by
    obtain rfl | digit := first
    · decide
    · refine ⟨?_, ?_, ?_⟩
      · rw [Bool.eq_false_iff]
        intro layout
        simp only [isLayout, Bool.or_eq_true, beq_iff_eq] at layout
        rcases layout with ((rfl | rfl) | rfl) | rfl <;> cases digit
      · unfold Lexeme.ofMark?
        split <;> first | rfl | cases digit
      · rintro rfl
        cases digit
  have number := Decimal.integer?_append n ends
  rw [digits, List.cons_append] at number
  have read : Lexeme.next? c (more ++ rest) = some (.number n, rest) := by
    simp [Lexeme.next?, apart.2.1, apart.2.2, number]
  rw [digits, List.cons_append, lexemes?_of_next? apart.1 read]
  rfl

theorem intercalate {depth : Nat} {items : List (List Char)} {lexed : List (List Lexeme)}
    (h : List.Forall₂ Lexes items lexed) :
    Lexes ([','].intercalate (items.map (Json.lineBreak depth ++ ·))) ([.comma].intercalate lexed) := by
  induction h with
  | nil => exact nil
  | @cons cs ls items lexed first rest ih =>
    cases rest with
    | nil => simpa using lineBreak depth first
    | cons =>
      simp only [List.map_cons, List.intercalate_cons_cons, List.append_assoc, List.singleton_append]
        at ih ⊢
      exact lineBreak depth (append first (mark rfl ih) (Decimal.endsNumeral_cons rfl _))

theorem bracketed {opening closing : Char} {x y : Lexeme} (opens : Lexeme.ofMark? opening = some x)
    (closes : Lexeme.ofMark? closing = some y) (depth : Nat) {items : List (List Char)}
    {lexed : List (List Lexeme)} (h : List.Forall₂ Lexes items lexed) :
    Lexes (bracketed opening closing depth items) (x :: ([.comma].intercalate lexed ++ [y])) := by
  have closed : Lexes [closing] [y] := mark closes nil
  cases h with
  | nil => exact mark opens closed
  | cons first rest =>
    rw [Json.bracketed, List.append_assoc]
    · exact mark opens (append (intercalate (.cons first rest)) (lineBreak depth closed)
        (Decimal.endsNumeral_cons rfl _))
    · simp

end Lexes

mutual

theorem lexes_chars (depth : Nat) : ∀ v : Value, Lexes (v.chars depth) v.lexemes
  | .number n => .ofInt n
  | .string s => .quoted s
  | .array items => .bracketed rfl rfl depth (lexes_itemChars (depth + 1) items)
  | .object fields => .bracketed rfl rfl depth (lexes_fieldChars (depth + 1) fields)

theorem lexes_itemChars (depth : Nat) :
    ∀ vs : List Value, List.Forall₂ Lexes (itemChars depth vs) (itemLexemes vs)
  | [] => .nil
  | v :: vs => .cons (lexes_chars depth v) (lexes_itemChars depth vs)

theorem lexes_fieldChars (depth : Nat) :
    ∀ fields : List (String × Value), List.Forall₂ Lexes (fieldChars depth fields) (fieldLexemes fields)
  | [] => .nil
  | (key, v) :: rest =>
    .cons (.append (.quoted key) (.mark rfl (.layout rfl (lexes_chars depth v)))
      (Decimal.endsNumeral_cons rfl _)) (lexes_fieldChars depth rest)

end

/-- No value starts with the bracket that would close the array around it. -/
theorem value?_openArray (v : Value) (stack : List Pending) (rest : List Lexeme) :
    value? stack (.openArray :: (v.lexemes ++ rest)) =
      value? (.array [] :: stack) (v.lexemes ++ rest) := by
  cases v <;> simp [Value.lexemes, value?]

theorem intercalate_singleton_cons {α : Type} (separator : α) (first : List α)
    (others : List (List α)) :
    [separator].intercalate (first :: others) = first ++ others.flatMap (separator :: ·) := by
  induction others generalizing first with
  | nil => simp
  | cons next others ih => simp [ih next]

mutual

theorem value?_lexemes (stack : List Pending) (rest : List Lexeme) :
    ∀ v : Value, value? stack (v.lexemes ++ rest) = behind? v stack rest
  | .number n => by simp [Value.lexemes, value?]
  | .string s => by simp [Value.lexemes, value?]
  | .array [] => by simp [Value.lexemes, itemLexemes, value?]
  | .array (v :: vs) => by
    have others := behind?_items vs [] v stack rest
    simp only [Value.lexemes, itemLexemes, intercalate_singleton_cons, List.cons_append,
      List.append_assoc, List.nil_append]
    rw [value?_openArray, value?_lexemes, others, List.nil_append]
  | .object [] => by simp [Value.lexemes, fieldLexemes, value?]
  | .object ((key, v) :: fields) => by
    have others := behind?_fields fields [] key v stack rest
    simp only [Value.lexemes, fieldLexemes, intercalate_singleton_cons, List.cons_append,
      List.append_assoc, List.nil_append]
    rw [value?, value?_lexemes, others, List.nil_append]

theorem behind?_items :
    ∀ (vs items : List Value) (v : Value) (stack : List Pending) (rest : List Lexeme),
      behind? v (.array items :: stack)
        ((itemLexemes vs).flatMap (.comma :: ·) ++ .closeArray :: rest) =
        behind? (.array (items ++ v :: vs)) stack rest
  | [], items, v, stack, rest => by simp [itemLexemes, behind?]
  | w :: vs, items, v, stack, rest => by
    -- the value in hand joins the open array before the next one is read
    have others := behind?_items vs (items ++ [v]) w stack rest
    simp only [itemLexemes, List.flatMap_cons, List.cons_append, List.append_assoc]
    rw [behind?, value?_lexemes, others, List.append_assoc, List.singleton_append]

theorem behind?_fields :
    ∀ (more fields : List (String × Value)) (key : String) (v : Value) (stack : List Pending)
      (rest : List Lexeme),
      behind? v (.object fields key :: stack)
        ((fieldLexemes more).flatMap (.comma :: ·) ++ .closeObject :: rest) =
        behind? (.object (fields ++ (key, v) :: more)) stack rest
  | [], fields, key, v, stack, rest => by simp [fieldLexemes, behind?]
  | (next, w) :: more, fields, key, v, stack, rest => by
    have others := behind?_fields more (fields ++ [(key, v)]) next w stack rest
    simp only [fieldLexemes, List.flatMap_cons, List.cons_append, List.append_assoc]
    rw [behind?, value?_lexemes, others, List.append_assoc, List.singleton_append]

end

theorem parse?_render (v : Value) : parse? v.render = some v := by
  have cut := lexes_chars 0 v [] Decimal.endsNumeral_nil
  have read := value?_lexemes [] [] v
  have none : lexemes? [] = some [] := by rw [lexemes?]
  simp only [List.append_nil] at cut read
  rw [parse?, toList_render, cut, none, Option.map_some, Option.bind_some, List.append_nil, read,
    behind?]

end TokenListing.Json
