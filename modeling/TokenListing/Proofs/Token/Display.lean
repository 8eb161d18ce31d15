import TokenListing.Proofs.Session.Words
import TokenListing.Proofs.Text.Numerals
import TokenListing.Proofs.Text.Unescaping

set_option autoImplicit false

/-!
Tokens on display. The category stands in front and tells how the rest is to be read, so that a token
is read back from the text that shows it. Tokens are therefore shown alike only if they are equal, and
those that share an entry are.
-/

namespace TokenListing

open Text

/-- What has been read, if nothing is left. -/
def complete? {α : Type} : Option (α × List Char) → Option α
  | some (x, []) => some x
  | _ => none

namespace WordKind

def ofName? (name : String) : Option WordKind :=
  [trueWord, falseWord, identifier].find? (·.name = name)

@[simp] theorem ofName?_name (kind : WordKind) : ofName? kind.name = some kind := by
  cases kind <;> decide

end WordKind

/-- The escapes of a symbol on display. A code has any number of digits, between braces. -/
def symbolUnescaping : Unescaping where
  mark := '\''
  short
    | '0' => some '\x00'
    | 't' => some '\t'
    | 'r' => some '\r'
    | 'n' => some '\n'
    | '\\' => some '\\'
    | '\'' => some '\''
    | '"' => some '"'
    | _ => none
  code
    | '{' :: cs =>
      (atFirst? '}' cs).bind fun (digits, rest) =>
        ((Hexadecimal.value? digits).bind scalar?).map (·, rest)
    | _ => none
  isPlain _ := true
  length_code := by
    intro cs c rest h
    split at h
    · obtain ⟨⟨digits, rest⟩, found, h⟩ := Option.bind_eq_some_iff.mp h
      obtain rfl := rest_eq_of_map h
      exact Nat.le_of_lt (Nat.lt_succ_of_lt (length_atFirst?_lt found))
    · cases h

theorem eq_of_code_symbolEscaping {c : Char} {digits : List Char}
    (h : symbolEscaping.code c = some digits) :
    digits = '{' :: (Nat.toDigits 16 c.toNat ++ ['}']) := by
  obtain ⟨-, same⟩ : Unicode.isUnprintable c = true ∧
      '{' :: (Nat.toDigits 16 c.toNat ++ ['}']) = digits := by
    simpa [symbolEscaping, displayed] using h
  exact same.symm

theorem symbolUnescaping_undoes : symbolUnescaping.Undoes symbolEscaping where
  mark_ne := by decide
  short {c letter} h := by
    simp only [symbolEscaping, displayed] at h
    split at h
    case h_6 =>
      split at h
      · rename_i mark
        cases h
        obtain rfl | rfl : c = '\'' ∨ c = '"' := by simpa using mark
        · exact ⟨by decide, rfl⟩
        · exact ⟨by decide, rfl⟩
      · cases h
    all_goals cases h
    all_goals exact ⟨by decide, rfl⟩
  code {c digits} _ h rest := by
    have found := atFirst?_append (Hexadecimal.notMem_toDigits (c := '}') rfl c.toNat) rest
    simp [eq_of_code_symbolEscaping h, symbolUnescaping, found]
  isPlain {c} short code := by
    refine ⟨?_, ?_, rfl⟩
    · rintro rfl
      cases short
    · rintro rfl
      cases short

theorem Tag.notMem_name {c : Char} (h : c.isUpper = false) (t : Tag) : c ∉ t.name.toList := by
  have upper : t.name.toList.all Char.isUpper = true := by
    cases t with
    | symbol c => simp [name]
    | integer => simp [name]
    | word kind => cases kind <;> simp [name, WordKind.name]
  intro member
  rw [List.all_eq_true.mp upper c member] at h
  cases h

namespace Token

/-- The token of a category that is given by name, from what could be read of it. -/
def ofParts? (name : String) (char : Option Char) (number : Option Int) (lexeme : Option String) :
    Option (Token Word) :=
  if name = "SYMBOL" then char.map .symbol
  else if name = "INTEGER" then (number.bind signed?).map .integer
  else (WordKind.ofName? name).bind fun kind => lexeme.map fun lexeme => .word ⟨kind, lexeme⟩

theorem ofParts?_name {t : Token Word} {char : Option Char} {number : Option Int}
    {lexeme : Option String} (symbol : ∀ c, t = .symbol c → char = some c)
    (integer : ∀ n, t = .integer n → number = some n.toInt)
    (word : ∀ w, t = .word w → lexeme = some w.lexeme) :
    ofParts? t.tag.name char number lexeme = some t := by
  cases t with
  | symbol c => simp [ofParts?, tag, Tag.name, symbol c rfl]
  | integer n => simp [ofParts?, tag, Tag.name, integer n rfl]
  | word w =>
    have apart : w.kind.name ≠ "SYMBOL" ∧ w.kind.name ≠ "INTEGER" := by
      cases w.kind <;> decide
    simp [ofParts?, tag, Tag.name, apart, word w rfl]

def charOf? : List Char → Option Char
  | '\'' :: cs =>
    match complete? (symbolUnescaping.text? cs) with
    | some [c] => some c
    | _ => none
  | _ => none

def ofDisplay? (shown : List Char) : Option (Token Word) :=
  (atFirst? ' ' shown).bind fun (name, body) =>
    ofParts? (String.ofList name) (charOf? body) (complete? (Decimal.integer? body))
      (some (String.ofList body))

@[simp] theorem ofDisplay?_display (t : Token Word) : ofDisplay? t.display.toList = some t := by
  have oneName : ' ' ∉ t.tag.name.toList := Tag.notMem_name rfl _
  rw [toList_display, ofDisplay?, atFirst?_append oneName, Option.bind_some]
  simp only [String.ofList_toList]
  -- only the part that the category asks for has to be read
  refine ofParts?_name ?_ ?_ ?_
  · rintro c rfl
    have text := symbolUnescaping_undoes.text?_text [c] []
    have mark : symbolUnescaping.mark = '\'' := rfl
    simp only [Escaping.text_cons, Escaping.text_nil, List.append_nil, mark] at text
    simp [displayBody, charOf?, text, complete?]
  · rintro n rfl
    have number := Decimal.integer?_append n.toInt Decimal.endsNumeral_nil
    rw [List.append_nil] at number
    rw [displayBody, number, complete?]
  · rintro w rfl
    rw [displayBody, String.ofList_toList]

theorem display_inj {t u : Token Word} : t.display = u.display ↔ t = u := by
  refine ⟨fun same => ?_, congrArg Token.display⟩
  have read := ofDisplay?_display t
  rw [same, ofDisplay?_display u] at read
  exact (Option.some.inj read).symm

/-- The token whose word is the one that is kept under an identity. -/
def resolve (kept : EntryId → Word) (t : Token EntryId) : Token Entry :=
  t.map fun id => ⟨kept id, id⟩

theorem plain_eq_of_sharesEntry {kept : EntryId → Word} {t u : Token EntryId}
    (shares : (t.resolve kept).sharesEntry (u.resolve kept) = true) :
    (t.resolve kept).plain = (u.resolve kept).plain := by
  cases t with
  | word a =>
    cases u with
    | word b =>
      obtain rfl : a = b := by simpa [resolve, sharesEntry] using shares
      rfl
    | _ => cases shares
  | _ => cases shares

/-- Tokens are shown alike where they are equal and nowhere else, and so are the characters in them.
Tokens that share an entry are equal: however they come by the words that are kept for them, and all
the more where tokenizers give them. -/
theorem display_faithful :
    (∀ t u : Token Word, t.display = u.display ↔ t = u) ∧
      (∀ t u : Token Word, t.tag ≠ u.tag → t.display ≠ u.display) ∧
      (∀ c d : Char, symbolEscaping.char c = symbolEscaping.char d ↔ c = d) ∧
      (∀ (kept : EntryId → Word) (t u : Token EntryId),
        (t.resolve kept).sharesEntry (u.resolve kept) = true →
          (t.resolve kept).plain.display = (u.resolve kept).plain.display) ∧
      ∀ (sources : List String) (calls : List Call),
        ∀ t ∈ (History.ofCalls sources calls).session.tokens,
          ∀ u ∈ (History.ofCalls sources calls).session.tokens,
            t.sharesEntry u = true → t.plain.display = u.plain.display := by
  refine ⟨fun _ _ => display_inj, fun t u apart same => apart ?_, fun _ _ => ?_,
    fun _ _ _ shares => ?_, fun sources calls t ht u hu shares => ?_⟩
  · rw [display_inj.mp same]
  · exact symbolUnescaping_undoes.char_inj
  · rw [plain_eq_of_sharesEntry shares]
  · rw [(History.sound_ofCalls sources calls).eq_of_sharesEntry ht hu shares]

end Token

end TokenListing
