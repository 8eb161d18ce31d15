import TokenListing.Listing
import TokenListing.Proofs.Json.RoundTrip
import TokenListing.Proofs.Token.Display
import TokenListing.Proofs.Tokenizer.Spelling

set_option autoImplicit false

/-!
Listings read back. Rows are read from the lines of a text listing and from the objects of a JSON
listing. Either listing gives its rows back, so that rows are told apart by it; the text listing does
so as long as no word breaks its line, and no word of a source does.
-/

namespace TokenListing

open Grammar Text

theorem mapM_of_forall₂ {α β : Type} {f : β → Option α} {xs : List α} {ys : List β}
    (h : List.Forall₂ (fun x y => f y = some x) xs ys) : ys.mapM f = some xs := by
  induction h with
  | nil => rfl
  | cons first _ ih => simp [first, ih]

theorem newline_notMem_char (c : Char) : '\n' ∉ symbolEscaping.char c := by
  unfold Escaping.char
  cases short : symbolEscaping.short c with
  | some letter =>
    have noBreak : '\n' ≠ letter := by
      rintro rfl
      have undone := (symbolUnescaping_undoes.short short).2
      cases undone
    simpa using noBreak
  | none =>
    cases code : symbolEscaping.code c with
    | some digits =>
      have noBreak : '\n' ∉ Nat.toDigits 16 c.toNat := Hexadecimal.notMem_toDigits rfl _
      simpa [eq_of_code_symbolEscaping code] using noBreak
    | none =>
      have noBreak : '\n' ≠ c := by
        rintro rfl
        cases short
      simpa using noBreak

theorem eq_of_reads_back {α β : Type} {write : α → β} {read : β → Option α} {x y : α}
    (hx : read (write x) = some x) (hy : read (write y) = some y) (same : write x = write y) :
    x = y := by
  rw [same, hy] at hx
  exact (Option.some.inj hx).symm

namespace Token

theorem mem_word?_iff {t : Token Word} {w : Word} : w ∈ t.word? ↔ t = .word w := by
  cases t <;> simp [word?]

end Token

namespace Row

/-- No word of the row breaks its line. -/
def FitsLine (r : Row Word) : Prop := ∀ w ∈ r.token.word?, '\n' ∉ w.lexeme.toList

instance : DecidablePred FitsLine := fun r =>
  inferInstanceAs (Decidable (∀ w ∈ r.token.word?, '\n' ∉ w.lexeme.toList))

def ofLine? (line : List Char) : Option (Row Word) :=
  (atFirst? '\t' line).bind fun (numeral, shown) =>
    (complete? (Decimal.natural? numeral)).bind fun number =>
      (unsigned? number).bind fun line => (Token.ofDisplay? shown).map fun token => ⟨line, token⟩

/-- A line of a text listing, without the line feed that ends it. -/
def shown (r : Row Word) : List Char :=
  Decimal.ofNat r.line.toNat ++ '\t' :: r.token.display.toList

theorem toList_text (r : Row Word) : r.text.toList = r.shown ++ ['\n'] := by
  simp [text, shown]

theorem atFirst?_shown (r : Row Word) :
    atFirst? '\t' r.shown = some (Decimal.ofNat r.line.toNat, r.token.display.toList) :=
  atFirst?_append (Decimal.notMem_ofNat rfl _) _

theorem ofLine?_shown (r : Row Word) : ofLine? r.shown = some r := by
  have number := Decimal.natural?_append r.line.toNat Decimal.endsNumeral_nil
  rw [List.append_nil] at number
  simp [ofLine?, atFirst?_shown, number, complete?, -Token.toList_display]

theorem newline_notMem_shown {r : Row Word} (fits : r.FitsLine) : '\n' ∉ r.shown := by
  have numeral : ∀ n, '\n' ∉ Decimal.ofNat n := Decimal.notMem_ofNat rfl
  have name : '\n' ∉ r.token.tag.name.toList := Tag.notMem_name rfl _
  have body : '\n' ∉ r.token.displayBody := by
    cases token : r.token with
    | symbol c => simpa [Token.displayBody] using newline_notMem_char c
    | integer n =>
      rw [Token.displayBody]
      cases n.toInt with
      | ofNat n => exact numeral n
      | negSucc n => simpa [Decimal.ofInt] using numeral (n + 1)
    | word w => exact fits w (Token.mem_word?_iff.mpr token)
  simp [shown, numeral, name, body]

end Row

namespace Listing

theorem toList_text (rows : List (Row Word)) :
    (text rows).toList = rows.flatMap fun r => r.shown ++ ['\n'] := by
  simp only [text, String.toList_join, List.flatMap_map, Row.toList_text]

def ofText? (listing : String) : Option (List (Row Word)) :=
  let lines := pieces '\n' listing.toList
  if lines.getLast? = some [] then lines.dropLast.mapM Row.ofLine? else none

theorem pieces_text {rows : List (Row Word)} (fits : ∀ r ∈ rows, r.FitsLine) :
    pieces '\n' (text rows).toList = rows.map Row.shown ++ [[]] := by
  rw [toList_text]
  exact pieces_flatMap fun r hr => Row.newline_notMem_shown (fits r hr)

theorem ofText?_text {rows : List (Row Word)} (fits : ∀ r ∈ rows, r.FitsLine) :
    ofText? (text rows) = some rows := by
  have lines : (rows.map Row.shown).mapM Row.ofLine? = some rows :=
    mapM_of_forall₂ (List.forall₂_map_right_iff.mpr
      (List.forall₂_same.mpr fun r _ => r.ofLine?_shown))
  simp [ofText?, pieces_text fits, lines]

end Listing

/-- The words of a source are spelled with letters and digits. -/
theorem fitsLine_of_rows {source : String} {listed : List (Row Entry)} (h : rows source = .ok listed)
    {r : Row Entry} (hr : r ∈ listed) : r.plain.FitsLine := by
  intro w word newline
  have found : tokens source = .ok (listed.map Row.token) := by
    rw [tokens_eq_rows, h]
    rfl
  have wellFormed := isWellFormed_of_tokens found (List.mem_map_of_mem hr)
  have plain : r.token.plain = .word w := Token.mem_word?_iff.mp word
  have noLetter : isLetter '\n' = false := isLetter_eq_false_of_isBlank rfl
  rw [plain, Token.isWellFormed] at wellFormed
  cases spelled : w.lexeme.toList with
  | nil => simp [spelled] at newline
  | cons c more =>
    simp only [spelled, List.mem_cons] at newline wellFormed
    simp only [Bool.and_eq_true, List.all_eq_true] at wellFormed
    rcases newline with rfl | later
    · simp [noLetter] at wellFormed
    · have continues := wellFormed.2.2 '\n' later
      simp [continuesWord, noLetter] at continues

/-- A text listing is cut into the lines of its rows, and gives the rows back. -/
theorem text_listing_reads_back {listed : List (Row Word)} (fits : ∀ r ∈ listed, r.FitsLine) :
    (Listing.text listed).toList.count '\n' = listed.length ∧
      (∃ lines, pieces '\n' (Listing.text listed).toList = lines ++ [[]] ∧
        lines.map (atFirst? '\t') =
          listed.map fun r => some (Decimal.ofNat r.line.toNat, r.token.display.toList)) ∧
      (∀ t : Token Word, Token.ofDisplay? t.display.toList = some t) ∧
      Listing.ofText? (Listing.text listed) = some listed ∧
      (∀ others : List (Row Word), (∀ r ∈ others, r.FitsLine) →
        (Listing.text others = Listing.text listed ↔ others = listed)) ∧
      ∀ source found, rows source = .ok found → ∀ r ∈ found.map Row.plain, r.FitsLine := by
  have lines := Listing.pieces_text fits
  refine ⟨?_, ⟨_, lines, ?_⟩, Token.ofDisplay?_display, Listing.ofText?_text fits, ?_, ?_⟩
  · have count := length_pieces '\n' (Listing.text listed).toList
    rw [lines] at count
    simpa using count.symm
  · simp [Row.atFirst?_shown, -Token.toList_display]
  · intro others othersFit
    have back := Listing.ofText?_text othersFit
    exact ⟨eq_of_reads_back back (Listing.ofText?_text fits), fun same => same ▸ rfl⟩
  · intro source found h r hr
    obtain ⟨entry, given, rfl⟩ := List.mem_map.mp hr
    exact fitsLine_of_rows h given

/-- A line feed, an escape by number, a negative integer and a word with blanks and an apostrophe. -/
theorem text_listing_reads_back_controls :
    ∃ listed : List (Row Word),
      listed = [⟨1, .symbol '\n'⟩, ⟨4294967295, .symbol '\x7f'⟩, ⟨2, .integer (-7)⟩,
        ⟨3, .word ⟨.trueWord, "a\t'b "⟩⟩] ∧
      (∀ r ∈ listed, r.FitsLine) ∧
      Listing.ofText?
        "1\tSYMBOL '\\n'\n4294967295\tSYMBOL '\\u\x7b7f\x7d'\n2\tINTEGER -7\n3\tTRUE a\t'b \n" =
        some listed := by
  refine ⟨_, rfl, by decide, ?_⟩
  have written : Listing.text [⟨1, .symbol '\n'⟩, ⟨4294967295, .symbol '\x7f'⟩, ⟨2, .integer (-7)⟩,
      ⟨3, .word ⟨.trueWord, "a\t'b "⟩⟩] =
      "1\tSYMBOL '\\n'\n4294967295\tSYMBOL '\\u\x7b7f\x7d'\n2\tINTEGER -7\n3\tTRUE a\t'b \n" := by
    decide +kernel
  rw [← written]
  exact (text_listing_reads_back (by decide)).2.2.2.1

/-! JSON listings. -/

namespace Json.Value

def field? : Value → String → Option Value
  | .object fields, key => fields.lookup key
  | _, _ => none

def keys : Value → List String
  | .object fields => fields.map Prod.fst
  | _ => []

def number? : Value → Option Int
  | .number n => some n
  | _ => none

def string? : Value → Option String
  | .string s => some s
  | _ => none

def char? : Value → Option Char
  | .string s =>
    match s.toList with
    | [c] => some c
    | _ => none
  | _ => none

end Json.Value

namespace Row

/-- The key under which an object says what a token holds. -/
def payloadKey (r : Row Word) : String :=
  match r.token with
  | .symbol _ => "symbol"
  | .integer _ => "value"
  | .word _ => "lexeme"

/-- An object that says the row and has no other keys. -/
structure SaidBy (r : Row Word) (v : Json.Value) : Prop where
  keys : v.keys = ["line", "kind", r.payloadKey]
  line : v.field? "line" = some (.number r.line.toNat)
  kind : v.field? "kind" = some (.string r.token.tag.name)
  payload : v.field? r.payloadKey =
    match r.token with
    | .symbol c => some (.string (String.singleton c))
    | .integer n => some (.number n.toInt)
    | .word w => some (.string w.lexeme)

theorem saidBy_json (r : Row Word) : r.SaidBy r.json := by
  obtain ⟨line, token⟩ := r
  cases token <;> exact ⟨rfl, rfl, rfl, rfl⟩

def ofJson? (v : Json.Value) : Option (Row Word) :=
  ((v.field? "line").bind Json.Value.number?).bind fun number =>
    ((v.field? "kind").bind Json.Value.string?).bind fun kind =>
      (unsigned? number).bind fun line =>
        (Token.ofParts? kind ((v.field? "symbol").bind Json.Value.char?)
          ((v.field? "value").bind Json.Value.number?)
          ((v.field? "lexeme").bind Json.Value.string?)).map fun token => ⟨line, token⟩

theorem SaidBy.ofJson? {r : Row Word} {v : Json.Value} (said : r.SaidBy v) : ofJson? v = some r := by
  obtain ⟨line, token⟩ := r
  have payload := said.payload
  have parts : Token.ofParts? token.tag.name ((v.field? "symbol").bind Json.Value.char?)
      ((v.field? "value").bind Json.Value.number?) ((v.field? "lexeme").bind Json.Value.string?) =
      some token := by
    refine Token.ofParts?_name ?_ ?_ ?_
    · rintro c rfl
      rw [payloadKey] at payload
      simp [payload, Json.Value.char?]
    · rintro n rfl
      rw [payloadKey] at payload
      simp [payload, Json.Value.number?]
    · rintro w rfl
      rw [payloadKey] at payload
      simp [payload, Json.Value.string?]
  simp [Row.ofJson?, said.line, said.kind, Json.Value.number?, Json.Value.string?, parts]

end Row

namespace Listing

def ofJson? (listing : String) : Option (List (Row Word)) :=
  match Json.parse? listing with
  | some (.array objects) => objects.mapM Row.ofJson?
  | _ => none

theorem parse?_json (rows : List (Row Word)) :
    Json.parse? (json rows) = some (.array (rows.map Row.json)) :=
  Json.parse?_render _

theorem forall₂_saidBy (rows : List (Row Word)) : List.Forall₂ Row.SaidBy rows (rows.map Row.json) :=
  List.forall₂_map_right_iff.mpr (List.forall₂_same.mpr fun r _ => r.saidBy_json)

theorem ofJson?_json (rows : List (Row Word)) : ofJson? (json rows) = some rows := by
  rw [ofJson?, parse?_json]
  exact mapM_of_forall₂ ((forall₂_saidBy rows).imp fun _ _ said => said.ofJson?)

end Listing

/-- A JSON listing is an array with an object for each row, and gives the rows back. -/
theorem json_listing_reads_back (listed : List (Row Word)) :
    (∃ objects, Json.parse? (Listing.json listed) = some (.array objects) ∧
      List.Forall₂ Row.SaidBy listed objects) ∧
      Listing.ofJson? (Listing.json listed) = some listed ∧
      ∀ others, Listing.json others = Listing.json listed ↔ others = listed := by
  refine ⟨⟨_, Listing.parse?_json listed, Listing.forall₂_saidBy listed⟩,
    Listing.ofJson?_json listed, fun others => ?_⟩
  have back := Listing.ofJson?_json others
  exact ⟨eq_of_reads_back back (Listing.ofJson?_json listed), fun same => same ▸ rfl⟩

end TokenListing
