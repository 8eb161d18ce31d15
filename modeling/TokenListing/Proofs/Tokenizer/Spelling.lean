import TokenListing.Proofs.Tokenizer.Iteration
import TokenListing.Proofs.Tokenizer.Rows

set_option autoImplicit false

/-!
Spelling tokens and finding them again. The tokens of a text are well formed, and well-formed tokens
that are spelled with blanks between them are the tokens of what is written.
-/

namespace TokenListing

open Grammar Text

namespace Token

/-- What is spelled as a single token. -/
def isWellFormed : Token Word → Bool
  | .symbol c => !isLetter c && !c.isDigit && !isBlank c
  | .integer n => 0 ≤ n
  | .word w =>
    w.kind == .ofLexeme w.lexeme &&
      match w.lexeme.toList with
      | [] => false
      | c :: more => isLetter c && more.all continuesWord

def spelling : Token Word → List Char
  | .symbol c => [c]
  | .integer n => Decimal.ofInt n.toInt
  | .word w => w.lexeme.toList

/-- Tokens spelled one behind the other, with `gap n` between the one at place `n` and the next. -/
def write (gap : Nat → List Char) : List (Token Word) → List Char
  | [] => []
  | [t] => t.spelling
  | t :: u :: more => t.spelling ++ (gap 0 ++ write (gap ∘ Nat.succ) (u :: more))

def Separates (gap : Nat → List Char) : Prop := ∀ n, gap n ≠ [] ∧ ∀ c ∈ gap n, isBlank c = true

def kind : Token Word → Kind
  | .symbol _ => .symbol
  | .integer _ => .integer
  | .word _ => .word

def segment (t : Token Word) : Segment := ⟨t.kind, t.spelling⟩

theorem zero_le_ofNat {n : Nat} (fits : n ≤ maxInteger) : 0 ≤ Int32.ofNat n := by
  rw [Int32.le_iff_toInt_le, toInt_ofNat_of_le fits]
  exact Int.natCast_nonneg n

theorem exists_eq_ofNat {n : Int32} (h : 0 ≤ n) : ∃ k ≤ maxInteger, n = Int32.ofNat k := by
  obtain ⟨k, hk⟩ := Int.eq_ofNat_of_zero_le (Int32.le_iff_toInt_le.mp h)
  have bound := n.toInt_lt
  have fits : k ≤ maxInteger := by
    unfold maxInteger
    omega
  exact ⟨k, fits, Int32.toInt.inj (hk.trans (toInt_ofNat_of_le fits).symm)⟩

theorem spelling_ofNat {n : Nat} (fits : n ≤ maxInteger) :
    (integer (Int32.ofNat n)).spelling = Decimal.ofNat n := by
  rw [spelling, toInt_ofNat_of_le fits]
  rfl

/-- A well-formed token is spelled by a segment that is cut off in front of a blank. -/
theorem rule_segment {t : Token Word} (wellFormed : t.isWellFormed = true) {rest : List Char}
    (ends : ∀ c ∈ rest.head?, isBlank c = true) : Rule t.segment.kind t.segment.text rest := by
  cases t with
  | symbol c =>
    obtain ⟨⟨noLetter, noDigit⟩, noBlank⟩ :
        (isLetter c = false ∧ c.isDigit = false) ∧ isBlank c = false := by
      simpa [isWellFormed] using wellFormed
    refine .symbol noBlank noDigit noLetter fun _ => ⟨?_, ?_⟩
    · exact fun slash => absurd (ends '/' slash) (by decide)
    · exact fun star => absurd (ends '*' star) (by decide)
  | integer n =>
    obtain ⟨k, fits, rfl⟩ := exists_eq_ofNat (by simpa [isWellFormed] using wellFormed)
    rw [segment, spelling_ofNat fits]
    exact .integer (Decimal.ofNat_ne_nil k) (fun c hc => Decimal.isDigit_of_mem_ofNat hc)
      fun c hc => isDigit_eq_false_of_isBlank (ends c hc)
  | word w =>
    obtain ⟨_, shape⟩ := Bool.and_eq_true_iff.mp wellFormed
    split at shape
    · cases shape
    · next c more text =>
      obtain ⟨letter, all⟩ := Bool.and_eq_true_iff.mp shape
      have rule : Rule .word (c :: more) rest := by
        refine .word letter (List.all_eq_true.mp all) fun d hd => ?_
        simp [continuesWord, isLetter_eq_false_of_isBlank (ends d hd),
          isDigit_eq_false_of_isBlank (ends d hd)]
      rwa [← text] at rule

theorem token?_segment {t : Token Word} (wellFormed : t.isWellFormed = true) :
    t.segment.token? = some t ∧ t.segment.isTooLarge = false := by
  cases t with
  | symbol c => exact ⟨rfl, rfl⟩
  | integer n =>
    obtain ⟨k, fits, rfl⟩ := exists_eq_ofNat (by simpa [isWellFormed] using wellFormed)
    rw [segment, spelling_ofNat fits]
    simp [kind, Segment.token?, Segment.isTooLarge, fits]
  | word w =>
    obtain ⟨kindOf, _⟩ := Bool.and_eq_true_iff.mp wellFormed
    obtain ⟨k, lexeme⟩ := w
    obtain rfl : k = .ofLexeme lexeme := eq_of_beq kindOf
    refine ⟨?_, rfl⟩
    simp [segment, kind, spelling, Segment.token?, Word.ofLexeme]

theorem isWellFormed_of_outcomeOn? {s : Segment} {rest front : List Char} {line : UInt32}
    {t : Token Word} (rule : Rule s.kind s.text rest)
    (outcome : s.outcomeOn? line front = some (.ok t)) : t.isWellFormed = true := by
  obtain ⟨token, spelled, same⟩ := Option.map_eq_some_iff.mp outcome
  split at same
  · cases same
  · next fits =>
    obtain rfl : token = t := Except.ok.inj same
    obtain ⟨kind, text⟩ := s
    dsimp only at rule
    cases rule with
    | integer nonempty all maximal =>
      obtain rfl := Option.some.inj spelled
      have small : Decimal.value text ≤ maxInteger := by
        simpa [Segment.isTooLarge] using fits
      simpa [isWellFormed] using zero_le_ofNat small
    | word letter all maximal =>
      obtain rfl := Option.some.inj spelled
      simpa [isWellFormed, letter] using all
    | symbol noBlank noDigit noLetter noComment =>
      obtain rfl := Option.some.inj spelled
      simp [isWellFormed, noBlank, noDigit, noLetter]
    | _ => simp [Segment.token?] at spelled

end Token

namespace Grammar

/-- The tokens that segments spell, by value. -/
def spelled (l : List Segment) : List (Token Word) := l.filterMap Segment.token?

def blanks (gap : List Char) : List Segment := gap.map fun c => ⟨.blank, [c]⟩

theorem spelled_blanks (gap : List Char) : spelled (blanks gap) = [] := by
  simp [spelled, blanks, Segment.token?]

theorem cuts_blanks {gap text : List Char} {l : List Segment} (blank : ∀ c ∈ gap, isBlank c = true)
    (behind : Cuts text l) : Cuts (gap ++ text) (blanks gap ++ l) := by
  induction gap with
  | nil => exact behind
  | cons c gap ih =>
    obtain ⟨here, later⟩ := List.forall_mem_cons.mp blank
    exact .cons (s := ⟨.blank, [c]⟩) (.blank here) (ih later)

/-- What is written is cut into the tokens and the blanks between them. -/
theorem exists_cuts_write {gap : Nat → List Char} {ts : List (Token Word)} (blank : Token.Separates gap)
    (wellFormed : ∀ t ∈ ts, t.isWellFormed = true) :
    ∃ l, Cuts (Token.write gap ts) l ∧ spelled l = ts ∧ ∀ s ∈ l, s.isTooLarge = false := by
  fun_induction Token.write gap ts with
  | case1 gap => exact ⟨[], .nil, rfl, by simp⟩
  | case2 gap t =>
    have here := wellFormed t List.mem_cons_self
    obtain ⟨token, fits⟩ := Token.token?_segment here
    have cuts : Cuts (t.spelling ++ []) [t.segment] := .cons (Token.rule_segment here (by simp)) .nil
    refine ⟨[t.segment], by rwa [List.append_nil] at cuts, by simp [spelled, token], ?_⟩
    simpa using fits
  | case3 gap t u more ih =>
    obtain ⟨here, later⟩ := List.forall_mem_cons.mp wellFormed
    obtain ⟨l, behind, tokens, small⟩ := ih (fun n => blank (n + 1)) later
    obtain ⟨token, fits⟩ := Token.token?_segment here
    obtain ⟨nonempty, all⟩ := blank 0
    -- The gap is not empty, so that the rule of `t` looks at a blank and never at `u`.
    have ends : ∀ c ∈ (gap 0 ++ Token.write (gap ∘ Nat.succ) (u :: more)).head?, isBlank c = true := by
      obtain ⟨c, rest, first⟩ := List.exists_cons_of_ne_nil nonempty
      rw [first] at all ⊢
      simpa using all c List.mem_cons_self
    refine ⟨t.segment :: (blanks (gap 0) ++ l), ?_, ?_, ?_⟩
    · exact .cons (Token.rule_segment here ends) (cuts_blanks all behind)
    · have none := spelled_blanks (gap 0)
      unfold spelled at tokens none ⊢
      simp [token, none, tokens]
    · refine List.forall_mem_cons.mpr ⟨fits, fun s hs => ?_⟩
      rcases List.mem_append.mp hs with hs | hs
      · obtain ⟨c, _, rfl⟩ := List.mem_map.mp hs
        rfl
      · exact small s hs

end Grammar

/-- The tokens of a text by value. -/
theorem plain_tokens (source : String) :
    (tokens source).map (List.map Token.plain) =
      (listing (placed [] (segments source.toList))).map (List.map Row.token) := by
  rw [tokens_eq_rows, ← plain_rows]
  cases rows source with
  | error fault => rfl
  | ok listed => simp [Except.map, Row.plain, Function.comp_def]

theorem plain_tokens_of_fits {source : String}
    (fits : ∀ s ∈ segments source.toList, s.isTooLarge = false) :
    (tokens source).map (List.map Token.plain) = .ok (spelled (segments source.toList)) := by
  rw [plain_tokens, listing_of_fits fun p hp => fits p.segment (mem_of_mem_placed hp)]
  have same : spelled (segments source.toList) =
      (placed [] (segments source.toList)).filterMap (·.segment.token?) := by
    conv_lhs => rw [← map_segment_placed [] (segments source.toList)]
    rw [spelled, List.filterMap_map]
    rfl
  rw [same]
  simp [Except.map, List.map_filterMap, Function.comp_def]

theorem isWellFormed_of_tokens {source : String} {found : List (Token Entry)}
    (h : tokens source = .ok found) {t : Token Entry} (ht : t ∈ found) :
    t.plain.isWellFormed = true := by
  have plain := plain_tokens source
  rw [h] at plain
  obtain ⟨listed, rows, same⟩ := map_eq_ok_iff.mp plain.symm
  have member : t.plain ∈ listed.map Row.token := same ▸ List.mem_map_of_mem ht
  obtain ⟨r, hr, token⟩ := List.mem_map.mp member
  obtain ⟨p, hp, outcome, _⟩ := exists_of_listing_ok rows hr
  obtain ⟨before, more, split, _⟩ := mem_placed_iff.mp hp
  rw [← token]
  exact Token.isWellFormed_of_outcomeOn? (cuts_of_segments_eq split).of_append.cons_inv.1 outcome

/-- Tokens that are written out are found again, and nothing is found that could not be written out. -/
theorem tokens_invert_spelling :
    (∀ gap ts, Token.Separates gap → (∀ t ∈ ts, t.isWellFormed = true) →
        ∃ found, tokens (String.ofList (Token.write gap ts)) = .ok found ∧
          found.map Token.plain = ts) ∧
      ∀ source found, tokens source = .ok found → ∀ t ∈ found, t.plain.isWellFormed = true := by
  refine ⟨fun gap ts blank wellFormed => ?_, fun source found h t ht => isWellFormed_of_tokens h ht⟩
  obtain ⟨l, cuts, same, fits⟩ := exists_cuts_write blank wellFormed
  rw [← cuts.segments_eq, ← String.toList_ofList (l := Token.write gap ts)] at same fits
  have plain := plain_tokens_of_fits fits
  rw [same] at plain
  exact map_eq_ok_iff.mp plain

/-- A slash in front of a star and an integer in front of a word. -/
theorem tokens_invert_spelling_slash :
    ∃ found, tokens "/ *\t\n7\t\nx7" = .ok found ∧
      found.map Token.plain =
        [.symbol '/', .symbol '*', .integer 7, .word ⟨.identifier, "x7"⟩] := by
  have blank : Token.Separates fun n => if n = 0 then [' '] else ['\t', '\n'] := by
    intro n
    dsimp only
    split <;> simp [isBlank]
  have text : String.ofList (Token.write (fun n => if n = 0 then [' '] else ['\t', '\n'])
      [.symbol '/', .symbol '*', .integer 7, .word ⟨.identifier, "x7"⟩]) = "/ *\t\n7\t\nx7" := by
    decide +kernel
  rw [← text]
  exact tokens_invert_spelling.1 _ _ blank (by decide +kernel)

end TokenListing
