import TokenListing.Proofs.Reader.Gap
import TokenListing.Proofs.Vocabulary
import TokenListing.Tokenizer.Run

set_option autoImplicit false

/-!
Steps and the grammar. Where its reader stands decides what a tokenizer's step comes to: it goes over
the segments that spell no token to the next one that does, and stands behind it afterwards.
-/

namespace TokenListing

open Grammar Text Trace

theorem map_eq_ok_iff {ε α β : Type} {x : Except ε α} {f : α → β} {b : β} :
    x.map f = .ok b ↔ ∃ a, x = .ok a ∧ f a = b := by
  cases x <;> simp [Except.map]

theorem map_eq_error_iff {ε α β : Type} {x : Except ε α} {f : α → β} {e : ε} :
    x.map f = .error e ↔ x = .error e := by
  cases x <;> simp [Except.map]

/-- The outcome by value. -/
def Step.value (s : Step) : Except Fault (Token Word) := s.outcome.map Token.plain

def Step.behind (s : Step) (events : List Event) : Step := { s with events := events ++ s.events }

/-- What a step comes to that comes to a segment on a line. -/
def Grammar.Segment.outcomeOn? (line : UInt32) (front : List Char) (s : Segment) :
    Option (Except Fault (Token Word)) :=
  s.token?.map fun token =>
    if s.isTooLarge then
      .error (.tooLarge (String.ofList s.text) line (byteLength front) .placeholder)
    else .ok token

def Grammar.Placed.outcome? (p : Placed) : Option (Except Fault (Token Word)) :=
  p.segment.outcomeOn? (lineAfter p.front) p.front

theorem Grammar.Segment.outcomeOn?_eq_none {s : Segment} (gap : s.kind.isToken = false) (line : UInt32)
    (front : List Char) : s.outcomeOn? line front = none := by
  obtain ⟨kind, text⟩ := s
  cases kind <;> simp_all [Kind.isToken, Segment.outcomeOn?, Segment.token?]

theorem Grammar.Segment.outcomeOn?_of_token? {s : Segment} {token : Token Word}
    (spelled : s.token? = some token) (fits : s.isTooLarge = false) (line : UInt32)
    (front : List Char) : s.outcomeOn? line front = some (.ok token) := by
  simp [Segment.outcomeOn?, spelled, fits]

theorem Grammar.Segment.isEnd_of_outcomeOn? {s : Segment} {line : UInt32} {front : List Char}
    {fault : Fault} (h : s.outcomeOn? line front = some (.error fault)) : fault.isEnd = false := by
  obtain ⟨token, _, outcome⟩ := Option.map_eq_some_iff.mp h
  split at outcome
  · cases outcome
    rfl
  · cases outcome

namespace Tokenizer

theorem takeInteger_at {t : Tokenizer} {front digits rest : List Char}
    (h : t.reader.Holds front (digits ++ rest)) (rule : Rule .integer digits rest) :
    (Segment.mk .integer digits).outcomeOn? t.startLine front = some t.takeInteger.value ∧
      t.takeInteger.next.reader.At (front ++ digits) rest := by
  cases rule with
  | integer nonempty all maximal =>
    obtain ⟨hrun, hat⟩ := h.takeRun nonempty (takeWhile_exact all maximal)
    have start : t.reader.start = byteLength front := h.start
    by_cases fits : Decimal.value digits ≤ maxInteger
    · have value : integer? (t.reader.takeRun Char.isDigit).1 =
          some (Int32.ofNat (Decimal.value digits)) := by
        rw [hrun, integer?, if_pos fits]
      simp only [takeInteger, value]
      refine ⟨?_, hat⟩
      simp [Segment.outcomeOn?, Segment.token?, Segment.isTooLarge, Nat.not_lt.mpr fits, found,
        Step.value, Except.map, Token.plain]
    · have value : integer? (t.reader.takeRun Char.isDigit).1 = none := by
        rw [hrun, integer?, if_neg fits]
      simp only [takeInteger, value]
      refine ⟨?_, hat⟩
      simp [Segment.outcomeOn?, Segment.token?, Segment.isTooLarge, Nat.not_le.mp fits, Step.value,
        Except.map, hrun, start]

theorem takeWord_at {t : Tokenizer} {front letters rest : List Char} (known : t.vocabulary.WellFormed)
    (h : t.reader.Holds front (letters ++ rest)) (rule : Rule .word letters rest) :
    (Segment.mk .word letters).outcomeOn? t.startLine front = some t.takeWord.value ∧
      t.takeWord.next.reader.At (front ++ letters) rest := by
  cases rule with
  | @word c more _ letter all maximal =>
    have run : ∀ d ∈ c :: more, continuesWord d = true :=
      List.forall_mem_cons.mpr ⟨by simp [continuesWord, letter], all⟩
    obtain ⟨hrun, hat⟩ := h.takeRun (List.cons_ne_nil c more) (takeWhile_exact run maximal)
    refine ⟨?_, hat⟩
    simp [Segment.outcomeOn?, Segment.token?, Segment.isTooLarge, takeWord, found, Step.value,
      Except.map, Token.plain, hrun, known.word_intern]

theorem takeSymbol_at {t : Tokenizer} {front rest : List Char} {c : Char}
    (h : t.reader.Holds front (c :: rest)) :
    (Segment.mk .symbol [c]).outcomeOn? t.startLine front = some t.takeSymbol.value ∧
      t.takeSymbol.next.reader.At (front ++ [c]) rest := by
  refine ⟨?_, .idling h.idles_clear⟩
  simp [Segment.outcomeOn?, Segment.token?, Segment.isTooLarge, takeSymbol, found, Step.value,
    Except.map, Token.plain, h.pending_eq]

/-- The token that is taken is the one that the segment in front spells. -/
theorem takeToken_at {t : Tokenizer} {front rest : List Char} {s : Segment}
    (known : t.vocabulary.WellFormed) (h : t.reader.Holds front (s.text ++ rest))
    (rule : Rule s.kind s.text rest) (token : s.kind.isToken = true) :
    s.outcomeOn? t.startLine front = some t.takeToken.value ∧
      t.takeToken.next.reader.At (front ++ s.text) rest := by
  obtain ⟨kind, text⟩ := s
  dsimp only at *
  cases kind with
  | integer =>
    have digit : t.reader.pending.isDigit = true := by
      cases rule with
      | integer nonempty all maximal =>
        obtain ⟨c, more, rfl⟩ := List.exists_cons_of_ne_nil nonempty
        rw [h.pending_eq]
        exact all c List.mem_cons_self
    rw [takeToken, if_pos digit]
    exact takeInteger_at h rule
  | word =>
    have letter : isLetter t.reader.pending = true := by
      cases rule with
      | word letter all maximal => rwa [h.pending_eq]
    rw [takeToken, if_neg (by simp [isDigit_eq_false_of_isLetter letter]), if_pos letter]
    exact takeWord_at known h rule
  | symbol =>
    cases rule with
    | symbol noBlank noDigit noLetter noComment =>
      rw [takeToken, h.pending_eq, if_neg (by simp [noDigit]), if_neg (by simp [noLetter])]
      exact takeSymbol_at h
  | _ => simp [Kind.isToken] at token

theorem startLine_takeToken (t : Tokenizer) : t.takeToken.next.startLine = t.startLine := by
  rcases t.takeToken_cases with ⟨_, taken⟩ | ⟨_, taken⟩ | taken <;> rw [taken]
  · rw [next_takeInteger]
  · rfl
  · rfl

theorem step_of_reached {t : Tokenizer} {r : Reader} {events : List Event}
    (gap : t.reader.skipGap = ⟨true, r, events⟩) :
    t.step = ({ t with reader := r, startLine := r.line } : Tokenizer).takeToken.behind events := by
  simp [step, gap, Step.behind]

theorem step_of_missed {t : Tokenizer} {r : Reader} {events : List Event}
    (gap : t.reader.skipGap = ⟨false, r, events⟩) :
    t.step = ⟨.error (.endOfInput r.line), { t with reader := r }, events⟩ := by
  simp [step, gap]

theorem step_of_behind {t : Tokenizer} {r : Reader} {events : List Event}
    (gap : t.reader.skipGap = r.skipGap.behind events) :
    t.step = { t with reader := r }.step.behind events := by
  unfold step
  simp only [gap, Skip.reached_behind, Skip.reader_behind]
  split <;> simp [Step.behind, Skip.behind]

/-- Behind its gap a step comes to what the segment there spells. -/
theorem step_of_found {t : Tokenizer} {r : Reader} {events : List Event} {front rest : List Char}
    {s : Segment} (known : t.vocabulary.WellFormed) (gap : t.reader.skipGap = ⟨true, r, events⟩)
    (h : r.Holds front (s.text ++ rest)) (rule : Rule s.kind s.text rest)
    (token : s.kind.isToken = true) :
    s.outcomeOn? (lineAfter front) front = some t.step.value ∧
      t.step.next.startLine = lineAfter front ∧ t.step.next.reader.At (front ++ s.text) rest := by
  rw [step_of_reached gap, h.line_of_token rule token]
  obtain ⟨value, behind⟩ := takeToken_at (t := { t with reader := r, startLine := lineAfter front })
    known h rule token
  exact ⟨value, startLine_takeToken _, behind⟩

theorem step_of_token {t : Tokenizer} {front rest : List Char} {s : Segment}
    (known : t.vocabulary.WellFormed) (h : t.reader.At front (s.text ++ rest))
    (rule : Rule s.kind s.text rest) (token : s.kind.isToken = true) :
    s.outcomeOn? (lineAfter front) front = some t.step.value ∧
      t.step.next.startLine = lineAfter front ∧ t.step.next.reader.At (front ++ s.text) rest := by
  obtain ⟨r, hr, gap⟩ := h.skipGap_of_token rule token
  exact step_of_found known gap hr rule token

theorem step_of_nil {t : Tokenizer} {front : List Char} (h : t.reader.At front []) :
    t.step = ⟨.error (.endOfInput (lineAfter front)), t, []⟩ := by
  cases h with
  | holding h => cases h.text
  | idling h => rw [step_of_missed h.skipGap_nil, h.line]

end Tokenizer

end TokenListing
