import TokenListing.Proofs.Reader.Moves
import TokenListing.Proofs.Tokenizer.Exhaustion
import TokenListing.Proofs.Tokenizer.Iteration
import TokenListing.Proofs.Tokenizer.Restart

set_option autoImplicit false

/-!
The stretches of a text that steps take. Wherever in its text a tokenizer stands, behind the end of
the text too, its step takes one stretch and stands behind it, or it comes to the end of the text.
-/

namespace TokenListing

open Grammar Text

/-- What is read along with a token: a run is over at the character behind it. -/
def Grammar.Kind.lookahead (k : Kind) (rest : List Char) : List Char :=
  if k = .symbol then [] else rest.head?.toList

namespace Reader

theorem Holds.steps_cons {r : Reader} {front run rest : List Char} {d : Char}
    (h : r.Holds front (run ++ d :: rest)) : (r.steps run.length).Holds (front ++ run) (d :: rest) := by
  induction run generalizing r front with
  | nil => simpa [steps] using h
  | cons c run ih =>
    obtain ⟨e, more, split⟩ := List.exists_cons_of_ne_nil
      (List.append_ne_nil_of_right_ne_nil run (List.cons_ne_nil d rest))
    rw [List.cons_append, split] at h
    have next := h.step_cons
    rw [← split] at next
    simpa [steps] using ih next

theorem Holds.line_takeRun {p : Char → Bool} {r : Reader} {front run rest : List Char}
    (h : r.Holds front (run ++ rest)) (nonempty : run ≠ []) (taken : (run ++ rest).takeWhile p = run) :
    (r.takeRun p).2.line = lineAfter (front ++ run ++ rest.head?.toList) := by
  obtain ⟨found, stands⟩ := h.takeRun nonempty taken
  have behind : (r.takeRun p).2 = r.steps run.length := by
    rw [← found]
    rfl
  rw [behind] at stands ⊢
  cases rest with
  | nil =>
    cases stands with
    | holding held => cases held.text
    | idling idle => simpa using idle.line
  | cons d rest =>
    have held := h.steps_cons
    rw [held.line, held.pending_eq]
    rfl

end Reader

namespace Tokenizer

/-- What a step comes to that comes to a token. -/
theorem step_of_skipGap {t : Tokenizer} (reached : t.reader.skipGap.reached = true) :
    t.step = ({ t with reader := t.reader.skipGap.reader,
                       startLine := t.reader.skipGap.reader.line } : Tokenizer).takeToken.behind
      t.reader.skipGap.events := by
  simp [step, reached, Step.behind]

theorem line_takeToken {t : Tokenizer} {front rest : List Char} {s : Segment}
    (h : t.reader.Holds front (s.text ++ rest)) (rule : Rule s.kind s.text rest)
    (token : s.kind.isToken = true) :
    t.takeToken.next.reader.line = lineAfter (front ++ s.text ++ s.kind.lookahead rest) := by
  obtain ⟨kind, text⟩ := s
  dsimp only at *
  cases rule with
  | integer nonempty all maximal =>
    have digit : t.reader.pending.isDigit = true := by
      obtain ⟨c, more, rfl⟩ := List.exists_cons_of_ne_nil nonempty
      rw [h.pending_eq]
      exact all c List.mem_cons_self
    rw [takeToken, if_pos digit, next_takeInteger]
    exact h.line_takeRun nonempty (takeWhile_exact all maximal)
  | @word c more _ letter all maximal =>
    have run : ∀ d ∈ c :: more, continuesWord d = true :=
      List.forall_mem_cons.mpr ⟨by simp [continuesWord, letter], all⟩
    have first : t.reader.pending = c := h.pending_eq
    rw [takeToken, first, if_neg (by simp [isDigit_eq_false_of_isLetter letter]), if_pos letter]
    exact h.line_takeRun (List.cons_ne_nil c more) (takeWhile_exact run maximal)
  | symbol noBlank noDigit noLetter noComment =>
    rw [takeToken, h.pending_eq, if_neg (by simp [noDigit]), if_neg (by simp [noLetter])]
    rw [Kind.lookahead, if_pos rfl, List.append_nil]
    exact h.idles_clear.line
  | _ => simp [Kind.isToken] at token

/-- A step takes the stretch of a text at a place, with `back` behind it: in front of its token the
reader holds the first character of the stretch, and behind the step it stands where the stretch
ends. -/
structure Takes (t : Tokenizer) (source : String) (p : Placed) (back : List Char) : Prop where
  text : source.toList = p.upTo ++ back
  token : p.segment.kind.isToken = true
  rule : Rule p.segment.kind p.segment.text back
  outcome : p.outcome? = some t.step.value
  reached : t.reader.skipGap.reached = true
  starts : t.reader.skipGap.reader.Holds p.front (p.segment.text ++ back)
  stops : t.step.next.reader.At p.upTo back

/-- A step takes the first token that is left. -/
theorem takes_over_gap {t : Tokenizer} {source : String} {front : List Char} {gap more : List Segment}
    {s : Segment} (text : source.toList = front ++ textOf (gap ++ s :: more))
    (known : t.vocabulary.WellFormed) (h : t.reader.At front (textOf (gap ++ s :: more)))
    (cuts : Cuts (textOf (gap ++ s :: more)) (gap ++ s :: more))
    (blank : ∀ g ∈ gap, g.kind.isToken = false) (token : s.kind.isToken = true) :
    t.Takes source ⟨front ++ textOf gap, s⟩ (textOf more) := by
  obtain ⟨value, _, stops⟩ := step_over_gap known h cuts blank token
  obtain ⟨r, starts, skipped⟩ := h.skipGap_over cuts blank token
  exact
    { text := by simp [text, Placed.upTo]
      token, rule := cuts.of_append.cons_inv.1, outcome := value, reached := by rw [skipped]
      starts := by rwa [skipped]
      stops }

namespace Takes

variable {t : Tokenizer} {source : String} {p : Placed} {back : List Char}

theorem exists_first (takes : t.Takes source p back) :
    ∃ c more, p.segment.text = c :: more ∧ isBlank c = false := by
  obtain ⟨c, more, split, noBlank, _⟩ := takes.rule.starts takes.token
  obtain ⟨d, rest, text⟩ := List.exists_cons_of_ne_nil takes.rule.text_ne_nil
  rw [text, List.cons_append] at split
  obtain ⟨rfl, _⟩ := List.cons.inj split
  exact ⟨d, rest, text, noBlank⟩

theorem startLine (takes : t.Takes source p back) : t.step.next.startLine = lineAfter p.front := by
  rw [step_of_skipGap takes.reached]
  exact (startLine_takeToken _).trans (takes.starts.line_of_token takes.rule takes.token)

theorem line (takes : t.Takes source p back) :
    t.step.next.reader.line = lineAfter (p.upTo ++ p.segment.kind.lookahead back) := by
  rw [step_of_skipGap takes.reached]
  exact line_takeToken takes.starts takes.rule takes.token

theorem isEnd_eq_false (takes : t.Takes source p back) {fault : Fault}
    (value : t.step.value = .error fault) : fault.isEnd = false := by
  have outcome := takes.outcome
  rw [value] at outcome
  exact Segment.isEnd_of_outcomeOn? outcome

/-- What is taken later is further on in the text. -/
theorem before {u : Tokenizer} {q : Placed} {rest : List Char} (first : t.Takes source p back)
    (moves : t.step.next.reader.Moves u.reader) (second : u.Takes source q rest) :
    p.upTo <+: q.front := by
  obtain ⟨c, more, text, noBlank⟩ := second.exists_first
  have starts := second.starts
  rw [text, List.cons_append] at starts
  have left : (c :: (more ++ rest)).length ≤ back.length := by
    rw [List.length_cons, ← starts.weight_eq noBlank]
    exact Nat.le_trans (moves.trans u.reader.moves_skipGap).weight_le first.stops.weight_le
  have same : p.upTo ++ back = q.front ++ c :: (more ++ rest) := by
    rw [← first.text, second.text, Placed.upTo, text]
    simp
  have whole := congrArg List.length same
  simp only [List.length_append] at whole left
  exact List.prefix_of_prefix_length_le (List.prefix_append _ back)
    (by rw [same]; exact List.prefix_append _ _) (by omega)

end Takes

theorem outcome_takeToken_ne (t : Tokenizer) (line : UInt32) :
    t.takeToken.outcome ≠ .error (.endOfInput line) := by
  rcases t.takeToken_cases with ⟨_, taken⟩ | ⟨_, taken⟩ | taken <;> rw [taken]
  · unfold takeInteger found
    dsimp only
    split <;> simp
  · simp [takeWord, found]
  · simp [takeSymbol, found]

/-- A step that comes to the end of the text changes the reader and nothing else. -/
theorem next_of_end {t : Tokenizer} {line : UInt32}
    (ends : t.step.outcome = .error (.endOfInput line)) :
    t.step.next = { t with reader := t.reader.skipGap.reader } ∧
      line = t.reader.skipGap.reader.line := by
  cases reached : t.reader.skipGap.reached with
  | true =>
    rw [step_of_skipGap reached] at ends
    exact absurd ends (outcome_takeToken_ne _ line)
  | false =>
    have missed : t.step = ⟨.error (.endOfInput t.reader.skipGap.reader.line),
        { t with reader := t.reader.skipGap.reader }, t.reader.skipGap.events⟩ := by
      simp [step, reached]
    rw [missed] at ends ⊢
    cases ends
    exact ⟨rfl, rfl⟩

/-- A tokenizer stands somewhere in a text. -/
structure Stands (t : Tokenizer) (source : String) (front back : List Char) : Prop where
  text : source.toList = front ++ back
  known : t.vocabulary.WellFormed
  reader : t.reader.At front back

theorem stands_ofString (i : Nat) (source : String) :
    (ofString i source).Stands source [] source.toList where
  text := rfl
  known := Vocabulary.wellFormed_fresh i
  reader := .idling (Reader.idles_ofString source)

/-- From wherever it stands, a step takes a stretch that is further on and stands behind it, or comes
to the end of the text. -/
theorem Stands.step {t : Tokenizer} {source : String} {front back : List Char}
    (stands : t.Stands source front back) :
    (∃ p rest, t.Takes source p rest ∧ front <+: p.front ∧ t.step.next.Stands source p.upTo rest) ∨
      t.step.outcome = .error (.endOfInput (lineAfter source.toList)) ∧
        ∃ passed left, t.step.next.Stands source (front ++ passed) left := by
  obtain ⟨text, known, reader⟩ := stands
  obtain ⟨l, rfl, cuts⟩ := exists_cuts back
  rcases gap_or_token l with none | ⟨gap, s, more, rfl, blank, token⟩
  · obtain ⟨value, r, passed, next, split, here⟩ := step_over_rest reader cuts none
    rw [← text] at value
    refine .inr ⟨map_eq_error_iff.mp value, passed, leftOver l, ?_, wellFormed_step known, ?_⟩
    · rw [text, List.append_assoc, split]
    · rw [next]
      exact here
  · have takes := takes_over_gap text known reader cuts blank token
    exact .inl ⟨_, _, takes, List.prefix_append front _, takes.text, wellFormed_step known, takes.stops⟩

theorem Stands.after {t : Tokenizer} {source : String} {front back : List Char}
    (stands : t.Stands source front back) (n : Nat) :
    ∃ front back, (t.after n).Stands source front back := by
  induction n with
  | zero => exact ⟨front, back, stands⟩
  | succ n ih =>
    obtain ⟨front, back, here⟩ := ih
    rcases here.step with ⟨p, rest, _, _, next⟩ | ⟨_, passed, left, next⟩
    · exact ⟨_, _, next⟩
    · exact ⟨_, _, next⟩

end Tokenizer

end TokenListing
