import TokenListing.Proofs.Tokenizer.Calls

set_option autoImplicit false

/-!
Behind the end of the text. Where all is used, the end is come to again and again. The last character
of a comment that is never closed is not used, however, and unless it is a blank, the step behind the
end takes it for a token.
-/

namespace TokenListing

open Grammar Text

/-- A text that ends inside a comment. -/
def Grammar.EndsOpen (cs : List Char) : Prop := ∃ s ∈ segments cs, s.kind.isOpen = true

/-- The token that one character makes. -/
def Grammar.lone (c : Char) : Token Word :=
  if c.isDigit then .integer (Int32.ofNat (c.toNat - '0'.toNat))
  else if isLetter c then .word ⟨.identifier, String.singleton c⟩
  else .symbol c

theorem Grammar.leftOver_segments {cs : List Char} (h : EndsOpen cs) :
    leftOver (segments cs) = cs.getLast?.toList := by
  have text := (cuts_segments cs).textOf_eq
  have cuts : Cuts (textOf (segments cs)) (segments cs) := cuts_of_segments_eq rfl
  rcases cuts.open_or_closed with ⟨gap, s, split, _, _, left⟩ | ⟨closed, _⟩
  · rw [split] at text cuts
    have nonempty : s.text ≠ [] := cuts.of_append.cons_inv.1.text_ne_nil
    rw [left, ← text, textOf_append, textOf_cons, textOf_nil, List.append_nil, List.getLast?_append,
      List.getLast?_eq_some_getLast nonempty, Option.some_or]
  · obtain ⟨s, hs, isOpen⟩ := h
    cases (closed s hs).symm.trans isOpen

theorem Grammar.leftOver_segments_of_not {cs : List Char} (h : ¬EndsOpen cs) :
    leftOver (segments cs) = [] := by
  have cuts : Cuts (textOf (segments cs)) (segments cs) := cuts_of_segments_eq rfl
  rcases cuts.open_or_closed with ⟨gap, s, split, isOpen, _⟩ | ⟨_, none⟩
  · exact absurd ⟨s, by simp [split], isOpen⟩ h
  · exact none

theorem Grammar.ofLexeme_singleton (c : Char) :
    Word.ofLexeme (String.singleton c) = ⟨.identifier, String.singleton c⟩ := by
  have apart : ∀ lexeme : String, lexeme.toList.length ≠ 1 → String.singleton c ≠ lexeme := by
    rintro lexeme long rfl
    simp at long
  simp [Word.ofLexeme, WordKind.ofLexeme, apart "true" (by decide), apart "false" (by decide)]

theorem Grammar.token?_digit {c : Char} (digit : c.isDigit = true) :
    (Segment.mk .integer [c]).token? = some (lone c) ∧
      (Segment.mk .integer [c]).isTooLarge = false := by
  have value : Decimal.value [c] = c.toNat - '0'.toNat := by simpa using Decimal.value_concat [] c
  have high : c.toNat ≤ '9'.toNat := by
    simp only [Char.isDigit, Bool.and_eq_true, decide_eq_true_eq] at digit
    exact digit.2
  have small : c.toNat - '0'.toNat ≤ maxInteger :=
    Nat.le_trans (Nat.sub_le_sub_right high _) (by decide)
  constructor
  · simp only [Segment.token?, lone, if_pos digit, value]
  · rw [Segment.isTooLarge, value, decide_eq_false (Nat.not_lt.mpr small), Bool.and_false]

theorem Grammar.exists_cuts_lone {c : Char} (noBlank : isBlank c = false) :
    ∃ s, Cuts (textOf [s]) [s] ∧ s.text = [c] ∧ s.kind.isToken = true ∧
      s.token? = some (lone c) ∧ s.isTooLarge = false := by
  have cut : ∀ k, Rule k [c] [] → Cuts (textOf [⟨k, [c]⟩]) [⟨k, [c]⟩] :=
    fun k rule => .cons rule .nil
  by_cases digit : c.isDigit = true
  · have rule : Rule .integer [c] [] := .integer (by simp) (by simpa using digit) (by simp)
    exact ⟨_, cut _ rule, rfl, rfl, token?_digit digit⟩
  by_cases letter : isLetter c = true
  · have rule : Rule .word [c] [] := .word letter (by simp) (by simp)
    refine ⟨_, cut _ rule, rfl, rfl, ?_, rfl⟩
    simp only [Segment.token?, lone, if_neg digit, if_pos letter]
    rw [← String.singleton_eq_ofList, ofLexeme_singleton]
  · have rule : Rule .symbol [c] [] :=
      .symbol noBlank (Bool.eq_false_iff.mpr digit) (Bool.eq_false_iff.mpr letter) (by simp)
    refine ⟨_, cut _ rule, rfl, rfl, ?_, rfl⟩
    simp only [Segment.token?, lone, if_neg digit, if_neg letter]

namespace Tokenizer

/-- Where nothing is left the end of the text is come to for good. -/
theorem outcome_of_nil {t : Tokenizer} {front : List Char} (h : t.reader.At front []) (m : Nat) :
    t.outcome m = .error (.endOfInput (lineAfter front)) := by
  have stays : t.after m = t := by
    induction m with
    | zero => rfl
    | succ m ih => rw [after, ih, step_of_nil h]
  rw [outcome, stays, step_of_nil h]
  rfl

theorem outcome_of_rest {t : Tokenizer} {front : List Char} {gap : List Segment}
    (h : t.reader.At front (textOf gap)) (cuts : Cuts (textOf gap) gap)
    (blank : ∀ g ∈ gap, g.kind.isToken = false) (used : leftOver gap = []) (m : Nat) :
    t.outcome m = .error (.endOfInput (lineAfter (front ++ textOf gap))) := by
  obtain ⟨value, r, passed, next, split, stands⟩ := step_over_rest h cuts blank
  rw [used, List.append_nil] at split
  rw [used, split] at stands
  cases m with
  | zero => exact value
  | succ m =>
    have later : t.step.next.reader.At (front ++ textOf gap) [] := by rwa [next]
    rw [Nat.add_comm, outcome_add]
    exact outcome_of_nil later m

theorem outcome_of_lone {t : Tokenizer} {front : List Char} {c : Char}
    (known : t.vocabulary.WellFormed) (h : t.reader.At front [c]) (noBlank : isBlank c = false) :
    t.outcome 0 = .ok (lone c) ∧ (t.after 1).startLine = lineAfter (front ++ [c]) ∧
      ∀ m, t.outcome (1 + m) = .error (.endOfInput (lineAfter (front ++ [c]))) := by
  obtain ⟨s, cuts, text, token, spelled, fits⟩ := exists_cuts_lone noBlank
  have line : lineAfter (front ++ [c]) = lineAfter front := by
    rw [lineAfter_concat, if_neg]
    rintro rfl
    simp [isBlank] at noBlank
  have here : t.reader.At front (s.text ++ []) := by rwa [text]
  obtain ⟨value, start, next⟩ := step_of_token known here cuts.cons_inv.1 token
  rw [Segment.outcomeOn?_of_token? spelled fits] at value
  rw [text] at next
  refine ⟨(Option.some.inj value).symm, start.trans line.symm, fun m => ?_⟩
  rw [outcome_add]
  exact outcome_of_nil next m

theorem outcome_of_blank {t : Tokenizer} {front : List Char} {c : Char} (h : t.reader.At front [c])
    (blank : isBlank c = true) (m : Nat) :
    t.outcome m = .error (.endOfInput (lineAfter (front ++ [c]))) := by
  have cuts : Cuts (textOf [⟨.blank, [c]⟩]) [⟨.blank, [c]⟩] := .cons (.blank blank) .nil
  exact outcome_of_rest h cuts (by simp [Kind.isToken]) rfl m

/-- Where the end is come to, all that is left is the last character of an open comment. -/
theorem Past.behind_end {t : Tokenizer} {done more : List Segment} {n : Nat} {line : UInt32}
    (past : t.Past done more n) (ends : t.step.value = .error (.endOfInput line)) :
    (leftOver more = [] → ∀ m, t.outcome m = .error (.endOfInput line)) ∧
      ∀ c, leftOver more = [c] →
        ∃ front, line = lineAfter (front ++ [c]) ∧ t.step.next.reader.At front [c] := by
  rcases gap_or_token more with blank | ⟨gap, s, rest, rfl, blank, token⟩
  · obtain ⟨value, r, passed, next, split, stands⟩ := step_over_rest past.stands past.cuts blank
    obtain rfl : line = lineAfter (textOf done ++ textOf more) := by
      simpa using ends.symm.trans value
    refine ⟨outcome_of_rest past.stands past.cuts blank, fun c left => ?_⟩
    rw [left] at split stands
    refine ⟨textOf done ++ passed, ?_, by rwa [next]⟩
    rw [← split, List.append_assoc]
  · have value := (step_over_gap past.known past.stands past.cuts blank token).1
    rw [ends] at value
    cases Segment.isEnd_of_outcomeOn? value

section

variable {i : Nat} {source : String} {n : Nat} {line : UInt32}

theorem behind_first_end
    (going : ∀ m < n, ∀ l, (ofString i source).outcome m ≠ .error (.endOfInput l))
    (ends : (ofString i source).outcome n = .error (.endOfInput line)) :
    (leftOver (segments source.toList) = [] →
        ∀ m, (ofString i source).outcome (n + m) = .error (.endOfInput line)) ∧
      ∀ c, leftOver (segments source.toList) = [c] →
        ∃ front, line = lineAfter (front ++ [c]) ∧
          ((ofString i source).after (n + 1)).reader.At front [c] ∧
          ((ofString i source).after (n + 1)).vocabulary.WellFormed := by
  obtain ⟨done, more, split, past⟩ := exists_past_after i source n going
  obtain ⟨used, kept⟩ := past.behind_end ends
  rw [split, leftOver_append more past.closed]
  refine ⟨fun none m => ?_, fun c left => ?_⟩
  · rw [outcome_add]
    exact used none m
  · obtain ⟨front, here, stands⟩ := kept c left
    exact ⟨front, here, stands, wellFormed_step past.known⟩

theorem takes_left_over
    (going : ∀ m < n, ∀ l, (ofString i source).outcome m ≠ .error (.endOfInput l))
    (ends : (ofString i source).outcome n = .error (.endOfInput line)) {c : Char}
    (opens : EndsOpen source.toList) (last : source.toList.getLast? = some c)
    (noBlank : isBlank c = false) :
    (ofString i source).outcome (n + 1) = .ok (lone c) ∧
      ((ofString i source).after (n + 2)).startLine = line ∧
      ∀ m, (ofString i source).outcome (n + 2 + m) = .error (.endOfInput line) := by
  have left : leftOver (segments source.toList) = [c] := by
    rw [leftOver_segments opens, last]
    rfl
  obtain ⟨front, rfl, stands, known⟩ := (behind_first_end going ends).2 c left
  obtain ⟨value, start, rest⟩ := outcome_of_lone known stands noBlank
  refine ⟨value, start, fun m => ?_⟩
  have same : n + 2 + m = n + 1 + (1 + m) := by omega
  rw [same, outcome_add]
  exact rest m

theorem stays_at_end (going : ∀ m < n, ∀ l, (ofString i source).outcome m ≠ .error (.endOfInput l))
    (ends : (ofString i source).outcome n = .error (.endOfInput line))
    (used : ¬(EndsOpen source.toList ∧ ∃ c, source.toList.getLast? = some c ∧ isBlank c = false))
    (m : Nat) : (ofString i source).outcome (n + 1 + m) = .error (.endOfInput line) := by
  obtain ⟨none, kept⟩ := behind_first_end going ends
  by_cases opens : EndsOpen source.toList
  · rw [leftOver_segments opens] at none kept
    cases last : source.toList.getLast? with
    | none =>
      rw [Nat.add_assoc]
      exact none (by rw [last]; rfl) (1 + m)
    | some c =>
      have blank : isBlank c = true := by
        by_contra noBlank
        exact used ⟨opens, c, last, Bool.eq_false_iff.mpr noBlank⟩
      obtain ⟨front, rfl, stands, _⟩ := kept c (by rw [last]; rfl)
      rw [outcome_add]
      exact outcome_of_blank stands blank m
  · rw [Nat.add_assoc]
    exact none (leftOver_segments_of_not opens) (1 + m)

end

/-- The first time that the end of the text is come to is the last time but for one token, which the
last character of a comment that is never closed makes. -/
theorem exhausted_but_for_one (i : Nat) (source : String) (n : Nat) (line : UInt32)
    (going : ∀ m < n, ∀ l, (ofString i source).outcome m ≠ .error (.endOfInput l))
    (ends : (ofString i source).outcome n = .error (.endOfInput line)) :
    (∀ c, EndsOpen source.toList → source.toList.getLast? = some c → isBlank c = false →
        (ofString i source).outcome (n + 1) = .ok (lone c) ∧
          ((ofString i source).after (n + 2)).startLine = line ∧
          ∀ m, (ofString i source).outcome (n + 2 + m) = .error (.endOfInput line)) ∧
      (¬(EndsOpen source.toList ∧ ∃ c, source.toList.getLast? = some c ∧ isBlank c = false) →
        ∀ m, (ofString i source).outcome (n + 1 + m) = .error (.endOfInput line)) ∧
      ∀ m, (ofString i source).outcome (n + 1 + m) = .error (.endOfInput line) ∨
        m = 0 ∧ ∃ token, (ofString i source).outcome (n + 1) = .ok token := by
  refine ⟨fun c opens last noBlank => takes_left_over going ends opens last noBlank,
    fun used => stays_at_end going ends used, fun m => ?_⟩
  by_cases left : EndsOpen source.toList ∧ ∃ c, source.toList.getLast? = some c ∧ isBlank c = false
  · obtain ⟨opens, c, last, noBlank⟩ := left
    obtain ⟨value, _, rest⟩ := takes_left_over going ends opens last noBlank
    cases m with
    | zero => exact .inr ⟨rfl, _, value⟩
    | succ m =>
      have same : n + 1 + (m + 1) = n + 2 + m := by omega
      rw [same]
      exact .inl (rest m)
  · exact .inl (stays_at_end going ends left m)

/-- The star of an opener that nothing follows. -/
theorem exhausted_but_for_one_star :
    (ofString 0 "x\n/*").outcome 2 = .ok (.symbol '*') ∧
      ((ofString 0 "x\n/*").after 3).startLine = 2 ∧
      (ofString 0 "x\n/*").outcome 9 = .error (.endOfInput 2) := by
  have word : (ofString 0 "x\n/*").outcome 0 = .ok (.word (.ofLexeme "x")) := by decide +kernel
  have ends : (ofString 0 "x\n/*").outcome 1 = .error (.endOfInput 2) := by decide +kernel
  have going : ∀ m < 1, ∀ l, (ofString 0 "x\n/*").outcome m ≠ .error (.endOfInput l) := by
    intro m hm l same
    obtain rfl := Nat.lt_one_iff.mp hm
    cases word.symm.trans same
  have opens : EndsOpen "x\n/*".toList :=
    ⟨⟨.comment .block false, "/*".toList⟩, by decide +kernel, rfl⟩
  obtain ⟨value, start, rest⟩ :=
    (exhausted_but_for_one 0 "x\n/*" 1 2 going ends).1 '*' opens (by decide) (by decide)
  have star : lone '*' = .symbol '*' := by decide +kernel
  exact ⟨value.trans (congrArg Except.ok star), start, rest 6⟩

end Tokenizer

end TokenListing
