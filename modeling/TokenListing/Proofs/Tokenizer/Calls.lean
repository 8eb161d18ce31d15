import TokenListing.Proofs.Grammar.Placed
import TokenListing.Proofs.Tokenizer.Position
import TokenListing.Proofs.Tokenizer.Words

set_option autoImplicit false

/-!
Steps one after another. As long as there are tokens the steps come to them in their order, and the
step behind the last one comes to the end of the text. What it leaves unused is the last character of
a comment that is never closed, if there is one.
-/

namespace TokenListing

open Grammar

theorem Grammar.gap_or_token (l : List Segment) :
    (∀ s ∈ l, s.kind.isToken = false) ∨
      ∃ gap s more, l = gap ++ s :: more ∧ (∀ g ∈ gap, g.kind.isToken = false) ∧
        s.kind.isToken = true := by
  cases first : l.find? (·.kind.isToken) with
  | none => exact .inl (by simpa using first)
  | some s =>
    obtain ⟨token, gap, more, split, before⟩ := List.find?_eq_some_iff_append.mp first
    exact .inr ⟨gap, s, more, split, by simpa using before, token⟩

namespace Tokenizer

def after (t : Tokenizer) : Nat → Tokenizer
  | 0 => t
  | n + 1 => (t.after n).step.next

/-- What the step behind `n` steps comes to. -/
def outcome (t : Tokenizer) (n : Nat) : Except Fault (Token Word) := (t.after n).step.value

theorem after_add (t : Tokenizer) (n m : Nat) : t.after (n + m) = (t.after n).after m := by
  induction m with
  | zero => rfl
  | succ m ih => rw [← Nat.add_assoc, after, after, ih]

theorem outcome_add (t : Tokenizer) (n m : Nat) : t.outcome (n + m) = (t.after n).outcome m := by
  rw [outcome, outcome, after_add]

theorem step_over_gap {t : Tokenizer} {front : List Char} {gap more : List Segment} {s : Segment}
    (known : t.vocabulary.WellFormed) (h : t.reader.At front (textOf (gap ++ s :: more)))
    (cuts : Cuts (textOf (gap ++ s :: more)) (gap ++ s :: more))
    (blank : ∀ g ∈ gap, g.kind.isToken = false) (token : s.kind.isToken = true) :
    (Placed.mk (front ++ textOf gap) s).outcome? = some t.step.value ∧
      t.step.next.startLine = lineAfter (front ++ textOf gap) ∧
      t.step.next.reader.At (front ++ textOf gap ++ s.text) (textOf more) := by
  obtain ⟨r, hr, skipped⟩ := h.skipGap_over cuts blank token
  exact step_of_found known skipped hr cuts.of_append.cons_inv.1 token

/-- Where no token is left a step comes to the end of the text. -/
theorem step_over_rest {t : Tokenizer} {front : List Char} {gap : List Segment}
    (h : t.reader.At front (textOf gap)) (cuts : Cuts (textOf gap) gap)
    (blank : ∀ g ∈ gap, g.kind.isToken = false) :
    t.step.value = .error (.endOfInput (lineAfter (front ++ textOf gap))) ∧
      ∃ (r : Reader) (passed : List Char), t.step.next = { t with reader := r } ∧
        passed ++ leftOver gap = textOf gap ∧ r.At (front ++ passed) (leftOver gap) := by
  obtain ⟨r, passed, split, hr, line, skipped⟩ := h.skipGap_rest cuts blank
  rw [step_of_missed skipped, line]
  exact ⟨rfl, r, passed, rfl, split, hr⟩

/-- The tokenizer has gone over the segments `done` of its text, `n` of them tokens, and stands in
front of the segments `more`. -/
structure Past (t : Tokenizer) (done more : List Segment) (n : Nat) : Prop where
  stands : t.reader.At (textOf done) (textOf more)
  cuts : Cuts (textOf more) more
  known : t.vocabulary.WellFormed
  closed : ∀ s ∈ done, s.kind.isOpen = false
  count : (done.filter (·.kind.isToken)).length = n

theorem past_ofString (number : Nat) (source : String) :
    (ofString number source).Past [] (segments source.toList) 0 where
  stands := by
    rw [(cuts_segments source.toList).textOf_eq]
    exact .idling (Reader.idles_ofString source)
  cuts := by
    rw [(cuts_segments source.toList).textOf_eq]
    exact cuts_segments source.toList
  known := Vocabulary.wellFormed_fresh number
  closed := by simp
  count := rfl

theorem Past.step {t : Tokenizer} {done more : List Segment} {n : Nat} (past : t.Past done more n)
    (goes : ∀ line, t.step.value ≠ .error (.endOfInput line)) :
    ∃ gap s rest, more = gap ++ s :: rest ∧ (∀ g ∈ gap, g.kind.isToken = false) ∧
      s.kind.isToken = true ∧ (Placed.mk (textOf (done ++ gap)) s).outcome? = some t.step.value ∧
      t.step.next.startLine = lineAfter (textOf (done ++ gap)) ∧
      t.step.next.Past (done ++ gap ++ [s]) rest (n + 1) := by
  obtain ⟨stands, cuts, known, closed, count⟩ := past
  rcases gap_or_token more with none | ⟨gap, s, rest, rfl, blank, token⟩
  · exact absurd (step_over_rest stands cuts none).1 (goes _)
  · obtain ⟨value, line, next⟩ := step_over_gap known stands cuts blank token
    rw [← textOf_append] at value line next
    refine ⟨gap, s, rest, rfl, blank, token, value, line, ?_, ?_, wellFormed_step known, ?_, ?_⟩
    · rw [textOf_append (done ++ gap), textOf_cons, textOf_nil, List.append_nil]
      exact next
    · exact cuts.of_append.cons_inv.2
    · intro g hg
      rcases List.mem_append.mp hg with hg | hg
      · rcases List.mem_append.mp hg with hg | hg
        · exact closed g hg
        · exact cuts.isOpen_eq_false hg
      · obtain rfl := List.mem_singleton.mp hg
        exact Kind.isOpen_of_isToken token
    · simp [filter_isToken_eq_nil blank, token, count]

/-- As long as no step comes to the end of the text, each goes past one token. -/
theorem exists_past_after (number : Nat) (source : String) (n : Nat)
    (going : ∀ m < n, ∀ line, (ofString number source).outcome m ≠ .error (.endOfInput line)) :
    ∃ done more, segments source.toList = done ++ more ∧
      ((ofString number source).after n).Past done more n := by
  induction n with
  | zero => exact ⟨[], _, rfl, past_ofString number source⟩
  | succ n ih =>
    obtain ⟨done, more, split, past⟩ := ih fun m hm => going m (Nat.lt_succ_of_lt hm)
    obtain ⟨gap, s, rest, rfl, _, _, _, _, next⟩ := past.step (going n (Nat.lt_succ_self n))
    exact ⟨done ++ gap ++ [s], rest, by simp [split], next⟩

end Tokenizer

end TokenListing
