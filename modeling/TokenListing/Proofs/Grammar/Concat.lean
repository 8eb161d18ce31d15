import TokenListing.Proofs.Grammar.Segment

set_option autoImplicit false

/-!
Texts one behind the other. What is behind closed segments may be replaced, as long as it starts with
a blank or as it did before, and a line feed keeps two texts apart in which no block comment runs from
one to the other.
-/

namespace TokenListing.Grammar

/-- Whether a rule applies depends on the first character behind the segment only, and no blank is in
its way. -/
theorem Rule.of_head? {k : Kind} {text rest other : List Char} (h : Rule k text rest)
    (closed : k.isOpen = false)
    (starts : ∀ c ∈ other.head?, isBlank c = true ∨ c ∈ rest.head?) : Rule k text other := by
  cases h with
  | blank blank => exact .blank blank
  | lineComment inside => exact .lineComment inside
  | blockComment ends inside => exact .blockComment ends inside
  | integer nonempty all maximal =>
    refine .integer nonempty all fun c hc => ?_
    rcases starts c hc with blank | same
    · exact isDigit_eq_false_of_isBlank blank
    · exact maximal c same
  | word letter all maximal =>
    refine .word letter all fun c hc => ?_
    rcases starts c hc with blank | same
    · simp [continuesWord, isLetter_eq_false_of_isBlank blank, isDigit_eq_false_of_isBlank blank]
    · exact maximal c same
  | symbol noBlank noDigit noLetter noComment =>
    refine .symbol noBlank noDigit noLetter fun slash => ?_
    obtain ⟨noLine, noBlock⟩ := noComment slash
    refine ⟨fun hc => ?_, fun hc => ?_⟩
    · rcases starts _ hc with blank | same
      · cases blank
      · exact noLine same
    · rcases starts _ hc with blank | same
      · cases blank
      · exact noBlock same
  | _ => simp [Kind.isOpen] at closed

theorem Cuts.replace_behind {l m other : List Segment} {text : List Char}
    (h : Cuts (textOf (l ++ m)) (l ++ m)) (closed : ∀ s ∈ l, s.kind.isOpen = false)
    (starts : ∀ c ∈ text.head?, isBlank c = true ∨ c ∈ (textOf m).head?) (behind : Cuts text other) :
    Cuts (textOf l ++ text) (l ++ other) := by
  induction l with
  | nil => exact behind
  | cons s l ih =>
    obtain ⟨here, later⟩ := List.forall_mem_cons.mp closed
    rw [List.cons_append] at h
    obtain ⟨rule, more⟩ := h.cons_inv
    rw [textOf_cons, List.append_assoc]
    refine .cons (rule.of_head? here fun c hc => ?_) (ih more later)
    rw [textOf_append]
    cases front : textOf l with
    | nil => exact starts c (by simpa [front] using hc)
    | cons d rest => exact .inr (by simpa [front] using hc)

/-- A text that ends inside a block comment. -/
def EndsInBlock (cs : List Char) : Prop := ∃ s ∈ segments cs, s.kind = .comment .block false

/-- A text without an open block comment is cut into closed segments, but for a line comment at its
end. -/
theorem closed_or_lineComment {cs : List Char} (noBlock : ¬EndsInBlock cs) :
    (∀ s ∈ segments cs, s.kind.isOpen = false) ∨
      ∃ l body, segments cs = l ++ [⟨.comment .line false, '/' :: '/' :: body⟩] ∧ '\n' ∉ body ∧
        ∀ s ∈ l, s.kind.isOpen = false := by
  by_cases closed : ∀ s ∈ segments cs, s.kind.isOpen = false
  · exact .inl closed
  · simp only [not_forall, Bool.not_eq_false] at closed
    obtain ⟨s, hs, isOpen⟩ := closed
    obtain ⟨l, more, split⟩ := List.append_of_mem hs
    have cuts := cuts_of_segments_eq split
    obtain rfl := cuts.of_append.eq_nil_of_isOpen isOpen
    have rule := cuts.of_append.cons_inv.1
    have noComment : s.kind ≠ .comment .block false := fun block => noBlock ⟨s, hs, block⟩
    obtain ⟨kind, text⟩ := s
    dsimp only at isOpen rule noComment
    cases rule with
    | openLineComment inside =>
      exact .inr ⟨l, _, split, inside, fun g hg => cuts.isOpen_eq_false hg⟩
    | openBlockComment inside => exact absurd rfl noComment
    | _ => simp [Kind.isOpen] at isOpen

/-- A line feed is a segment of its own between the segments of two texts, or it closes the line
comment at the end of the first. -/
theorem segments_concat {a : List Char} (noBlock : ¬EndsInBlock a) (b : List Char) :
    ∃ l g, segments (a ++ '\n' :: b) = l ++ g :: segments b ∧ g.kind.isToken = false ∧
      textOf l ++ g.text = a ++ ['\n'] ∧
      (segments a = l ∨ ∃ s, segments a = l ++ [s] ∧ s.kind.isToken = false) := by
  have text : textOf (segments a) = a := (cuts_segments a).textOf_eq
  rcases closed_or_lineComment noBlock with closed | ⟨l, body, split, inside, closed⟩
  · have feed : Cuts ('\n' :: b) (⟨.blank, ['\n']⟩ :: segments b) :=
      .cons (s := ⟨.blank, ['\n']⟩) (.blank rfl) (cuts_segments b)
    have cuts : Cuts (textOf (segments a ++ [])) (segments a ++ []) := by
      rw [List.append_nil]
      exact cuts_of_segments_eq rfl
    have both := cuts.replace_behind closed (fun c hc => by cases hc; exact .inl rfl) feed
    rw [text] at both
    exact ⟨segments a, ⟨.blank, ['\n']⟩, both.segments_eq, rfl, by rw [text], .inl rfl⟩
  · have comment : Cuts ('/' :: '/' :: (body ++ ['\n']) ++ b)
        (⟨.comment .line true, '/' :: '/' :: (body ++ ['\n'])⟩ :: segments b) :=
      .cons (s := ⟨.comment .line true, _⟩) (.lineComment inside) (cuts_segments b)
    have cuts := cuts_of_segments_eq split
    have both := cuts.replace_behind closed (fun c hc => .inr (by simpa using hc)) comment
    rw [split] at text
    refine ⟨l, ⟨.comment .line true, '/' :: '/' :: (body ++ ['\n'])⟩, ?_, rfl, ?_, .inr ⟨_, split, rfl⟩⟩
    · rw [← both.segments_eq, ← text]
      simp
    · rw [← text]
      simp

end TokenListing.Grammar
