import TokenListing.Proofs.Vocabulary
import TokenListing.Tokenizer.Basic

set_option autoImplicit false

/-!
What steps do to the vocabulary. A step that gives a word interns its spelling, and no other step
touches the vocabulary.
-/

namespace TokenListing.Tokenizer

/-- A step with its outcome and the vocabulary behind it, given the vocabulary in front of it. -/
def Interns (v : Vocabulary) (s : Step) : Prop :=
  (s.next.vocabulary = v ∧ ∀ e, s.outcome ≠ .ok (.word e)) ∨
    ∃ lexeme, s.outcome = .ok (.word (v.intern lexeme).1) ∧ s.next.vocabulary = (v.intern lexeme).2

theorem interns_takeInteger (t : Tokenizer) : Interns t.vocabulary t.takeInteger := by
  left
  unfold takeInteger
  dsimp only
  split <;> exact ⟨rfl, fun e h => by cases h⟩

theorem interns_takeWord (t : Tokenizer) : Interns t.vocabulary t.takeWord :=
  .inr ⟨_, rfl, rfl⟩

theorem interns_takeSymbol (t : Tokenizer) : Interns t.vocabulary t.takeSymbol :=
  .inl ⟨rfl, fun e h => by cases h⟩

theorem interns_takeToken (t : Tokenizer) : Interns t.vocabulary t.takeToken := by
  rcases t.takeToken_cases with ⟨_, taken⟩ | ⟨_, taken⟩ | taken <;> rw [taken]
  · exact t.interns_takeInteger
  · exact t.interns_takeWord
  · exact t.interns_takeSymbol

theorem interns_step (t : Tokenizer) : Interns t.vocabulary t.step := by
  unfold step
  dsimp only
  split
  · exact interns_takeToken { t with reader := _, startLine := _ }
  · exact .inl ⟨rfl, fun e h => by cases h⟩

theorem wellFormed_step {t : Tokenizer} (known : t.vocabulary.WellFormed) :
    t.step.next.vocabulary.WellFormed := by
  rcases t.interns_step with ⟨same, _⟩ | ⟨lexeme, _, grown⟩
  · rwa [same]
  · rw [grown]
    exact known.intern lexeme

end TokenListing.Tokenizer
