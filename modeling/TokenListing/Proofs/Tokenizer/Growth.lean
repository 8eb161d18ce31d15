import TokenListing.Proofs.Tokenizer.Iteration

set_option autoImplicit false

/-!
Identifiers that are told of. Whatever calls are made of a tokenizer, it tells of an identifier exactly
when its vocabulary grows by it.
-/

namespace TokenListing

open Trace

def Trace.Event.isInterned : Event → Bool
  | .interned _ => true
  | _ => false

namespace Tokenizer

/-- Steps and rounds of iteration, in any order, and all that they tell. -/
inductive Tells (t : Tokenizer) : List Event → Tokenizer → Prop where
  | nothing : Tells t [] t
  | step {told : List Event} {u : Tokenizer} (before : Tells t told u) :
      Tells t (told ++ u.step.events) u.step.next
  | draw {told : List Event} {u : Tokenizer} (before : Tells t told u) :
      Tells t (told ++ u.draw.events) u.draw.next

end Tokenizer

theorem Reader.isInterned_skipComment {r : Reader} {kind : CommentKind} {e : Event}
    (h : e ∈ (r.skipComment kind).events) : e.isInterned = false := by
  cases kind with
  | line =>
    obtain rfl := List.mem_singleton.mp h
    rfl
  | block =>
    simp only [skipComment, skipBlockComment] at h
    split at h
    · obtain rfl := List.mem_singleton.mp h
      rfl
    · rcases List.mem_cons.mp h with rfl | h
      · rfl
      · obtain rfl := List.mem_singleton.mp h
        rfl

theorem Reader.isInterned_skipGap {r : Reader} {e : Event} (h : e ∈ r.skipGap.events) :
    e.isInterned = false := by
  fun_induction skipGap r with
  | case1 r blanks found opens => cases h
  | case2 r blanks found kind opens comment reached rest ih =>
    rcases List.mem_append.mp h with here | later
    · exact isInterned_skipComment here
    · exact ih later
  | case3 r blanks found kind opens comment open_ => exact isInterned_skipComment h
  | case4 r blanks missed => cases h

namespace Tokenizer

theorem size_takeWord (t : Tokenizer) :
    t.takeWord.next.vocabulary.size =
      t.vocabulary.size + t.takeWord.events.countP Event.isInterned := by
  cases known : t.vocabulary.find? (String.ofList (t.reader.takeRun continuesWord).1) with
  | some e =>
    simp only [takeWord, found, known, Vocabulary.intern_of_find? known]
    rfl
  | none =>
    simp only [takeWord, found, known, Vocabulary.intern_of_find?_none known]
    simp only [Vocabulary.size, List.length_append]
    rfl

/-- The vocabulary grows by one entry for each identifier that is told of. -/
theorem size_takeToken (t : Tokenizer) :
    t.takeToken.next.vocabulary.size =
      t.vocabulary.size + t.takeToken.events.countP Event.isInterned := by
  rcases t.takeToken_cases with ⟨_, taken⟩ | ⟨_, taken⟩ | taken <;> rw [taken]
  · unfold takeInteger
    dsimp only
    split <;> rfl
  · exact t.size_takeWord
  · rfl

theorem size_step (t : Tokenizer) :
    t.step.next.vocabulary.size = t.vocabulary.size + t.step.events.countP Event.isInterned := by
  have silent : t.reader.skipGap.events.countP Event.isInterned = 0 := by
    rw [List.countP_eq_zero]
    intro e he
    simp [Reader.isInterned_skipGap he]
  unfold step
  dsimp only
  split
  · rw [List.countP_append, silent, Nat.zero_add]
    exact size_takeToken { t with reader := _, startLine := _ }
  · rw [silent]
    rfl

theorem size_draw (t : Tokenizer) :
    t.draw.next.vocabulary.size = t.vocabulary.size + t.draw.events.countP Event.isInterned := by
  have stepped := t.size_step
  cases ended : t.ended with
  | true =>
    rw [draw_of_ended ended]
    rfl
  | false =>
    cases outcome : t.step.outcome with
    | ok token => rwa [draw_of_ok ended outcome]
    | error fault => rwa [draw_of_error ended outcome]

theorem Tells.size {t u : Tokenizer} {told : List Event} (tells : t.Tells told u) :
    u.vocabulary.size = t.vocabulary.size + told.countP Event.isInterned := by
  induction tells with
  | nothing => rfl
  | step before ih => rw [size_step, ih, List.countP_append, Nat.add_assoc]
  | draw before ih => rw [size_draw, ih, List.countP_append, Nat.add_assoc]

end Tokenizer

end TokenListing
