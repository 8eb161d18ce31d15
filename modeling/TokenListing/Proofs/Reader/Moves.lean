import TokenListing.Proofs.Reader.Position
import TokenListing.Reader.Gap

set_option autoImplicit false

/-!
The moves of a reader. Searches, runs and gaps are made of two of them: a reader reads the next
character, or it lets go of the pending one. So what both moves keep holds of all the readers on the
way.
-/

namespace TokenListing

namespace Reader

/-- Any number of moves leads from one reader to another. -/
inductive Moves (r : Reader) : Reader → Prop where
  | refl : Moves r r
  | take {s : Reader} {c : Char} {rest : List Char} (before : Moves r s) (more : s.unread = c :: rest) :
      Moves r (s.take c rest)
  | clear {s : Reader} (before : Moves r s) : Moves r s.clear

theorem Moves.trans {r s t : Reader} (first : r.Moves s) (second : s.Moves t) : r.Moves t := by
  induction second with
  | refl => exact first
  | take _ more ih => exact .take ih more
  | clear _ ih => exact .clear ih

theorem moves_step (r : Reader) : r.Moves r.step := by
  cases more : r.unread with
  | nil =>
    rw [step_nil more]
    exact .clear .refl
  | cons c rest =>
    rw [step_cons more]
    exact .take .refl more

theorem moves_steps (n : Nat) (r : Reader) : r.Moves (r.steps n) := by
  induction n generalizing r with
  | zero => exact .refl
  | succ n ih => exact r.moves_step.trans (ih r.step)

theorem moves_takeRun (p : Char → Bool) (r : Reader) : r.Moves (r.takeRun p).2 :=
  moves_steps _ r

theorem moves_seek (p : Reader → Bool) (r : Reader) : r.Moves (r.seek p).2 := by
  fun_induction seek p r with
  | case1 r holds => exact .refl
  | case2 r _ _ => exact .refl
  | case3 r _ c rest more ih => exact Moves.trans (.take .refl more) ih

theorem moves_skipComment (r : Reader) (kind : CommentKind) :
    r.Moves (r.skipComment kind).reader := by
  cases kind with
  | line => exact moves_seek _ r
  | block =>
    have searched : r.Moves (r.step.seek (·.looksAt '*' '/')).2 := r.moves_step.trans (moves_seek _ _)
    simp only [skipComment, skipBlockComment]
    split
    · exact .clear (searched.trans (moves_step _))
    · exact searched

theorem moves_skipGap (r : Reader) : r.Moves r.skipGap.reader := by
  fun_induction skipGap r with
  | case1 r blanks found opens => exact moves_seek _ r
  | case2 r blanks found kind opens comment reached rest ih =>
    exact (moves_seek _ r).trans ((moves_skipComment _ kind).trans ih)
  | case3 r blanks found kind opens comment open_ =>
    exact (moves_seek _ r).trans (moves_skipComment _ kind)
  | case4 r blanks missed => exact moves_seek _ r

/-- What is read is the front of what was unread, and the line is counted on over it. -/
theorem Moves.exists_read {r s : Reader} (moves : r.Moves s) {front : List Char}
    (line : r.line = lineAfter front) :
    ∃ read, r.unread = read ++ s.unread ∧ s.line = lineAfter (front ++ read) := by
  induction moves with
  | refl => exact ⟨[], rfl, by rw [line, List.append_nil]⟩
  | @take s c rest _ more ih =>
    obtain ⟨read, split, here⟩ := ih
    refine ⟨read ++ [c], by simp [split, more], ?_⟩
    rw [← List.append_assoc, lineAfter_concat, ← here]
    rfl
  | clear _ ih => exact ih

/-- From the start of a text on, no move takes the line number out of its range. -/
theorem Moves.line_ofString {source : String} {r : Reader} (moves : (ofString source).Moves r)
    (few : source.toList.count '\n' < UInt32.size - 1) :
    ∃ read, source.toList = read ++ r.unread ∧ r.line.toNat = 1 + read.count '\n' := by
  have first : (ofString source).line = lineAfter [] := rfl
  obtain ⟨read, split, line⟩ := moves.exists_read first
  refine ⟨read, split, ?_⟩
  rw [line, List.nil_append]
  exact toNat_lineAfter_of_append split few

theorem Moves.line_le {source : String} {r s : Reader} (start : (ofString source).Moves r)
    (moves : r.Moves s) (few : source.toList.count '\n' < UInt32.size - 1) : r.line ≤ s.line := by
  have first : (ofString source).line = lineAfter [] := rfl
  obtain ⟨read, split, here⟩ := start.exists_read first
  obtain ⟨more, later, there⟩ := moves.exists_read here
  have text : source.toList = read ++ more ++ s.unread := by
    rw [List.append_assoc, ← later]
    exact split
  rw [UInt32.le_iff_toNat_le, here, there, List.nil_append, toNat_lineAfter_of_append split few,
    toNat_lineAfter_of_append text few, List.count_append]
  omega

theorem Moves.weight_le {r s : Reader} (moves : r.Moves s) : s.weight ≤ r.weight := by
  induction moves with
  | refl => exact Nat.le_refl _
  | take _ more ih =>
    exact Nat.le_trans (weight_take_le more) (Nat.le_trans (length_unread_le_weight _) ih)
  | clear _ ih =>
    rw [weight_clear]
    exact Nat.le_trans (length_unread_le_weight _) ih

theorem At.weight_le {r : Reader} {front back : List Char} (h : r.At front back) :
    r.weight ≤ back.length := by
  cases h with
  | holding h =>
    rw [← h.text, weight, List.length_cons]
    split <;> omega
  | idling h => simp [weight, h.text, h.blank]

theorem Holds.weight_eq {r : Reader} {front rest : List Char} {c : Char}
    (h : r.Holds front (c :: rest)) (noBlank : isBlank c = false) : r.weight = rest.length + 1 := by
  simp [weight, h.pending_eq, h.unread_eq, noBlank]

end Reader

end TokenListing
