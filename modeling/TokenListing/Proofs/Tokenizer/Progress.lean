import TokenListing.Proofs.Tokenizer.Lines
import TokenListing.Proofs.Tokenizer.Rounds

set_option autoImplicit false

/-!
Progress through a text. However many steps are made, the loops of each come to an end, and the steps
that do not come to the end of the text take stretches of it one behind the other. A stretch has a
character that is no blank, so these characters bound the steps that take one; with one step more
they bound the loops that list a text and that collect its tokens.
-/

namespace TokenListing

def nonBlanks (cs : List Char) : Nat := cs.countP (!isBlank ·)

namespace Tokenizer

/-- Whether the next step comes to the end of the text. -/
def atEnd (t : Tokenizer) : Bool :=
  match t.step.outcome with
  | .ok _ => false
  | .error fault => fault.isEnd

/-- How many of the first `n` steps come to something else. -/
def taken (t : Tokenizer) (n : Nat) : Nat := (List.range n).countP fun m => !(t.after m).atEnd

theorem taken_succ (t : Tokenizer) (n : Nat) :
    t.taken (n + 1) = t.taken n + if (t.after n).atEnd then 0 else 1 := by
  cases ends : (t.after n).atEnd <;> simp [taken, List.range_succ, ends]

/-- The loop that lists a text: so many steps, up to the first that gives no token. -/
inductive Lists : Nat → Tokenizer → Except Fault (List (Row Entry)) → Prop where
  | ends {t : Tokenizer} {fault : Fault} (outcome : t.step.outcome = .error fault)
      (isEnd : fault.isEnd = true) : Lists 1 t (.ok [])
  | fails {t : Tokenizer} {fault : Fault} (outcome : t.step.outcome = .error fault)
      (fails : fault.isEnd = false) : Lists 1 t (.error fault)
  | token {n : Nat} {t : Tokenizer} {token : Token Entry} {result : Except Fault (List (Row Entry))}
      (outcome : t.step.outcome = .ok token) (rest : Lists n t.step.next result) :
      Lists (n + 1) t (result.map (⟨t.step.next.startLine, token⟩ :: ·))

/-- The loop that collects the tokens of a text: so many rounds of iteration, up to the first that
gives no token. -/
inductive Collects : Nat → Tokenizer → Except Fault (List (Token Entry)) → Prop where
  | ends {t : Tokenizer} (item : t.draw.item = none) : Collects 1 t (.ok [])
  | fails {t : Tokenizer} {fault : Fault} (item : t.draw.item = some (.error fault)) :
      Collects 1 t (.error fault)
  | token {n : Nat} {t : Tokenizer} {token : Token Entry} {result : Except Fault (List (Token Entry))}
      (item : t.draw.item = some (.ok token)) (rest : Collects n t.draw.next result) :
      Collects (n + 1) t (result.map (token :: ·))

theorem moves_after (t : Tokenizer) (n : Nat) : t.reader.Moves (t.after n).reader := by
  induction n with
  | zero => exact .refl
  | succ n ih => exact ih.trans (moves_step _)

section

variable {t : Tokenizer} {source : String} {front back : List Char}

theorem Takes.atEnd_eq_false {p : Grammar.Placed} (takes : t.Takes source p back) :
    t.atEnd = false := by
  unfold atEnd
  cases outcome : t.step.outcome with
  | ok token => rfl
  | error fault => exact takes.isEnd_eq_false (map_eq_error_iff.mpr outcome)

theorem Takes.nonBlanks_lt {p : Grammar.Placed} {rest : List Char} (takes : t.Takes source p rest)
    (text : source.toList = front ++ back) (further : front <+: p.front) :
    nonBlanks rest < nonBlanks back := by
  obtain ⟨c, more, spelled, noBlank⟩ := takes.exists_first
  obtain ⟨gap, split⟩ := further
  have left : back = gap ++ (c :: more ++ rest) := by
    have whole := takes.text
    rw [text, Grammar.Placed.upTo, ← split, spelled, List.append_assoc, List.append_assoc,
      List.append_cancel_left_eq] at whole
    exact whole
  have first : nonBlanks (c :: more) = nonBlanks more + 1 := by simp [nonBlanks, noBlank]
  rw [nonBlanks] at first
  rw [left, nonBlanks, nonBlanks, List.countP_append, List.countP_append, first]
  omega

theorem Stands.takes (stands : t.Stands source front back) (going : t.atEnd = false) :
    ∃ p rest, t.Takes source p rest ∧ nonBlanks rest < nonBlanks back ∧
      t.step.next.Stands source p.upTo rest := by
  rcases stands.step with ⟨p, rest, takes, further, next⟩ | ⟨ends, _⟩
  · exact ⟨p, rest, takes, takes.nonBlanks_lt stands.text further, next⟩
  · rw [atEnd, ends] at going
    cases going

theorem Stands.ends (stands : t.Stands source front back) (last : t.atEnd = true) :
    ∃ pre post, t.step.next.Stands source pre post ∧ nonBlanks post ≤ nonBlanks back := by
  rcases stands.step with ⟨p, rest, takes, _⟩ | ⟨_, passed, left, next⟩
  · cases last.symm.trans takes.atEnd_eq_false
  · have split : back = passed ++ left := by
      have whole := next.text
      rwa [stands.text, List.append_assoc, List.append_cancel_left_eq] at whole
    refine ⟨_, left, next, ?_⟩
    rw [split, nonBlanks, nonBlanks, List.countP_append]
    exact Nat.le_add_left _ _

/-- The steps so far that took a stretch are paid for by the text that they have gone over. -/
theorem Stands.taken_le (stands : t.Stands source front back) (n : Nat) :
    ∃ pre post, (t.after n).Stands source pre post ∧
      t.taken n + nonBlanks post ≤ nonBlanks back := by
  induction n with
  | zero => exact ⟨front, back, stands, by simp [taken]⟩
  | succ n ih =>
    obtain ⟨pre, post, here, paid⟩ := ih
    cases isEnd : (t.after n).atEnd with
    | true =>
      obtain ⟨pre', post', next, fewer⟩ := here.ends isEnd
      refine ⟨pre', post', next, ?_⟩
      rw [taken_succ, isEnd, if_pos rfl]
      omega
    | false =>
      obtain ⟨p, rest, _, less, next⟩ := here.takes isEnd
      refine ⟨p.upTo, rest, next, ?_⟩
      rw [taken_succ, isEnd, if_neg Bool.false_ne_true]
      omega

/-- Both loops make one call more than there are tokens in front of the first fault. -/
theorem Stands.loops (stands : t.Stands source front back) (going : t.ended = false) :
    ∃ calls ≤ nonBlanks back + 1, Lists calls t t.run.result ∧
      Collects calls t (collect t.drain.1) := by
  induction t using run_induction generalizing front back with
  | token t token outcome ih =>
    obtain ⟨p, rest, _, less, next⟩ := stands.takes (by rw [atEnd, outcome])
    obtain ⟨calls, few, lists, collects⟩ := ih next (t.ended_step.trans going)
    have drawn := draw_of_ok going outcome
    have item : t.draw.item = some (.ok token) := by rw [drawn]
    have listed : t.run.result = t.step.next.run.result.map (⟨t.step.next.startLine, token⟩ :: ·) := by
      rw [run_of_ok outcome]
      unfold Run.result
      split <;> rfl
    have collected : collect t.drain.1 = (collect t.step.next.drain.1).map (token :: ·) := by
      rw [drain_of_some item, drawn, collect]
    rw [listed, collected]
    refine ⟨calls + 1, by omega, .token outcome lists, .token item ?_⟩
    rw [drawn]
    exact collects
  | fault t fault outcome =>
    have drawn := draw_of_error going outcome
    refine ⟨1, Nat.le_add_left 1 _, ?_⟩
    rw [run_of_error outcome, (drain_eq going).1, run_of_error outcome]
    cases isEnd : fault.isEnd with
    | true =>
      rw [Run.result, Run.items, isEnd]
      exact ⟨.ends outcome isEnd, .ends (by simp [drawn, isEnd])⟩
    | false =>
      rw [Run.result, Run.items, isEnd]
      exact ⟨.fails outcome isEnd, .fails (by simp [drawn, isEnd])⟩

end

/-- How steps get on in a text, and the two loops that are made of them. -/
structure Progress (i : Nat) (source : String) : Prop where
  rounds : ∀ n, ∃ rounds ≤ 3 * source.toList.length + 3,
    Work.Finishes rounds (.start ((ofString i source).after n)) ((ofString i source).after n).step
  takes : ∀ n, ((ofString i source).after n).atEnd = false →
    ∃ p back, ((ofString i source).after n).Takes source p back ∧ p.segment.text ≠ []
  apart : ∀ m n p q back rest, m < n → ((ofString i source).after m).Takes source p back →
    ((ofString i source).after n).Takes source q rest → p.upTo <+: q.front
  few : ∀ n, (ofString i source).taken n ≤ nonBlanks source.toList
  lists : ∃ calls ≤ nonBlanks source.toList + 1,
    Lists calls (ofString 0 source) (TokenListing.rows source)
  collects : ∃ calls ≤ nonBlanks source.toList + 1,
    Collects calls (ofString 0 source) (tokens source)

/-- Every step through a text ends, those that are not at the end of the text take stretches of it in
order, and listing and collecting end. -/
theorem steps_progress (i : Nat) (source : String) : Progress i source where
  rounds n := by
    obtain ⟨front, back, here, _⟩ := (stands_ofString i source).taken_le n
    have unread := Nat.le_trans (Reader.length_unread_le_weight _) here.reader.weight_le
    obtain ⟨rounds, few, finishes⟩ := ((ofString i source).after n).finishes_step
    have whole := congrArg List.length here.text
    rw [List.length_append] at whole
    exact ⟨rounds, by omega, finishes⟩
  takes n going := by
    obtain ⟨front, back, here, _⟩ := (stands_ofString i source).taken_le n
    obtain ⟨p, rest, takes, _⟩ := here.takes going
    exact ⟨p, rest, takes, takes.rule.text_ne_nil⟩
  apart m n p q back rest later first second := by
    obtain ⟨k, rfl⟩ := Nat.exists_eq_add_of_lt later
    refine first.before ?_ second
    rw [Nat.add_assoc, Nat.add_comm k 1, ← Nat.add_assoc, after_add]
    exact moves_after _ k
  few n := by
    obtain ⟨front, back, _, paid⟩ := (stands_ofString i source).taken_le n
    omega
  lists := by
    obtain ⟨calls, few, lists, _⟩ := (stands_ofString 0 source).loops rfl
    exact ⟨calls, few, lists⟩
  collects := by
    obtain ⟨calls, few, _, collects⟩ := (stands_ofString 0 source).loops rfl
    exact ⟨calls, few, collects⟩

end Tokenizer

end TokenListing
