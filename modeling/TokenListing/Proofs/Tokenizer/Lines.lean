import TokenListing.Proofs.Tokenizer.Rows
import TokenListing.Proofs.Tokenizer.Takes

set_option autoImplicit false

/-!
Lines. In any order of steps and rounds of iteration the line number counts the line feeds that have
been read and stays in its range; a token starts on the line of its first character, and the reader is
on that line too unless it has read the line feed behind the token.
-/

namespace TokenListing

open Grammar Text

theorem Grammar.Kind.exists_lookahead (k : Kind) (rest : List Char) :
    ∃ more, rest = k.lookahead rest ++ more := by
  unfold lookahead
  split
  · exact ⟨rest, rfl⟩
  · cases rest with
    | nil => exact ⟨[], rfl⟩
    | cons c more => exact ⟨more, rfl⟩

theorem Grammar.Kind.count_lookahead (k : Kind) (rest : List Char) :
    (k.lookahead rest).count '\n' = if k ≠ .symbol ∧ rest.head? = some '\n' then 1 else 0 := by
  unfold lookahead
  by_cases symbol : k = .symbol
  · simp [symbol]
  · cases rest with
    | nil => simp
    | cons c more => by_cases feed : c = '\n' <;> simp [symbol, feed]

namespace Tokenizer

theorem moves_takeToken (t : Tokenizer) : t.reader.Moves t.takeToken.next.reader := by
  rcases t.takeToken_cases with ⟨_, taken⟩ | ⟨_, taken⟩ | taken <;> rw [taken]
  · rw [next_takeInteger]
    exact Reader.moves_takeRun _ _
  · exact Reader.moves_takeRun _ _
  · exact .clear .refl

theorem moves_step (t : Tokenizer) : t.reader.Moves t.step.next.reader := by
  unfold step
  dsimp only
  split
  · exact t.reader.moves_skipGap.trans (moves_takeToken { t with reader := _, startLine := _ })
  · exact t.reader.moves_skipGap

/-- A step or a round of iteration, with what it gives, if anything, and the tokenizer behind it. -/
inductive Calls (t : Tokenizer) : Option (Except Fault (Token Entry)) → Tokenizer → Prop where
  | step : Calls t (some t.step.outcome) t.step.next
  | draw : Calls t t.draw.item t.draw.next

/-- Any number of calls, with what each of them gives. -/
inductive Gives (t : Tokenizer) : List (Option (Except Fault (Token Entry))) → Tokenizer → Prop where
  | nothing : Gives t [] t
  | call {given : List (Option (Except Fault (Token Entry)))}
      {item : Option (Except Fault (Token Entry))} {u v : Tokenizer} (before : Gives t given u)
      (next : u.Calls item v) : Gives t (given ++ [item]) v

/-- Neither a token nor an integer that is too large. -/
def IsIdle (item : Option (Except Fault (Token Entry))) : Prop :=
  ∀ outcome, item = some outcome → ∃ line, outcome = .error (.endOfInput line)

section

variable {source : String} {t u : Tokenizer} {item : Option (Except Fault (Token Entry))}

/-- A call goes where a step goes and gives what the step comes to, the end of the text possibly left
out, or it does nothing. -/
theorem Calls.cases (call : t.Calls item u) :
    (u.reader = t.step.next.reader ∧ u.startLine = t.step.next.startLine ∧
      u.vocabulary = t.step.next.vocabulary ∧
      (item = some t.step.outcome ∨ item = none ∧ ∃ line, t.step.outcome = .error (.endOfInput line))) ∨
    u = t ∧ item = none := by
  cases call with
  | step => exact .inl ⟨rfl, rfl, rfl, .inl rfl⟩
  | draw =>
    cases ended : t.ended with
    | true => exact .inr (by rw [draw_of_ended ended]; exact ⟨rfl, rfl⟩)
    | false =>
      cases outcome : t.step.outcome with
      | ok token => exact .inl (by rw [draw_of_ok ended outcome]; exact ⟨rfl, rfl, rfl, .inl rfl⟩)
      | error fault =>
        rw [draw_of_error ended outcome]
        cases fault with
        | endOfInput line => exact .inl ⟨rfl, rfl, rfl, .inr ⟨rfl, line, rfl⟩⟩
        | tooLarge => exact .inl ⟨rfl, rfl, rfl, .inl rfl⟩

theorem Calls.moves (call : t.Calls item u) : t.reader.Moves u.reader := by
  rcases call.cases with ⟨reader, _⟩ | ⟨rfl, _⟩
  · rw [reader]
    exact t.moves_step
  · exact .refl

theorem Calls.stands {front back : List Char} (call : t.Calls item u)
    (stands : t.Stands source front back) : ∃ front back, u.Stands source front back := by
  rcases call.cases with ⟨reader, _, vocabulary, _⟩ | ⟨rfl, _⟩
  · obtain ⟨front, back, next⟩ : ∃ front back, t.step.next.Stands source front back := stands.after 1
    exact ⟨front, back, next.text, by rw [vocabulary]; exact next.known,
      by rw [reader]; exact next.reader⟩
  · exact ⟨front, back, stands⟩

/-- A call that gives no token leaves the line of the last one and the words as they are. -/
theorem Calls.kept (call : t.Calls item u) (idle : IsIdle item) :
    u.startLine = t.startLine ∧ u.vocabulary = t.vocabulary := by
  rcases call.cases with ⟨_, startLine, vocabulary, gives⟩ | ⟨rfl, _⟩
  · obtain ⟨line, ends⟩ : ∃ line, t.step.outcome = .error (.endOfInput line) := by
      rcases gives with rfl | ⟨_, ends⟩
      · exact idle _ rfl
      · exact ends
    rw [startLine, vocabulary, (next_of_end ends).1]
    exact ⟨rfl, rfl⟩
  · exact ⟨rfl, rfl⟩

/-- How a call keeps account of the lines. No reader on its way has a line number that is out of range
or behind the one in front of the call. -/
structure Counted (source : String) (t : Tokenizer) (item : Option (Except Fault (Token Entry)))
    (u : Tokenizer) : Prop where
  moves : t.reader.Moves u.reader
  counter : ∀ r, t.reader.Moves r → t.reader.line ≤ r.line ∧
    ∃ read, source.toList = read ++ r.unread ∧ r.line.toNat = 1 + read.count '\n'
  token : ∀ outcome, item = some outcome → (∀ line, outcome ≠ .error (.endOfInput line)) →
    ∃ p back, t.Takes source p back ∧ p.outcome? = some (outcome.map Token.plain) ∧
      u.startLine.toNat = p.line ∧ (∀ fault, outcome = .error fault → fault.line = u.startLine) ∧
      u.reader.line.toNat = u.startLine.toNat +
        if p.segment.kind ≠ .symbol ∧ back.head? = some '\n' then 1 else 0
  ends : ∀ line, item = some (.error (.endOfInput line)) →
    line = u.reader.line ∧ line.toNat = 1 + source.toList.count '\n'
  kept : IsIdle item → u.startLine = t.startLine ∧ u.vocabulary = t.vocabulary

theorem Takes.lines {p : Placed} {back : List Char} (takes : t.Takes source p back)
    (few : source.toList.count '\n' < UInt32.size - 1) :
    t.step.next.startLine.toNat = p.line ∧
      t.step.next.reader.line.toNat = t.step.next.startLine.toNat +
        if p.segment.kind ≠ .symbol ∧ back.head? = some '\n' then 1 else 0 := by
  obtain ⟨more, ahead⟩ := p.segment.kind.exists_lookahead back
  have start : source.toList = p.front ++ (p.segment.text ++ back) := by
    rw [takes.text, Placed.upTo, List.append_assoc]
  have read : source.toList = p.upTo ++ p.segment.kind.lookahead back ++ more := by
    rw [takes.text, List.append_assoc, ← ahead]
  have noFeed : p.segment.text.count '\n' = 0 :=
    List.count_eq_zero_of_not_mem (takes.rule.notMem_of_isToken takes.token)
  rw [takes.startLine, takes.line, toNat_lineAfter_of_append start few,
    toNat_lineAfter_of_append read few, List.count_append, Kind.count_lookahead, Placed.upTo,
    List.count_append, noFeed, Nat.add_zero, Nat.add_assoc]
  exact ⟨rfl, rfl⟩

theorem Calls.counted {front back : List Char} (call : t.Calls item u)
    (stands : t.Stands source front back) (start : (Reader.ofString source).Moves t.reader)
    (few : source.toList.count '\n' < UInt32.size - 1) : Counted source t item u where
  moves := call.moves
  counter r moves := ⟨start.line_le moves few, (start.trans moves).line_ofString few⟩
  token outcome given noEnd := by
    rcases call.cases with ⟨reader, startLine, _, gives⟩ | ⟨_, none⟩
    · obtain rfl : outcome = t.step.outcome := by
        rcases gives with same | ⟨none, _⟩
        · exact Option.some.inj (given.symm.trans same)
        · cases given.symm.trans none
      rcases stands.step with ⟨p, rest, takes, _⟩ | ⟨ends, _⟩
      · obtain ⟨line, ahead⟩ := takes.lines few
        rw [reader, startLine]
        refine ⟨p, rest, takes, takes.outcome, line, fun fault failed => ?_, ahead⟩
        have outcome : p.outcome? = some (.error fault) := by
          rw [takes.outcome, Step.value, failed]
          rfl
        rw [(Segment.eq_tooLarge_of_outcomeOn? outcome).2, takes.startLine]
        rfl
      · exact absurd ends (noEnd _)
    · cases given.symm.trans none
  ends line given := by
    rcases call.cases with ⟨reader, _, _, gives⟩ | ⟨_, none⟩
    · have ends : t.step.outcome = .error (.endOfInput line) := by
        rcases gives with same | ⟨none, _⟩
        · exact Option.some.inj (same.symm.trans given)
        · cases given.symm.trans none
      obtain ⟨next, here⟩ := next_of_end ends
      refine ⟨by rw [reader, next]; exact here, ?_⟩
      rcases stands.step with ⟨p, rest, takes, _⟩ | ⟨last, _⟩
      · cases takes.isEnd_eq_false (map_eq_error_iff.mpr ends)
      · cases ends.symm.trans last
        exact toNat_lineAfter few
    · cases given.symm.trans none
  kept := call.kept

/-- What any calls keep. -/
structure Kept (t : Tokenizer) (source : String) (given : List (Option (Except Fault (Token Entry)))) :
    Prop where
  stands : ∃ front back, t.Stands source front back
  moves : (Reader.ofString source).Moves t.reader
  startLine : (∀ item ∈ given, IsIdle item) → t.startLine = 1

theorem Gives.kept {i : Nat} {given : List (Option (Except Fault (Token Entry)))}
    (gives : (ofString i source).Gives given t) : t.Kept source given := by
  induction gives with
  | nothing => exact ⟨⟨_, _, stands_ofString i source⟩, .refl, fun _ => rfl⟩
  | @call given item u v before next ih =>
    obtain ⟨⟨front, back, stands⟩, moves, startLine⟩ := ih
    refine ⟨next.stands stands, moves.trans next.moves, fun idle => ?_⟩
    rw [List.forall_mem_append] at idle
    rw [(next.kept (idle.2 item List.mem_cons_self)).1]
    exact startLine idle.1

end

/-- Whatever calls were made of a tokenizer, the next one keeps account of the lines, and up to the
first token it says that tokens start on the first line. -/
theorem lines_accounted (i : Nat) (source : String)
    (few : source.toList.count '\n' < UInt32.size - 1)
    {given : List (Option (Except Fault (Token Entry)))} {t : Tokenizer}
    (gives : (ofString i source).Gives given t) :
    ((∀ item ∈ given, IsIdle item) → t.startLine = 1) ∧
      ∀ item u, t.Calls item u → Counted source t item u := by
  obtain ⟨⟨front, back, stands⟩, moves, startLine⟩ := gives.kept
  exact ⟨startLine, fun item u call => call.counted stands moves few⟩

/-- Behind an integer that is too large the reader is on the next line already. -/
theorem lines_accounted_tooLarge :
    Counted "a\n\n99999999999\n/*b" ((ofString 0 "a\n\n99999999999\n/*b").after 1)
        (some (.error (.tooLarge "99999999999" 3 3 .placeholder)))
        ((ofString 0 "a\n\n99999999999\n/*b").after 2) ∧
      ((ofString 0 "a\n\n99999999999\n/*b").after 2).startLine = 3 ∧
      ((ofString 0 "a\n\n99999999999\n/*b").after 2).reader.line = 4 := by
  have second : ((ofString 0 "a\n\n99999999999\n/*b").after 1).step.outcome =
      .error (.tooLarge "99999999999" 3 3 .placeholder) := by decide +kernel
  have counted := (lines_accounted 0 "a\n\n99999999999\n/*b" (by decide) (.call .nothing .step)).2
    _ _ .step
  rw [← second]
  exact ⟨counted, by decide +kernel, by decide +kernel⟩

end Tokenizer

end TokenListing
