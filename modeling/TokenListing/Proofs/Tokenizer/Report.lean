import TokenListing.Proofs.Grammar.Concat
import TokenListing.Proofs.Grammar.Report
import TokenListing.Proofs.Tokenizer.Exhaustion
import TokenListing.Proofs.Tokenizer.Growth

set_option autoImplicit false

/-!
Steps tell what there is to tell. Each step that comes to a token tells of the comments in front of it
and of the token, and the one that comes to the end of the text tells of the comments that are left;
behind it no comment is told of again.
-/

namespace TokenListing

open Grammar Text Trace

namespace Vocabulary

theorem isSome_find?_intern (v : Vocabulary) (lexeme other : String) :
    ((v.intern lexeme).2.find? other).isSome = true ↔
      (v.find? other).isSome = true ∨ other = lexeme := by
  cases found : v.find? lexeme with
  | some e =>
    rw [intern_of_find? found]
    by_cases same : other = lexeme <;> simp [same, found]
  | none =>
    rw [intern_of_find?_none found]
    simp [find?, List.find?_append, newEntry, @eq_comm String lexeme other]

/-- The vocabulary has the reserved words and the spellings seen so far. -/
structure Knows (v : Vocabulary) (seen : List String) : Prop where
  wellFormed : v.WellFormed
  found : ∀ lexeme, (v.find? lexeme).isSome = true ↔ lexeme ∈ "true" :: "false" :: seen

theorem knows_fresh (number : Nat) : (fresh number).Knows [] where
  wellFormed := wellFormed_fresh number
  found lexeme := by simp [find?, fresh, @eq_comm String lexeme]

theorem Knows.intern {v : Vocabulary} {seen : List String} (knows : v.Knows seen) (lexeme : String) :
    (v.intern lexeme).2.Knows (seen ++ [lexeme]) where
  wellFormed := knows.wellFormed.intern lexeme
  found other := by
    rw [isSome_find?_intern, knows.found]
    simp [or_assoc]

end Vocabulary

namespace Tokenizer

theorem knows_step {t : Tokenizer} {seen : List String} (knows : t.vocabulary.Knows seen) :
    t.step.next.vocabulary.Knows (seen ++ lexemesOf t.step.value) := by
  rcases t.interns_step with ⟨same, noWord⟩ | ⟨lexeme, outcome, grown⟩
  · have none : lexemesOf t.step.value = [] := by
      unfold Step.value
      cases outcome : t.step.outcome with
      | error fault => rfl
      | ok token =>
        cases token with
        | word e => exact absurd outcome (noWord e)
        | _ => rfl
    rw [same, none, List.append_nil]
    exact knows
  · have spelled : lexemesOf t.step.value = [lexeme] := by
      simp [Step.value, outcome, Except.map, lexemesOf, Token.plain, Token.lexeme?, Token.word?,
        Vocabulary.lexeme_intern]
    rw [grown, spelled]
    exact knows.intern lexeme

theorem events_takeToken {t : Tokenizer} {seen : List String} (knows : t.vocabulary.Knows seen) :
    t.takeToken.events = toldOf seen t.startLine t.takeToken.value := by
  unfold takeToken
  split
  · unfold takeInteger
    dsimp only
    split <;> rfl
  · split
    · have found := knows.found (String.ofList (t.reader.takeRun continuesWord).1)
      simp only [takeWord, Tokenizer.found, Step.value, Except.map, toldOf, found, Token.plain,
        Token.map_word, Token.newcomer?, Token.lexeme?, Token.word?, Option.map_some,
        Vocabulary.lexeme_intern, Option.filter_some]
      by_cases old : String.ofList (t.reader.takeRun continuesWord).1 ∈ "true" :: "false" :: seen
      · simp only [old]
        simp
      · simp only [old]
        simp
    · rfl

theorem events_over_gap {t : Tokenizer} {seen : List String} {front : List Char}
    {gap more : List Segment} {s : Segment} (knows : t.vocabulary.Knows seen)
    (h : t.reader.At front (textOf (gap ++ s :: more)))
    (cuts : Cuts (textOf (gap ++ s :: more)) (gap ++ s :: more))
    (blank : ∀ g ∈ gap, g.kind.isToken = false) (token : s.kind.isToken = true) :
    t.step.events = report Placed.told seen (placed front (gap ++ [s])) := by
  obtain ⟨value, line, _⟩ := step_over_gap knows.wellFormed h cuts blank token
  obtain ⟨r, _, skipped⟩ := h.skipGap_over cuts blank token
  rw [step_of_reached skipped] at value line ⊢
  have taken := events_takeToken (t := { t with reader := r, startLine := r.line }) knows
  have told : (Placed.mk (front ++ textOf gap) s).told seen = toldOf seen r.line
      ({ t with reader := r, startLine := r.line } : Tokenizer).takeToken.value := by
    rw [Placed.told, value, Segment.events_of_isToken token, ← line]
    exact congrArg (toldOf seen · _) (startLine_takeToken _)
  rw [placed_append, report_append, report_of_gap blank, lexemes_of_gap blank, List.append_nil]
  simp [placed, report, told, Step.behind, taken]

theorem events_over_rest {t : Tokenizer} {front : List Char} {gap : List Segment}
    (h : t.reader.At front (textOf gap)) (cuts : Cuts (textOf gap) gap)
    (blank : ∀ g ∈ gap, g.kind.isToken = false) (seen : List String) :
    t.step.events = report Placed.told seen (placed front gap) := by
  obtain ⟨r, passed, _, _, _, skipped⟩ := h.skipGap_rest cuts blank
  rw [step_of_missed skipped, report_of_gap blank]

/-- All that the first steps tell. -/
def told (t : Tokenizer) : Nat → List Event
  | 0 => []
  | n + 1 => t.told n ++ (t.after n).step.events

/-- Steps come to the end of the text, since every token uses up characters. -/
theorem exists_first_end (t : Tokenizer) :
    ∃ n line, (∀ m < n, ∀ l, t.outcome m ≠ .error (.endOfInput l)) ∧
      t.outcome n = .error (.endOfInput line) := by
  induction size : t.reader.weight using Nat.strong_induction_on generalizing t with
  | _ size ih =>
    subst size
    by_cases ends : ∃ line, t.outcome 0 = .error (.endOfInput line)
    · obtain ⟨line, ends⟩ := ends
      exact ⟨0, line, by simp, ends⟩
    · rw [not_exists] at ends
      have shorter : t.step.next.reader.weight < t.reader.weight :=
        weight_step_lt fun line failed => ends line (map_eq_error_iff.mpr failed)
      have later : ∀ m, t.outcome (m + 1) = t.step.next.outcome m := by
        intro m
        rw [Nat.add_comm, outcome_add]
        rfl
      obtain ⟨n, line, going, last⟩ := ih _ shorter t.step.next rfl
      refine ⟨n + 1, line, fun m hm => ?_, (later n).trans last⟩
      cases m with
      | zero => exact ends
      | succ m =>
        rw [later]
        exact going m (Nat.lt_of_succ_lt_succ hm)

/-- So far the steps have told of the segments `done` of the text, which is what they have gone past. -/
structure Reported (t : Tokenizer) (done more : List Segment) (n : Nat) : Prop where
  past : (t.after n).Past done more n
  told : t.told n = report Placed.told [] (placed [] done)
  knows : (t.after n).vocabulary.Knows (lexemes (placed [] done))

theorem reported_ofString (number : Nat) (source : String) :
    (ofString number source).Reported [] (segments source.toList) 0 where
  past := past_ofString number source
  told := rfl
  knows := Vocabulary.knows_fresh number

theorem Reported.step {t : Tokenizer} {done more : List Segment} {n : Nat}
    (reported : t.Reported done more n) (goes : ∀ line, t.outcome n ≠ .error (.endOfInput line)) :
    ∃ gap s rest, more = gap ++ s :: rest ∧ (∀ g ∈ gap, g.kind.isToken = false) ∧
      s.kind.isToken = true ∧ (Placed.mk (textOf (done ++ gap)) s).outcome? = some (t.outcome n) ∧
      (t.after n).step.events =
        report Placed.told (lexemes (placed [] done)) (placed (textOf done) (gap ++ [s])) ∧
      t.Reported (done ++ gap ++ [s]) rest (n + 1) := by
  obtain ⟨past, told, knows⟩ := reported
  obtain ⟨gap, s, rest, rfl, blank, token, value, _, next⟩ := past.step goes
  have events := events_over_gap knows past.stands past.cuts blank token
  refine ⟨gap, s, rest, rfl, blank, token, value, events, next, ?_, ?_⟩
  · rw [Tokenizer.told, told, events, List.append_assoc done, placed_append [] done,
      report_append Placed.told []]
    rfl
  · have later := knows_step knows
    have words : lexemes (placed [] (done ++ gap ++ [s])) =
        lexemes (placed [] done) ++ lexemesOf (t.after n).step.value := by
      rw [placed_append, placed_append, lexemes_append, lexemes_append, lexemes_of_gap blank,
        List.append_nil, List.nil_append]
      rw [textOf_append] at value
      simp [lexemes, placed, Placed.lexemes, value]
    rw [words]
    exact later

theorem exists_reported_after (number : Nat) (source : String) (n : Nat)
    (going : ∀ m < n, ∀ line, (ofString number source).outcome m ≠ .error (.endOfInput line)) :
    ∃ done more, segments source.toList = done ++ more ∧
      (ofString number source).Reported done more n := by
  induction n with
  | zero => exact ⟨[], _, rfl, reported_ofString number source⟩
  | succ n ih =>
    obtain ⟨done, more, split, reported⟩ := ih fun m hm => going m (Nat.lt_succ_of_lt hm)
    obtain ⟨gap, s, rest, rfl, _, _, _, _, next⟩ := reported.step (going n (Nat.lt_succ_self n))
    exact ⟨done ++ gap ++ [s], rest, by simp [split], next⟩

/-- The places that a step in front of the end goes over: what is told of them is what it tells. -/
theorem exists_places_of_step (number : Nat) (source : String) {m : Nat}
    (going : ∀ k ≤ m, ∀ line, (ofString number source).outcome k ≠ .error (.endOfInput line)) :
    ∃ before gap p behind,
      placed [] (segments source.toList) = before ++ (gap ++ p :: behind) ∧
        (before.filter (·.segment.kind.isToken)).length = m ∧
        (∀ g ∈ gap, g.segment.kind.isToken = false) ∧ p.segment.kind.isToken = true ∧
        p.outcome? = some ((ofString number source).outcome m) ∧
        ((ofString number source).after m).step.events =
          report Placed.told (lexemes before) (gap ++ [p]) := by
  obtain ⟨done, more, split, reported⟩ :=
    exists_reported_after number source m fun k hk => going k (Nat.le_of_lt hk)
  obtain ⟨gap, s, rest, rfl, blank, token, value, events, _⟩ :=
    reported.step (going m (Nat.le_refl m))
  have here : placed (textOf done) (gap ++ [s]) =
      placed (textOf done) gap ++ [⟨textOf (done ++ gap), s⟩] := by
    rw [placed_append, textOf_append]
    rfl
  have places : placed [] (segments source.toList) = placed [] done ++
      (placed (textOf done) gap ++ ⟨textOf (done ++ gap), s⟩ ::
        placed (textOf (done ++ gap) ++ s.text) rest) := by
    rw [split, placed_append, placed_append, List.nil_append, textOf_append]
    rfl
  refine ⟨_, _, _, _, places, ?_, fun g hg => blank _ (mem_of_mem_placed hg), token, value, ?_⟩
  · rw [length_tokens_placed]
    exact reported.past.count
  · rw [events, here]

/-- The end of the text is come to only where no token is left. -/
theorem Past.blank_of_end {t : Tokenizer} {done more : List Segment} {n : Nat} {line : UInt32}
    (past : t.Past done more n) (ends : t.step.value = .error (.endOfInput line)) :
    ∀ s ∈ more, s.kind.isToken = false := by
  rcases gap_or_token more with blank | ⟨gap, s, rest, rfl, blank, token⟩
  · exact blank
  · have value := (step_over_gap past.known past.stands past.cuts blank token).1
    rw [ends] at value
    cases Segment.isEnd_of_outcomeOn? value

/-- The step that comes to the end tells of what is behind the last token. -/
theorem Reported.told_to_end {t : Tokenizer} {done more : List Segment} {n : Nat} {line : UInt32}
    (reported : t.Reported done more n) (ends : t.outcome n = .error (.endOfInput line)) :
    t.told (n + 1) = report Placed.told [] (placed [] (done ++ more)) := by
  obtain ⟨past, told, knows⟩ := reported
  rw [Tokenizer.told, told, placed_append, report_append,
    events_over_rest past.stands past.cuts (past.blank_of_end ends) (lexemes (placed [] done))]
  rfl

end Tokenizer

theorem Grammar.length_leftOver_le (l : List Segment) : (leftOver l).length ≤ 1 := by
  induction l with
  | nil => simp [leftOver]
  | cons s more ih =>
    unfold leftOver
    split
    · cases s.text.getLast? <;> simp
    · exact ih

namespace Tokenizer

/-- At most one character is left. -/
structure Spent (t : Tokenizer) : Prop where
  stands : ∃ front back, t.reader.At front back ∧ back.length ≤ 1
  knows : ∃ seen, t.vocabulary.Knows seen

/-- One character is no comment. -/
theorem Spent.step {t : Tokenizer} (spent : t.Spent) :
    (∀ e ∈ t.step.events, e.isComment = false) ∧ t.step.next.Spent := by
  obtain ⟨⟨front, back, stands, short⟩, seen, knows⟩ := spent
  obtain ⟨l, rfl, cuts⟩ := exists_cuts back
  rcases gap_or_token l with blank | ⟨gap, s, more, rfl, blank, token⟩
  · obtain ⟨_, r, passed, next, _, here⟩ := step_over_rest stands cuts blank
    rw [events_over_rest stands cuts blank seen, next]
    exact ⟨fun e => isComment_of_mem_report cuts short,
      ⟨⟨_, _, here, length_leftOver_le l⟩, seen, knows⟩⟩
  · obtain ⟨_, _, here⟩ := step_over_gap knows.wellFormed stands cuts blank token
    have events := events_over_gap knows stands cuts blank token
    have all : report Placed.told seen (placed front (gap ++ s :: more)) =
        report Placed.told seen (placed front (gap ++ [s])) ++
          report Placed.told (seen ++ lexemes (placed front (gap ++ [s])))
            (placed (front ++ textOf (gap ++ [s])) more) := by
      rw [← report_append, ← placed_append, List.append_assoc, List.singleton_append]
    refine ⟨fun e he => ?_, ⟨_, _, here, ?_⟩, _, knows_step knows⟩
    · have told : e ∈ report Placed.told seen (placed front (gap ++ s :: more)) := by
        rw [all, ← events]
        exact List.mem_append_left _ he
      exact isComment_of_mem_report cuts short told
    · simp only [textOf_append, textOf_cons, List.length_append] at short
      omega

theorem Spent.after {t : Tokenizer} (spent : t.Spent) (m : Nat) : (t.after m).Spent := by
  induction m with
  | zero => exact spent
  | succ m ih => exact ih.step.2

theorem Reported.spent {t : Tokenizer} {done more : List Segment} {n : Nat} {line : UInt32}
    (reported : t.Reported done more n) (ends : t.outcome n = .error (.endOfInput line)) :
    (t.after (n + 1)).Spent := by
  obtain ⟨past, _, knows⟩ := reported
  obtain ⟨_, r, passed, next, _, here⟩ :=
    step_over_rest past.stands past.cuts (past.blank_of_end ends)
  rw [after, next]
  exact ⟨⟨_, _, here, length_leftOver_le more⟩, _, knows⟩

end Tokenizer

namespace Grammar

theorem unclosed_mem_told {seen : List String} {p : Placed} {line : UInt32}
    (h : Event.unclosed line ∈ p.told seen) : p.segment.kind = .comment .block false := by
  rcases List.mem_append.mp h with here | there
  · cases same : p.segment.kind with
    | comment kind closed => cases kind <;> cases closed <;> simp_all [Segment.events]
    | _ => simp [Segment.events, same] at here
  · cases outcome : p.outcome? with
    | none => simp [outcome] at there
    | some value =>
      rw [outcome] at there
      cases isComment_of_mem_toldOf there

/-- The last that there is to tell of a text that ends inside a block comment. -/
theorem report_of_endsInBlock {cs : List Char} (inside : EndsInBlock cs) :
    ∃ earlier line, report Placed.told [] (placed [] (segments cs)) =
        earlier ++ [.blockComment line, .unclosed line] ∧
      ∀ l, Event.unclosed l ∉ earlier := by
  obtain ⟨s, hs, kind⟩ := inside
  obtain ⟨l, more, split⟩ := List.append_of_mem hs
  have cuts := cuts_of_segments_eq split
  obtain rfl := cuts.of_append.eq_nil_of_isOpen (by rw [kind]; rfl)
  refine ⟨report Placed.told [] (placed [] l), lineAfter (textOf l), ?_, fun line unclosed => ?_⟩
  · rw [split, placed_append, report_append, List.nil_append]
    have gap : s.kind.isToken = false := by rw [kind]; rfl
    have told := Placed.told_of_gap (p := ⟨textOf l, s⟩) gap (lexemes (placed [] l))
    simp [placed, report, told, Segment.events, kind]
  · obtain ⟨p, hp, before, told⟩ := mem_report unclosed
    have closed := cuts.isOpen_eq_false (mem_of_mem_placed hp)
    rw [unclosed_mem_told told] at closed
    cases closed

end Grammar

namespace Tokenizer

/-- The log of the steps up to the end of the text shows every comment and every token of the text once,
in their order, and each step shows what it goes over. Behind the end no comment is shown again, and at
any time as many identifiers were told of as the vocabulary holds besides the reserved words. -/
theorem log_shows_each_once (i : Nat) (source : String)
    (few : source.toList.count '\n' < UInt32.size - 1) :
    ∃ n line, (∀ m < n, ∀ l, (ofString i source).outcome m ≠ .error (.endOfInput l)) ∧
      (ofString i source).outcome n = .error (.endOfInput line) ∧
      ((ofString i source).told (n + 1)).map Event.record =
        report Placed.log [] (placed [] (segments source.toList)) ∧
      (∀ m < n, ∃ before gap p behind,
        placed [] (segments source.toList) = before ++ (gap ++ p :: behind) ∧
          (before.filter (·.segment.kind.isToken)).length = m ∧
          (∀ g ∈ gap, g.segment.kind.isToken = false) ∧ p.segment.kind.isToken = true ∧
          p.outcome? = some ((ofString i source).outcome m) ∧
          ((ofString i source).after m).step.events.map Event.record =
            report Placed.log (lexemes before) (gap ++ [p])) ∧
      (EndsInBlock source.toList → ∃ earlier l, (ofString i source).told (n + 1) =
          earlier ++ [.blockComment l, .unclosed l] ∧ ∀ k, .unclosed k ∉ earlier) ∧
      (¬EndsInBlock source.toList → ∀ l, .unclosed l ∉ (ofString i source).told (n + 1)) ∧
      (∀ m, ∀ e ∈ ((ofString i source).after (n + 1 + m)).step.events, e.isComment = false) ∧
      ∀ told u, (ofString i source).Tells told u →
        u.vocabulary.size = 2 + told.countP Event.isInterned := by
  obtain ⟨n, line, going, ends⟩ := exists_first_end (ofString i source)
  obtain ⟨done, more, split, reported⟩ := exists_reported_after i source n going
  have whole := reported.told_to_end ends
  rw [← split] at whole
  have counted : ∀ p ∈ placed [] (segments source.toList), (lineAfter p.front).toNat = p.line := by
    intro p hp
    have le := count_front_le hp '\n'
    rw [List.nil_append, (cuts_segments source.toList).textOf_eq] at le
    exact toNat_lineAfter (Nat.lt_of_le_of_lt le few)
  have shown : ∀ p ∈ placed [] (segments source.toList), ∀ seen,
      (p.told seen).map Event.record = p.log seen :=
    fun p hp seen => Placed.map_record_told (counted p hp) seen
  refine ⟨n, line, going, ends, ?_, fun m hm => ?_, fun inside => ?_, fun outside l told => ?_,
    fun m => ?_, fun told u tells => tells.size⟩
  · rw [whole, map_report shown]
  · obtain ⟨before, gap, p, behind, places, rest⟩ :=
      exists_places_of_step i source fun k hk => going k (Nat.lt_of_le_of_lt hk hm)
    obtain ⟨count, blank, token, value, events⟩ := rest
    refine ⟨before, gap, p, behind, places, count, blank, token, value, ?_⟩
    rw [events]
    refine map_report (fun q hq seen => shown q ?_ seen) _
    rw [places]
    refine List.mem_append_right _ ?_
    rcases List.mem_append.mp hq with hq | hq
    · exact List.mem_append_left _ hq
    · exact List.mem_append_right _ (List.mem_cons.mpr (.inl (List.mem_singleton.mp hq)))
  · rw [whole]
    exact report_of_endsInBlock inside
  · rw [whole] at told
    obtain ⟨p, hp, before, here⟩ := mem_report told
    exact outside ⟨p.segment, mem_of_mem_placed hp, unclosed_mem_told here⟩
  · rw [after_add]
    exact (((reported.spent ends).after m).step).1

/-- A word that comes again behind an integer that is too large, and a comment that is never closed. -/
theorem log_shows_each_once_again :
    ∃ n line, (ofString 0 "x//\n2147483648 x/*").outcome n = .error (.endOfInput line) ∧
      (((ofString 0 "x//\n2147483648 x/*").told (n + 1)).map Event.record).map Record.line =
        ["DEBUG interning identifier lexeme=\"x\"", "TRACE scanned line=1 token=IDENTIFIER x",
          "DEBUG skipping line comment line=1", "TRACE scanned line=2 token=IDENTIFIER x",
          "DEBUG skipping block comment line=2",
          "DEBUG block comment runs to end of input line=2"] := by
  obtain ⟨n, line, _, ends, shown, _⟩ :=
    log_shows_each_once 0 "x//\n2147483648 x/*" (by decide)
  refine ⟨n, line, ends, ?_⟩
  rw [shown]
  decide +kernel

end Tokenizer

end TokenListing
