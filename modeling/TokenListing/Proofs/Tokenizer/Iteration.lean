import TokenListing.Proofs.Tokenizer.Calls

set_option autoImplicit false

/-!
Ways through a text. Steps up to the first fault, a run and iteration come to the same tokens and the
same fault, whatever number the vocabulary goes by: what a step comes to depends on the reader alone.
-/

namespace TokenListing

namespace Token

/-- The tokens at two places of a list carry the very same entry. -/
def Shares (l : List (Token Entry)) (a b : Nat) : Prop :=
  ∃ x y, l[a]? = some x ∧ l[b]? = some y ∧ x.sharesEntry y = true

/-- The same tokens by value, and the same of them share entries. -/
structure Matches (l m : List (Token Entry)) : Prop where
  values : l.map plain = m.map plain
  shared : ∀ a b, Shares l a b ↔ Shares m a b

end Token

/-- The words among some tokens are entries of the vocabulary. -/
def Vocabulary.Covers (v : Vocabulary) (l : List (Token Entry)) : Prop :=
  ∀ e, .word e ∈ l → e ∈ v.entries

namespace Vocabulary.WellFormed

variable {v : Vocabulary} {l : List (Token Entry)} (known : v.WellFormed)

include known

theorem sharesEntry_iff (covers : v.Covers l) {x y : Token Entry} (hx : x ∈ l) (hy : y ∈ l) :
    x.sharesEntry y = true ↔ ∃ w, x.plain = .word w ∧ y.plain = .word w := by
  constructor
  · intro shares
    match x, y with
    | .word a, .word b =>
      have same : a = b := known.eq_of_id (covers a hx) (covers b hy) (eq_of_beq shares)
      exact ⟨a.word, rfl, by rw [same]; rfl⟩
  · rintro ⟨w, here, there⟩
    match x, y with
    | .word a, .word b =>
      obtain rfl : a.word = w := Token.word.inj here
      have words : b.word = a.word := Token.word.inj there
      have same : a = b := known.eq_of_lexeme (covers a hx) (covers b hy) (by rw [words])
      simp [Token.sharesEntry, same]

/-- Which tokens of one vocabulary share entries is told by their values. -/
theorem shares_iff (covers : v.Covers l) (a b : Nat) :
    Token.Shares l a b ↔
      ∃ w, (l.map Token.plain)[a]? = some (.word w) ∧ (l.map Token.plain)[b]? = some (.word w) := by
  simp only [Token.Shares, List.getElem?_map, Option.map_eq_some_iff]
  constructor
  · rintro ⟨x, y, hx, hy, shares⟩
    obtain ⟨w, here, there⟩ := (known.sharesEntry_iff covers (List.mem_of_getElem? hx)
      (List.mem_of_getElem? hy)).mp shares
    exact ⟨w, ⟨x, hx, here⟩, y, hy, there⟩
  · rintro ⟨w, ⟨x, hx, here⟩, y, hy, there⟩
    exact ⟨x, y, hx, hy, (known.sharesEntry_iff covers (List.mem_of_getElem? hx)
      (List.mem_of_getElem? hy)).mpr ⟨w, here, there⟩⟩

theorem matches_of_values {w : Vocabulary} {m : List (Token Entry)} (other : w.WellFormed)
    (covers : v.Covers l) (covered : w.Covers m) (values : l.map Token.plain = m.map Token.plain) :
    Token.Matches l m where
  values := values
  shared a b := by rw [known.shares_iff covers, other.shares_iff covered, values]

end Vocabulary.WellFormed

def Run.items (r : Run) : List (Except Fault (Token Entry)) :=
  r.rows.map (.ok ·.token) ++ if r.fault.isEnd then [] else [.error r.fault]

namespace Tokenizer

/-- Two tokenizers at one place of a text. Their vocabularies may differ. -/
structure Alike (t u : Tokenizer) : Prop where
  reader : t.reader = u.reader
  startLine : t.startLine = u.startLine
  known : t.vocabulary.WellFormed
  other : u.vocabulary.WellFormed

theorem alike_ofString (i j : Nat) (source : String) : Alike (ofString i source) (ofString j source) :=
  ⟨rfl, rfl, Vocabulary.wellFormed_fresh i, Vocabulary.wellFormed_fresh j⟩

theorem Alike.takeToken {t u : Tokenizer} (alike : Alike t u) :
    t.takeToken.value = u.takeToken.value ∧ Alike t.takeToken.next u.takeToken.next := by
  obtain ⟨r, v, l, e⟩ := t
  obtain ⟨s, w, m, f⟩ := u
  obtain ⟨rfl, rfl, known, other⟩ := alike
  unfold Tokenizer.takeToken
  dsimp only
  split
  · unfold takeInteger
    dsimp only
    split <;> exact ⟨rfl, rfl, rfl, known, other⟩
  · split
    · refine ⟨?_, rfl, rfl, known.intern _, other.intern _⟩
      simp [takeWord, found, Step.value, Except.map, Token.plain, known.word_intern,
        other.word_intern]
    · exact ⟨rfl, rfl, rfl, known, other⟩

theorem Alike.step {t u : Tokenizer} (alike : Alike t u) :
    t.step.value = u.step.value ∧ Alike t.step.next u.step.next := by
  obtain ⟨reader, startLine, known, other⟩ := alike
  unfold Tokenizer.step
  rw [reader]
  dsimp only
  split
  · exact Alike.takeToken ⟨rfl, rfl, known, other⟩
  · exact ⟨rfl, rfl, startLine, known, other⟩

theorem ended_takeToken (t : Tokenizer) : t.takeToken.next.ended = t.ended := by
  rcases t.takeToken_cases with ⟨_, taken⟩ | ⟨_, taken⟩ | taken <;> rw [taken]
  · rw [next_takeInteger]
  · rfl
  · rfl

theorem ended_step (t : Tokenizer) : t.step.next.ended = t.ended := by
  unfold step
  dsimp only
  split
  · exact ended_takeToken { t with reader := _, startLine := _ }
  · rfl

theorem draw_of_ended {t : Tokenizer} (ended : t.ended = true) : t.draw = ⟨none, t, []⟩ := by
  simp [draw, ended]

theorem draw_of_ok {t : Tokenizer} {token : Token Entry} (going : t.ended = false)
    (outcome : t.step.outcome = .ok token) :
    t.draw = ⟨some (.ok token), t.step.next, t.step.events⟩ := by
  simp [draw, going, outcome]

theorem draw_of_error {t : Tokenizer} {fault : Fault} (going : t.ended = false)
    (outcome : t.step.outcome = .error fault) :
    t.draw = ⟨if fault.isEnd then none else some (.error fault),
      { t.step.next with ended := true }, t.step.events⟩ := by
  simp [draw, going, outcome]

/-- A run is as long as its steps give tokens. -/
@[elab_as_elim]
theorem run_induction {motive : Tokenizer → Prop}
    (token : ∀ t token, t.step.outcome = .ok token → motive t.step.next → motive t)
    (fault : ∀ t fault, t.step.outcome = .error fault → motive t) (t : Tokenizer) : motive t := by
  induction t using run.induct with
  | case1 t s found outcome ih => exact token t found outcome ih
  | case2 t s found outcome => exact fault t found outcome

/-- Iteration comes to what a run does, and is over for good. -/
theorem drain_eq {t : Tokenizer} (going : t.ended = false) :
    t.drain.1 = t.run.items ∧ t.drain.2.ended = true := by
  induction t using run_induction with
  | token t token outcome ih =>
    have next := draw_of_ok going outcome
    have item : t.draw.item = some (.ok token) := by rw [next]
    obtain ⟨items, done⟩ := ih (t.ended_step.trans going)
    rw [drain_of_some item, next, run_of_ok outcome]
    exact ⟨by simp [items, Run.items], done⟩
  | fault t fault outcome =>
    have next := draw_of_error going outcome
    rw [run_of_error outcome]
    cases ends : fault.isEnd with
    | true =>
      have item : t.draw.item = none := by simp [next, ends]
      rw [drain_of_none item, next]
      exact ⟨by simp [Run.items, ends], rfl⟩
    | false =>
      have item : t.draw.item = some (.error fault) := by simp [next, ends]
      -- The fault is an item of its own; it is the round behind it that ends the iteration.
      have last : t.draw.next.draw = ⟨none, t.draw.next, []⟩ := draw_of_ended (by rw [next])
      rw [drain_of_some item, drain_of_none (by rw [last]), last, next]
      exact ⟨by simp [Run.items, ends], rfl⟩

theorem Alike.run {t u : Tokenizer} (alike : Alike t u) :
    t.run.rows.map Row.plain = u.run.rows.map Row.plain ∧ t.run.fault = u.run.fault := by
  induction t using run_induction generalizing u with
  | token t token outcome ih =>
    obtain ⟨value, next⟩ := alike.step
    obtain ⟨rows, fault⟩ := ih next
    rw [Step.value, outcome] at value
    obtain ⟨other, there, plain⟩ := map_eq_ok_iff.mp value.symm
    rw [run_of_ok outcome, run_of_ok there]
    exact ⟨by simp [rows, Row.plain, plain, next.startLine], fault⟩
  | fault t fault outcome =>
    have value := alike.step.1
    rw [Step.value, outcome] at value
    rw [run_of_error outcome, run_of_error (map_eq_error_iff.mp value.symm)]
    exact ⟨rfl, rfl⟩

theorem mem_entries_step {t : Tokenizer} {e : Entry} (he : e ∈ t.vocabulary.entries) :
    e ∈ t.step.next.vocabulary.entries := by
  rcases t.interns_step with ⟨same, _⟩ | ⟨lexeme, _, grown⟩
  · rwa [same]
  · rw [grown]
    exact Vocabulary.mem_entries_intern_iff.mpr (.inl he)

theorem mem_entries_of_outcome {t : Tokenizer} {e : Entry} (outcome : t.step.outcome = .ok (.word e)) :
    e ∈ t.step.next.vocabulary.entries := by
  rcases t.interns_step with ⟨_, none⟩ | ⟨lexeme, given, grown⟩
  · exact absurd outcome (none e)
  · cases outcome.symm.trans given
    rw [grown]
    exact Vocabulary.mem_intern _ lexeme

/-- The words of a run are entries of one vocabulary, the one that it ends with. -/
theorem exists_covers_run {t : Tokenizer} (known : t.vocabulary.WellFormed) :
    ∃ v : Vocabulary, v.WellFormed ∧ (∀ e ∈ t.vocabulary.entries, e ∈ v.entries) ∧
      v.Covers (t.run.rows.map Row.token) := by
  induction t using run_induction with
  | token t token outcome ih =>
    obtain ⟨v, wellFormed, kept, covers⟩ := ih (wellFormed_step known)
    refine ⟨v, wellFormed, fun e he => kept e (mem_entries_step he), fun e he => ?_⟩
    rw [run_of_ok outcome] at he
    rcases List.mem_cons.mp he with rfl | he
    · exact kept e (mem_entries_of_outcome outcome)
    · exact covers e he
  | fault t fault outcome =>
    refine ⟨t.vocabulary, known, fun e he => he, ?_⟩
    simp [run_of_error outcome, Vocabulary.Covers]

/-- Up to its first fault a tokenizer gives these tokens, each with the line that is read behind its
step. -/
structure FirstFault (t : Tokenizer) (given : List (Row Entry)) (fault : Fault) : Prop where
  rows : ∀ (m : Nat) (row : Row Entry), given[m]? = some row →
    (t.after m).step.outcome = .ok row.token ∧ (t.after (m + 1)).startLine = row.line
  fault : (t.after given.length).step.outcome = .error fault

theorem firstFault_run (t : Tokenizer) : t.FirstFault t.run.rows t.run.fault := by
  induction t using run_induction with
  | token t token outcome ih =>
    have later : ∀ m, t.after (m + 1) = t.step.next.after m := by
      intro m
      rw [Nat.add_comm, after_add]
      rfl
    rw [run_of_ok outcome]
    refine ⟨fun m row hm => ?_, ?_⟩
    · cases m with
      | zero =>
        cases hm
        exact ⟨outcome, rfl⟩
      | succ m =>
        rw [later, later]
        exact ih.rows m row hm
    · rw [List.length_cons, later]
      exact ih.fault
  | fault t fault outcome =>
    rw [run_of_error outcome]
    exact ⟨by simp, outcome⟩

/-- Steps and rounds of iteration, in any order, lead from one tokenizer to another. -/
inductive Reaches (t : Tokenizer) : Tokenizer → Prop where
  | refl : Reaches t t
  | step {u : Tokenizer} (reached : Reaches t u) : Reaches t u.step.next
  | draw {u : Tokenizer} (reached : Reaches t u) : Reaches t u.draw.next

/-- A round of iteration is a step or nothing, so that steps alone lead to the same place. -/
theorem Reaches.exists_alike {t u : Tokenizer} (known : t.vocabulary.WellFormed)
    (reached : t.Reaches u) : ∃ n, Alike (t.after n) u := by
  induction reached with
  | refl => exact ⟨0, rfl, rfl, known, known⟩
  | step reached ih =>
    obtain ⟨n, alike⟩ := ih
    exact ⟨n + 1, alike.step.2⟩
  | @draw u reached ih =>
    obtain ⟨n, alike⟩ := ih
    cases ended : u.ended with
    | true =>
      rw [draw_of_ended ended]
      exact ⟨n, alike⟩
    | false =>
      -- The mark that a round leaves on the tokenizer is one that no step looks at.
      obtain ⟨_, next⟩ := alike.step
      refine ⟨n + 1, ?_⟩
      cases outcome : u.step.outcome with
      | ok token =>
        rw [draw_of_ok ended outcome]
        exact next
      | error fault =>
        rw [draw_of_error ended outcome]
        exact ⟨next.reader, next.startLine, next.known, next.other⟩

end Tokenizer

theorem collect_map_ok (l : List (Token Entry)) (more : List (Except Fault (Token Entry))) :
    collect (l.map .ok ++ more) = (collect more).map (l ++ ·) := by
  induction l with
  | nil =>
    cases h : collect more <;> simp [h, Except.map]
  | cons token l ih =>
    simp only [List.map_cons, List.cons_append, collect, ih]
    cases collect more <;> rfl

theorem Run.collect_items (r : Run) : collect r.items = r.result.map (List.map Row.token) := by
  have split : r.items = (r.rows.map Row.token).map .ok ++
      if r.fault.isEnd then [] else [.error r.fault] := by
    simp [Run.items]
  rw [split, collect_map_ok, Run.result]
  split <;> simp [collect, Except.map]

theorem tokens_eq_rows (source : String) :
    tokens source = (rows source).map (List.map Row.token) := by
  rw [tokens, (Tokenizer.drain_eq rfl).1, Run.collect_items]
  rfl

namespace Tokenizer

theorem Alike.matches_run {t u : Tokenizer} (alike : Alike t u) :
    Token.Matches (t.run.rows.map Row.token) (u.run.rows.map Row.token) := by
  obtain ⟨v, known, _, covers⟩ := exists_covers_run alike.known
  obtain ⟨w, other, _, covered⟩ := exists_covers_run alike.other
  refine known.matches_of_values other covers covered ?_
  have values := congrArg (List.map Row.token) alike.run.1
  simpa [Row.plain, Function.comp_def] using values

/-- Rows, tokens and items are what single steps give up to the first fault, and the end of the text is
a fault of the steps alone. -/
theorem ways_agree (i j : Nat) (source : String) :
    ∃ given fault, (ofString i source).FirstFault given fault ∧
      (fault.isEnd = true ∧
          (∃ listed, rows source = .ok listed ∧ listed.map Row.plain = given.map Row.plain ∧
            Token.Matches (listed.map Row.token) (given.map Row.token)) ∧
          (∃ all, tokens source = .ok all ∧ Token.Matches all (given.map Row.token)) ∧
          (∃ drawn, (ofString j source).drain.1 = drawn.map .ok ∧
            Token.Matches drawn (given.map Row.token)) ∨
        fault.isEnd = false ∧ rows source = .error fault ∧ tokens source = .error fault ∧
          ∃ drawn, (ofString j source).drain.1 = drawn.map .ok ++ [.error fault] ∧
            Token.Matches drawn (given.map Row.token)) ∧
      (ofString j source).drain.2.draw.item = none := by
  have first := alike_ofString 0 i source
  have drawn := alike_ofString j i source
  obtain ⟨items, finished⟩ := drain_eq (t := ofString j source) rfl
  have split : (ofString j source).run.items =
      ((ofString j source).run.rows.map Row.token).map .ok ++
        if (ofString i source).run.fault.isEnd then [] else [.error (ofString i source).run.fault] := by
    rw [← drawn.run.2]
    simp [Run.items]
  refine ⟨_, _, firstFault_run (ofString i source), ?_, by rw [draw_of_ended finished]⟩
  rw [items, split]
  cases ends : (ofString i source).run.fault.isEnd with
  | true =>
    have listed : rows source = .ok (ofString 0 source).run.rows := by
      rw [rows, Run.result, first.run.2, ends, if_pos rfl]
    refine .inl ⟨rfl, ⟨_, listed, first.run.1, first.matches_run⟩, ?_, ?_⟩
    · exact ⟨_, by rw [tokens_eq_rows, listed]; rfl, first.matches_run⟩
    · exact ⟨_, by simp, drawn.matches_run⟩
  | false =>
    have failed : rows source = .error (ofString i source).run.fault := by
      rw [rows, Run.result, first.run.2, ends, if_neg Bool.false_ne_true]
    refine .inr ⟨rfl, failed, ?_, _, by simp, drawn.matches_run⟩
    rw [tokens_eq_rows, failed]
    rfl

end Tokenizer

end TokenListing
