import TokenListing.Proofs.Tokenizer.Words
import TokenListing.Session

set_option autoImplicit false

/-!
Histories of sessions: steps and rounds of iteration of the tokenizers in any order, and which of them
gave which token. What a vocabulary holds besides the reserved words is what its tokenizer gave.
-/

namespace TokenListing

inductive Call where
  | step (k : Nat)
  | draw (k : Nat)
  deriving DecidableEq, Repr

def Call.tokenizer : Call → Nat
  | .step k | .draw k => k

/-- The outcome of a call, if there is one, and the session behind it. A call of a tokenizer that is
not there does nothing. -/
def Session.call (s : Session) : Call → Option (Except Fault (Token Entry)) × Session
  | .step k =>
    match s.step? k with
    | some (outcome, next) => (some outcome, next)
    | none => (none, s)
  | .draw k =>
    match s.draw? k with
    | some (item, next) => (item, next)
    | none => (none, s)

/-- A session and the tokens given so far, each with the number of its tokenizer. -/
structure History where
  session : Session
  given : List (Nat × Token Entry)
  deriving DecidableEq, Repr

namespace History

def start (sources : List String) : History := ⟨.ofSources sources, []⟩

def play (h : History) (c : Call) : History :=
  ⟨(h.session.call c).2,
    h.given ++ ((h.session.call c).1.bind Except.toOption).toList.map (c.tokenizer, ·)⟩

def ofCalls (sources : List String) (calls : List Call) : History := calls.foldl play (start sources)

end History

/-- A vocabulary goes over into another while tokens are given. -/
def Vocabulary.Gives (v : Vocabulary) (new : List (Token Entry)) (w : Vocabulary) : Prop :=
  (w = v ∧ ∀ e, Token.word e ∉ new) ∨
    ∃ lexeme, new = [.word (v.intern lexeme).1] ∧ w = (v.intern lexeme).2

theorem Vocabulary.Gives.wellFormed {v w : Vocabulary} {new : List (Token Entry)}
    (gives : v.Gives new w) (known : v.WellFormed) : w.WellFormed ∧ w.number = v.number := by
  rcases gives with ⟨rfl, _⟩ | ⟨lexeme, _, rfl⟩
  · exact ⟨known, rfl⟩
  · exact ⟨known.intern lexeme, v.number_intern lexeme⟩

theorem Vocabulary.Gives.mem_entries_iff {v w : Vocabulary} {new : List (Token Entry)}
    (gives : v.Gives new w) (e : Entry) : e ∈ w.entries ↔ e ∈ v.entries ∨ .word e ∈ new := by
  rcases gives with ⟨rfl, none⟩ | ⟨lexeme, rfl, rfl⟩
  · simp [none e]
  · simp [Vocabulary.mem_entries_intern_iff]

theorem Tokenizer.gives_step (t : Tokenizer) :
    t.vocabulary.Gives t.step.outcome.toOption.toList t.step.next.vocabulary := by
  rcases t.interns_step with ⟨same, none⟩ | ⟨lexeme, outcome, grown⟩
  · refine .inl ⟨same, fun e he => ?_⟩
    cases outcome : t.step.outcome with
    | ok token =>
      obtain rfl : token = .word e := by simpa [outcome, Except.toOption, eq_comm] using he
      exact none e outcome
    | error fault => simp [outcome, Except.toOption] at he
  · exact .inr ⟨lexeme, by simp [outcome, Except.toOption], grown⟩

theorem Tokenizer.gives_draw (t : Tokenizer) :
    t.vocabulary.Gives (t.draw.item.bind Except.toOption).toList t.draw.next.vocabulary := by
  have stepped := t.gives_step
  unfold draw
  split
  · exact .inl ⟨rfl, by simp⟩
  · dsimp only
    cases outcome : t.step.outcome with
    | ok token => simpa [outcome] using stepped
    | error fault =>
      rw [outcome] at stepped
      cases ends : fault.isEnd <;> simpa [ends, Except.toOption] using stepped

namespace History

/-- What a call does: nothing, or one tokenizer goes on and gives a token at most. -/
theorem play_cases (h : History) (c : Call) :
    (h.session.tokenizers[c.tokenizer]? = none ∧ h.play c = h) ∨
      ∃ t next new, h.session.tokenizers[c.tokenizer]? = some t ∧
        (h.play c).session.tokenizers = h.session.tokenizers.set c.tokenizer next ∧
        (h.play c).session.tokens = h.session.tokens ++ new ∧
        (h.play c).given = h.given ++ new.map (c.tokenizer, ·) ∧
        t.vocabulary.Gives new next.vocabulary := by
  cases c with
  | step k =>
    cases found : h.session.tokenizers[k]? with
    | none => exact .inl ⟨found, by simp [play, Session.call, Session.step?, found]⟩
    | some t =>
      refine .inr ⟨t, t.step.next, t.step.outcome.toOption.toList, found, ?_, ?_, ?_, t.gives_step⟩
      · simp [play, Session.call, Session.step?, found, Session.advance, Call.tokenizer]
      · cases outcome : t.step.outcome <;>
          simp [play, Session.call, Session.step?, found, Session.advance, outcome, Except.toOption]
      · simp [play, Session.call, Session.step?, found, Call.tokenizer]
  | draw k =>
    cases found : h.session.tokenizers[k]? with
    | none => exact .inl ⟨found, by simp [play, Session.call, Session.draw?, found]⟩
    | some t =>
      refine .inr ⟨t, t.draw.next, (t.draw.item.bind Except.toOption).toList, found, ?_, ?_, ?_,
        t.gives_draw⟩
      · simp [play, Session.call, Session.draw?, found, Session.advance, Call.tokenizer]
      · cases item : t.draw.item with
        | none => simp [play, Session.call, Session.draw?, found, Session.advance, item]
        | some outcome =>
          cases outcome <;>
            simp [play, Session.call, Session.draw?, found, Session.advance, item, Except.toOption]
      · simp [play, Session.call, Session.draw?, found, Call.tokenizer]

end History

end TokenListing
