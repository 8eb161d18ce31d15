import TokenListing.Tokenizer.Basic

set_option autoImplicit false

/-!
Whole texts. A run steps to the first fault and keeps each token with the line on which it starts;
iteration asks for items until there are none. Both end because every token uses up characters of
the text. The rows of a text and its tokens are found by these two ways, each by its own.
-/

namespace TokenListing

open Trace

/-- What the steps up to the first fault come to. -/
structure Run where
  rows : List (Row Entry)
  fault : Fault
  events : List Event
  deriving DecidableEq, Repr

namespace Tokenizer

def run (t : Tokenizer) : Run :=
  let s := t.step
  match _outcome : s.outcome with
  | .ok token =>
    let rest := s.next.run
    ⟨⟨s.next.startLine, token⟩ :: rest.rows, rest.fault, s.events ++ rest.events⟩
  | .error fault => ⟨[], fault, s.events⟩
termination_by t.reader.weight
decreasing_by exact weight_step_lt fun line ends => by cases ends.symm.trans _outcome

theorem run_of_ok {t : Tokenizer} {token : Token Entry} (h : t.step.outcome = .ok token) :
    t.run = ⟨⟨t.step.next.startLine, token⟩ :: t.step.next.run.rows, t.step.next.run.fault,
      t.step.events ++ t.step.next.run.events⟩ := by
  rw [run]
  split <;> simp_all

theorem run_of_error {t : Tokenizer} {fault : Fault} (h : t.step.outcome = .error fault) :
    t.run = ⟨[], fault, t.step.events⟩ := by
  rw [run]
  split <;> simp_all

/-- How many rounds of iteration there can be: none behind its end, and one for each character. -/
def rounds (t : Tokenizer) : Nat :=
  if t.ended then 0 else t.reader.weight + 1

/-- An item leaves fewer rounds. -/
theorem rounds_draw_lt {t : Tokenizer} (h : t.draw.item ≠ none) :
    t.draw.next.rounds < t.rounds := by
  unfold draw at h ⊢
  by_cases finished : t.ended = true
  · simp [finished] at h
  · simp only [finished, Bool.false_eq_true, if_false] at h ⊢
    cases outcome : t.step.outcome with
    | ok token =>
      have shorter : t.step.next.reader.weight < t.reader.weight :=
        weight_step_lt (by simp [outcome])
      simp only [rounds, finished]
      split
      · simp
      · simpa using shorter
    | error fault => simp [rounds, finished]

/-- Iterates to the end and keeps the tokenizer behind it. -/
def drain (t : Tokenizer) : List (Except Fault (Token Entry)) × Tokenizer :=
  let d := t.draw
  match _item : d.item with
  | none => ([], d.next)
  | some item =>
    let rest := d.next.drain
    (item :: rest.1, rest.2)
termination_by t.rounds
decreasing_by exact rounds_draw_lt fun finished => by cases finished.symm.trans _item

theorem drain_of_none {t : Tokenizer} (h : t.draw.item = none) : t.drain = ([], t.draw.next) := by
  rw [drain]
  split <;> simp_all

theorem drain_of_some {t : Tokenizer} {item : Except Fault (Token Entry)}
    (h : t.draw.item = some item) :
    t.drain = (item :: t.draw.next.drain.1, t.draw.next.drain.2) := by
  rw [drain]
  split <;> simp_all

end Tokenizer

/-- The rows of a run, unless it ended before its text did. -/
def Run.result (r : Run) : Except Fault (List (Row Entry)) :=
  if r.fault.isEnd then .ok r.rows else .error r.fault

/-- The tokens of a text with their lines, found step by step. -/
def rows (source : String) : Except Fault (List (Row Entry)) :=
  (Tokenizer.ofString 0 source).run.result

/-- All tokens of a list of items, unless there is a fault among them. -/
def collect : List (Except Fault (Token Entry)) → Except Fault (List (Token Entry))
  | [] => .ok []
  | .error fault :: _ => .error fault
  | .ok token :: rest => (collect rest).map (token :: ·)

/-- The tokens of a text, found by iteration. -/
def tokens (source : String) : Except Fault (List (Token Entry)) :=
  collect (Tokenizer.ofString 0 source).drain.1

end TokenListing
