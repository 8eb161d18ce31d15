import TokenListing.Proofs.Tokenizer.Iteration

set_option autoImplicit false

/-!
Iteration among single steps. A tokenizer is asked for steps and for rounds of iteration in any order.
Up to the round that ends it, iteration does what a step would do; from then on its rounds do nothing,
whatever the steps between them still come to. A step never tells whether what is in front of it was
taken by steps or by rounds.
-/

namespace TokenListing

/-- What a step comes to as an item of iteration: the end of the text is none. -/
def Step.item? (s : Step) : Option (Except Fault (Token Entry)) :=
  match s.outcome with
  | .error (.endOfInput _) => none
  | outcome => some outcome

theorem Step.item?_ne_endOfInput (s : Step) (line : UInt32) :
    s.item? ≠ some (.error (.endOfInput line)) := by
  unfold item?
  split
  · simp
  · next other => simpa using other line

/-- The tokenizer with this mark of iteration on it. -/
def Tokenizer.marked (t : Tokenizer) (mark : Bool) : Tokenizer := { t with ended := mark }

def Step.marked (s : Step) (mark : Bool) : Step := { s with next := s.next.marked mark }

@[simp] theorem Step.outcome_marked (s : Step) (mark : Bool) : (s.marked mark).outcome = s.outcome :=
  rfl

@[simp] theorem Step.next_marked (s : Step) (mark : Bool) :
    (s.marked mark).next = s.next.marked mark := rfl

namespace Tokenizer

/-- A round does what a step does. -/
structure Draw.Echoes (d : Draw) (s : Step) : Prop where
  item : d.item = s.item?
  reader : d.next.reader = s.next.reader
  vocabulary : d.next.vocabulary = s.next.vocabulary
  startLine : d.next.startLine = s.next.startLine
  events : d.events = s.events

@[simp] theorem reader_marked (t : Tokenizer) (mark : Bool) : (t.marked mark).reader = t.reader := rfl

@[simp] theorem ended_marked (t : Tokenizer) (mark : Bool) : (t.marked mark).ended = mark := rfl

@[simp] theorem marked_marked (t : Tokenizer) (mark other : Bool) :
    (t.marked mark).marked other = t.marked other := rfl

theorem takeInteger_marked (t : Tokenizer) (mark : Bool) :
    (t.marked mark).takeInteger = t.takeInteger.marked mark := by
  simp only [takeInteger, marked]
  split <;> rfl

theorem takeToken_marked (t : Tokenizer) (mark : Bool) :
    (t.marked mark).takeToken = t.takeToken.marked mark := by
  unfold takeToken
  rw [reader_marked]
  split
  · exact t.takeInteger_marked mark
  · split <;> rfl

/-- A step does not look at the mark of iteration, and leaves it as it is. -/
theorem step_marked (t : Tokenizer) (mark : Bool) : (t.marked mark).step = t.step.marked mark := by
  have start : ∀ r, { t.marked mark with reader := r, startLine := r.line }.takeToken =
      { t with reader := r, startLine := r.line }.takeToken.marked mark :=
    fun r => takeToken_marked { t with reader := r, startLine := r.line } mark
  unfold step
  rw [reader_marked]
  dsimp only
  split
  · rw [start]
    rfl
  · rfl

/-- A round is a step as long as iteration is not over, and it is over behind a fault. -/
theorem draw_of_going {t : Tokenizer} (going : t.ended = false) :
    t.draw = ⟨t.step.item?, t.step.next.marked !t.step.outcome.isOk, t.step.events⟩ := by
  cases outcome : t.step.outcome with
  | ok token =>
    have kept : t.step.next.ended = false := t.ended_step.trans going
    rw [draw_of_ok going outcome, Step.item?, outcome]
    simp [Except.isOk, Except.toBool, marked, ← kept]
  | error fault =>
    rw [draw_of_error going outcome, Step.item?, outcome]
    cases fault <;> rfl

inductive Request where
  | step
  | draw
  deriving DecidableEq, Repr

inductive Reply where
  | step (outcome : Except Fault (Token Entry))
  | draw (item : Option (Except Fault (Token Entry)))

namespace Reply

def isStep : Reply → Bool
  | .step _ => true
  | .draw _ => false

/-- Whether iteration ends with a reply: with a round that has no item, or a fault for one. -/
def isLast : Reply → Bool
  | .step _ | .draw (some (.ok _)) => false
  | .draw none | .draw (some (.error _)) => true

/-- Whether a reply is a fault that is an item of iteration. -/
def isFault : Reply → Bool
  | .draw (some (.error _)) => true
  | _ => false

theorem isLast_draw_item? (s : Step) : (draw s.item?).isLast = !s.outcome.isOk := by
  rw [Step.item?]
  rcases s.outcome with (line | _) | token <;> rfl

/-- Replies and what comes later: no item of iteration behind the last one. -/
def Quiets (r later : Reply) : Prop :=
  r.isLast = true → ∀ item, later = .draw item → item = none

/-- How many steps there are behind some replies: one for each of them, but none for the rounds behind
the last one. -/
def steps : List Reply → Nat
  | [] => 0
  | r :: more => if r.isLast then 1 + more.countP isStep else 1 + steps more

theorem steps_concat (l : List Reply) (r : Reply) :
    steps (l ++ [r]) = steps l + if l.any isLast && !r.isStep then 0 else 1 := by
  induction l with
  | nil => simp [steps]
  | cons s l ih =>
    cases last : s.isLast with
    | true => cases step : r.isStep <;> simp [steps, last, step, Nat.add_assoc]
    | false => simp [steps, last, ih, Nat.add_assoc]

theorem quiets_concat {l : List Reply} {r : Reply} (quiet : l.Pairwise Quiets)
    (finished : l.any isLast = true → ∀ item, r = .draw item → item = none) :
    (l ++ [r]).Pairwise Quiets := by
  refine List.pairwise_append.mpr ⟨quiet, List.pairwise_singleton _ _, fun s hs later new last => ?_⟩
  rw [List.mem_singleton.mp new]
  exact finished (List.any_eq_true.mpr ⟨s, hs, last⟩)

theorem Quiets.isFault_eq_false {r later : Reply} (quiets : r.Quiets later)
    (fault : r.isFault = true) : later.isFault = false := by
  match r, fault with
  | .draw (some (.error _)), _ =>
    cases later with
    | step outcome => rfl
    | draw item => rw [quiets rfl item rfl]; rfl

theorem countP_isFault_le_one {l : List Reply} (quiet : l.Pairwise Quiets) :
    l.countP isFault ≤ 1 := by
  induction quiet with
  | nil => exact Nat.zero_le 1
  | @cons r l later quiet ih =>
    cases fault : r.isFault with
    | false => rwa [List.countP_cons_of_neg (by simp [fault])]
    | true =>
      have none : l.countP isFault = 0 := List.countP_eq_zero.mpr fun s hs => by
        simp [(later s hs).isFault_eq_false fault]
      rw [List.countP_cons_of_pos fault, none]

end Reply

/-- A tokenizer and what it has replied so far. -/
structure Dialogue where
  tokenizer : Tokenizer
  replies : List Reply

namespace Dialogue

def ask (d : Dialogue) : Request → Dialogue
  | .step => ⟨d.tokenizer.step.next, d.replies ++ [.step d.tokenizer.step.outcome]⟩
  | .draw => ⟨d.tokenizer.draw.next, d.replies ++ [.draw d.tokenizer.draw.item]⟩

def ofRequests (i : Nat) (source : String) (requests : List Request) : Dialogue :=
  requests.foldl ask ⟨ofString i source, []⟩

/-- The tokenizer of a dialogue is where its steps lead from the start, with the mark of iteration on
it once the last item has been asked for. -/
structure Follows (d : Dialogue) (t : Tokenizer) : Prop where
  place : d.tokenizer = (t.after (Reply.steps d.replies)).marked (d.replies.any Reply.isLast)
  quiet : d.replies.Pairwise Reply.Quiets
  ends : ∀ line, .draw (some (.error (.endOfInput line))) ∉ d.replies

theorem Follows.ended {d : Dialogue} {t : Tokenizer} (follows : d.Follows t) :
    d.tokenizer.ended = d.replies.any Reply.isLast := by
  rw [follows.place, ended_marked]

theorem Follows.step {d : Dialogue} {t : Tokenizer} (follows : d.Follows t) :
    (d.ask .step).Follows t where
  place := by
    simp [ask, Reply.steps_concat, Reply.isStep, Reply.isLast, follows.place, step_marked, after]
  quiet := Reply.quiets_concat follows.quiet fun _ item draw => by cases draw
  ends line := by simp [ask, follows.ends line]

theorem Follows.draw {d : Dialogue} {t : Tokenizer} (follows : d.Follows t) :
    (d.ask .draw).Follows t := by
  cases finished : d.replies.any Reply.isLast with
  | true =>
    have nothing := draw_of_ended (follows.ended.trans finished)
    have asked : d.ask .draw = ⟨d.tokenizer, d.replies ++ [.draw none]⟩ := by rw [ask, nothing]
    rw [asked]
    refine ⟨?_, Reply.quiets_concat follows.quiet ?_, fun line => by simp [follows.ends line]⟩
    · simp [Reply.steps_concat, Reply.isStep, finished, follows.place]
    · rintro _ item draw
      exact (Reply.draw.inj draw).symm
  | false =>
    -- The round is a step, and its reply is the last one just where the step comes to a fault.
    have echo := draw_of_going (follows.ended.trans finished)
    have asked : d.ask .draw = ⟨d.tokenizer.step.next.marked !d.tokenizer.step.outcome.isOk,
        d.replies ++ [.draw d.tokenizer.step.item?]⟩ := by rw [ask, echo]
    rw [asked]
    refine ⟨?_, Reply.quiets_concat follows.quiet ?_, fun line member => ?_⟩
    · simp [Reply.steps_concat, finished, Reply.isLast_draw_item?, follows.place, step_marked, after]
    · simp [finished]
    · rcases List.mem_append.mp member with old | new
      · exact follows.ends line old
      · exact d.tokenizer.step.item?_ne_endOfInput line
          (Reply.draw.inj (List.mem_singleton.mp new)).symm

theorem Follows.ask {d : Dialogue} {t : Tokenizer} (follows : d.Follows t) (request : Request) :
    (d.ask request).Follows t := by
  cases request with
  | step => exact follows.step
  | draw => exact follows.draw

theorem follows_ofRequests (i : Nat) (source : String) (requests : List Request) :
    (ofRequests i source requests).Follows (ofString i source) :=
  requests.foldlRecOn Dialogue.ask (motive := (·.Follows (ofString i source)))
    ⟨rfl, .nil, fun _ => List.not_mem_nil⟩ fun _ follows request _ => follows.ask request

/-- How rounds of iteration and single steps go together, as it is told by the replies so far. -/
structure Told (d : Dialogue) (start : Tokenizer) : Prop where
  going : (∀ r ∈ d.replies, r.isLast = false) → d.tokenizer.draw.Echoes d.tokenizer.step
  finished : (∃ r ∈ d.replies, r.isLast = true) → d.tokenizer.draw = ⟨none, d.tokenizer, []⟩
  quiet : d.replies.Pairwise Reply.Quiets
  faults : d.replies.countP Reply.isFault ≤ 1
  ends : ∀ line, .draw (some (.error (.endOfInput line))) ∉ d.replies
  /-- All that a round leaves behind for steps is that its text has been taken. -/
  place : d.tokenizer = (start.after (Reply.steps d.replies)).marked d.tokenizer.ended
  step : d.tokenizer.step = (start.after (Reply.steps d.replies)).step.marked d.tokenizer.ended

theorem rounds_among_steps (i : Nat) (source : String) (requests : List Request) :
    (ofRequests i source requests).Told (ofString i source) := by
  have follows := follows_ofRequests i source requests
  have place := follows.place
  rw [← follows.ended] at place
  refine ⟨fun going => ?_, fun finished => ?_, follows.quiet, Reply.countP_isFault_le_one follows.quiet,
    follows.ends, place, ?_⟩
  · have mark : (ofRequests i source requests).tokenizer.ended = false := by
      rw [follows.ended, List.any_eq_false]
      exact fun r hr => by simp [going r hr]
    rw [draw_of_going mark]
    exact ⟨rfl, rfl, rfl, rfl, rfl⟩
  · exact draw_of_ended (follows.ended.trans (List.any_eq_true.mpr finished))
  · rw [← step_marked, ← place]

/-- Behind a literal that is too large iteration is over, while a step still comes to the word. -/
theorem rounds_among_steps_tooLarge :
    (ofRequests 0 "99999999999 x" [.draw]).tokenizer.draw.item = none ∧
      (ofRequests 0 "99999999999 x" [.draw]).tokenizer.step.value = .ok (.word (.ofLexeme "x")) := by
  have told := rounds_among_steps 0 "99999999999 x" [.draw]
  have last : (ofRequests 0 "99999999999 x" [.draw]).replies.any Reply.isLast = true := by
    decide +kernel
  exact ⟨by rw [told.finished (List.any_eq_true.mp last)], by decide +kernel⟩

end Dialogue

end Tokenizer

end TokenListing
