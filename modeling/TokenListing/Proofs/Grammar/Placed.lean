import Mathlib.Data.List.Pairwise
import TokenListing.Proofs.Grammar.Segment
import TokenListing.Text.Bytes
import TokenListing.Token

set_option autoImplicit false

/-!
What the segments of a text stand for: where each of them is, and the token or the fault that it
comes to there.
-/

namespace TokenListing.Grammar

open Text

/-- The token that a segment spells. Blanks and comments spell none. -/
def Segment.token? (s : Segment) : Option (Token Word) :=
  match s.kind, s.text with
  | .integer, digits => some (.integer (Int32.ofNat (Decimal.value digits)))
  | .word, letters => some (.word (.ofLexeme (String.ofList letters)))
  | .symbol, [c] => some (.symbol c)
  | _, _ => none

def Segment.isTooLarge (s : Segment) : Bool :=
  s.kind == .integer && maxInteger < Decimal.value s.text

/-- A segment and the text in front of it. -/
structure Placed where
  front : List Char
  segment : Segment
  deriving DecidableEq, Repr

namespace Placed

def line (p : Placed) : Nat := 1 + p.front.count '\n'

def upTo (p : Placed) : List Char := p.front ++ p.segment.text

/-- One of the two ends before the other starts. -/
def Apart (p q : Placed) : Prop :=
  byteLength p.upTo ≤ byteLength q.front ∨ byteLength q.upTo ≤ byteLength p.front

instance : Std.Symm Apart := ⟨fun _ _ => Or.symm⟩

end Placed

/-- Segments that follow each other behind `front`. -/
def placed (front : List Char) : List Segment → List Placed
  | [] => []
  | s :: more => ⟨front, s⟩ :: placed (front ++ s.text) more

/-- The tokens of a text where they are in it. -/
def tokens (cs : List Char) : List Placed :=
  (placed [] (segments cs)).filter (·.segment.kind.isToken)

theorem placed_append (front : List Char) (l m : List Segment) :
    placed front (l ++ m) = placed front l ++ placed (front ++ textOf l) m := by
  induction l generalizing front with
  | nil => simp [placed]
  | cons s l ih => simp [placed, ih]

theorem map_segment_placed (front : List Char) (l : List Segment) :
    (placed front l).map Placed.segment = l := by
  induction l generalizing front with
  | nil => rfl
  | cons s l ih => simp [placed, ih]

theorem mem_of_mem_placed {front : List Char} {l : List Segment} {p : Placed}
    (h : p ∈ placed front l) : p.segment ∈ l := by
  rw [← map_segment_placed front l]
  exact List.mem_map_of_mem h

theorem filter_isToken_eq_nil {gap : List Segment} (blank : ∀ g ∈ gap, g.kind.isToken = false) :
    gap.filter (·.kind.isToken) = [] := by
  rw [List.filter_eq_nil_iff]
  simpa using blank

theorem length_tokens_placed (front : List Char) (l : List Segment) :
    ((placed front l).filter (·.segment.kind.isToken)).length =
      (l.filter (·.kind.isToken)).length := by
  calc ((placed front l).filter (·.segment.kind.isToken)).length
      = (((placed front l).map Placed.segment).filter (·.kind.isToken)).length := by
        rw [List.filter_map, List.length_map]
        rfl
    _ = (l.filter (·.kind.isToken)).length := by rw [map_segment_placed]

/-- A token is found by the number of those in front of it. -/
theorem getElem?_tokens {cs : List Char} {done gap more : List Segment} {s : Segment}
    (split : segments cs = done ++ (gap ++ s :: more)) (blank : ∀ g ∈ gap, g.kind.isToken = false)
    (token : s.kind.isToken = true) :
    (tokens cs)[(done.filter (·.kind.isToken)).length]? = some ⟨textOf (done ++ gap), s⟩ := by
  have before : ((placed [] (done ++ gap)).filter (·.segment.kind.isToken)).length =
      (done.filter (·.kind.isToken)).length := by
    rw [length_tokens_placed, List.filter_append, filter_isToken_eq_nil blank, List.append_nil]
  rw [tokens, split, ← List.append_assoc, placed_append, List.filter_append,
    List.getElem?_append_right (Nat.le_of_eq before), before, Nat.sub_self]
  simp [placed, token]

theorem count_front_le {front : List Char} {l : List Segment} {p : Placed} (h : p ∈ placed front l)
    (c : Char) : p.front.count c ≤ (front ++ textOf l).count c := by
  induction l generalizing front with
  | nil => simp [placed] at h
  | cons s more ih =>
    rcases List.mem_cons.mp h with rfl | h
    · simp
    · simpa using ih h

theorem mem_placed_iff {front : List Char} {l : List Segment} {p : Placed} :
    p ∈ placed front l ↔ ∃ before more, l = before ++ p.segment :: more ∧
      p.front = front ++ textOf before := by
  induction l generalizing front with
  | nil => simp [placed]
  | cons s l ih =>
    rw [placed, List.mem_cons, ih]
    constructor
    · rintro (rfl | ⟨before, more, rfl, here⟩)
      · exact ⟨[], l, rfl, by simp⟩
      · exact ⟨s :: before, more, rfl, by simp [here]⟩
    · rintro ⟨before, more, split, here⟩
      cases before with
      | nil =>
        obtain ⟨rfl, rfl⟩ := List.cons.inj split
        refine .inl ?_
        obtain ⟨_, _⟩ := p
        simpa using here
      | cons g before =>
        obtain ⟨rfl, rfl⟩ := List.cons.inj split
        exact .inr ⟨before, more, rfl, by simp [here]⟩

/-- Each segment ends before the next ones start. -/
theorem pairwise_placed (front : List Char) (l : List Segment) :
    (placed front l).Pairwise fun p q => byteLength p.upTo ≤ byteLength q.front := by
  induction l generalizing front with
  | nil => exact .nil
  | cons s l ih =>
    refine .cons (fun q hq => ?_) (ih _)
    obtain ⟨before, _, _, here⟩ := mem_placed_iff.mp hq
    simp [here, Placed.upTo]

theorem apart_of_ne {front : List Char} {l : List Segment} {p q : Placed} (hp : p ∈ placed front l)
    (hq : q ∈ placed front l) (differ : p ≠ q) : p.Apart q := by
  have either : (placed front l).Pairwise Placed.Apart := (pairwise_placed front l).imp .inl
  exact either.forall hp hq differ

end TokenListing.Grammar
