import TokenListing.Proofs.Grammar.Placed
import TokenListing.Proofs.Reader.Position

set_option autoImplicit false

/-!
Gaps and the grammar. A reader skips exactly the segments that spell no token: each of them takes it
to the text behind the segment, and one that is never closed takes it to the last character.
-/

namespace TokenListing

open Grammar Trace

/-- What there is to tell of a segment behind `front`. -/
def Grammar.Segment.events (front : List Char) (s : Segment) : List Event :=
  match s.kind with
  | .comment .line _ => [.lineComment (lineAfter front)]
  | .comment .block true => [.blockComment (lineAfter front)]
  | .comment .block false => [.blockComment (lineAfter front), .unclosed (lineAfter front)]
  | _ => []

/-- What there is to tell of segments behind `front` that spell no token. -/
def Grammar.gapEvents (front : List Char) (gap : List Segment) : List Event :=
  (placed front gap).flatMap fun p => p.segment.events p.front

theorem Grammar.gapEvents_nil (front : List Char) : gapEvents front [] = [] := rfl

theorem Grammar.gapEvents_cons (front : List Char) (s : Segment) (gap : List Segment) :
    gapEvents front (s :: gap) = s.events front ++ gapEvents (front ++ s.text) gap :=
  List.flatMap_cons

/-- The last character of the segment that is never closed. -/
def Grammar.leftOver : List Segment → List Char
  | [] => []
  | s :: more => if s.kind.isOpen then s.text.getLast?.toList else leftOver more

theorem Grammar.leftOver_append {l : List Segment} (more : List Segment)
    (closed : ∀ s ∈ l, s.kind.isOpen = false) : leftOver (l ++ more) = leftOver more := by
  induction l with
  | nil => rfl
  | cons s l ih =>
    obtain ⟨here, later⟩ := List.forall_mem_cons.mp closed
    simp [leftOver, here, ih later]

/-- Only the last segment of a text may be open, and then its last character is left. -/
theorem Grammar.Cuts.open_or_closed {l : List Segment} (cuts : Cuts (textOf l) l) :
    (∃ gap s, l = gap ++ [s] ∧ s.kind.isOpen = true ∧ (∀ g ∈ gap, g.kind.isOpen = false) ∧
      leftOver l = s.text.getLast?.toList) ∨
    (∀ g ∈ l, g.kind.isOpen = false) ∧ leftOver l = [] := by
  by_cases opens : ∃ s ∈ l, s.kind.isOpen = true
  · obtain ⟨s, hs, isOpen⟩ := opens
    obtain ⟨gap, more, rfl⟩ := List.append_of_mem hs
    obtain rfl := cuts.of_append.eq_nil_of_isOpen isOpen
    have closed : ∀ g ∈ gap, g.kind.isOpen = false := fun g hg => cuts.isOpen_eq_false hg
    refine .inl ⟨gap, s, rfl, isOpen, closed, ?_⟩
    rw [leftOver_append [s] closed, leftOver, if_pos isOpen]
  · have closed : ∀ g ∈ l, g.kind.isOpen = false := fun g hg =>
      Bool.eq_false_iff.mpr fun isOpen => opens ⟨g, hg, isOpen⟩
    have none : leftOver (l ++ []) = [] := leftOver_append [] closed
    rw [List.append_nil] at none
    exact .inr ⟨closed, none⟩

def Skip.behind (k : Skip) (events : List Event) : Skip := { k with events := events ++ k.events }

@[simp] theorem Skip.reached_behind (k : Skip) (events : List Event) :
    (k.behind events).reached = k.reached := rfl

@[simp] theorem Skip.reader_behind (k : Skip) (events : List Event) :
    (k.behind events).reader = k.reader := rfl

namespace Reader

theorem skipGap_of_missed {r s : Reader} (blanks : r.skipBlanks = (false, s)) :
    r.skipGap = ⟨false, s, []⟩ := by
  rw [skipGap]
  simp [blanks]

theorem skipGap_of_none {r s : Reader} (blanks : r.skipBlanks = (true, s))
    (none : s.comment? = none) : r.skipGap = ⟨true, s, []⟩ := by
  rw [skipGap]
  simp only [blanks, if_true]
  split <;> simp_all

theorem skipGap_of_closed {r s : Reader} {kind : CommentKind} (blanks : r.skipBlanks = (true, s))
    (opens : s.comment? = some kind) (reached : (s.skipComment kind).reached = true) :
    r.skipGap = (s.skipComment kind).reader.skipGap.behind (s.skipComment kind).events := by
  rw [skipGap]
  simp only [blanks, if_true]
  split <;> simp_all [Skip.behind]

theorem skipGap_of_open {r s : Reader} {kind : CommentKind} (blanks : r.skipBlanks = (true, s))
    (opens : s.comment? = some kind) (missed : (s.skipComment kind).reached = false) :
    r.skipGap = s.skipComment kind := by
  rw [skipGap]
  simp only [blanks, if_true]
  split <;> simp_all

theorem skipGap_congr {r s : Reader} (same : r.skipBlanks = s.skipBlanks) :
    r.skipGap = s.skipGap := by
  rw [skipGap, skipGap, same]

theorem Holds.skipBlanks {r : Reader} {front rest : List Char} {c : Char}
    (h : r.Holds front (c :: rest)) (noBlank : isBlank c = false) : r.skipBlanks = (true, r) := by
  refine seek_of_true ?_
  simp [h.pending_eq, noBlank]

theorem Idles.skipGap_nil {r : Reader} {front : List Char} (h : r.Idles front []) :
    r.skipGap = ⟨false, r, []⟩ :=
  skipGap_of_missed (seek_of_nil (by simp [h.blank]) h.text)

theorem Idles.skipGap_cons {r : Reader} {front rest : List Char} {c : Char}
    (h : r.Idles front (c :: rest)) : r.skipGap = (r.take c rest).skipGap :=
  skipGap_congr (seek_of_cons (by simp [h.blank]) h.text)

/-- Where something is left it may be taken to be held. -/
theorem At.exists_holds {r : Reader} {front rest : List Char} {c : Char}
    (h : r.At front (c :: rest)) :
    ∃ s : Reader, s.Holds front (c :: rest) ∧ r.skipGap = s.skipGap := by
  cases h with
  | holding h => exact ⟨r, h, rfl⟩
  | idling h => exact ⟨_, h.holds_take, h.skipGap_cons⟩

theorem Holds.looksAt {r : Reader} {front rest : List Char} {c : Char} (h : r.Holds front (c :: rest))
    (a b : Char) : r.looksAt a b = true ↔ c = a ∧ rest.head? = some b := by
  simp [Reader.looksAt, ahead?, h.pending_eq, h.unread_eq]

theorem Holds.comment?_line {r : Reader} {front rest : List Char}
    (h : r.Holds front ('/' :: '/' :: rest)) : r.comment? = some .line := by
  simp [comment?, (h.looksAt '/' '/').mpr ⟨rfl, rfl⟩]

theorem Holds.comment?_block {r : Reader} {front rest : List Char}
    (h : r.Holds front ('/' :: '*' :: rest)) : r.comment? = some .block := by
  have noLine : r.looksAt '/' '/' = false := by simp [Bool.eq_false_iff, h.looksAt]
  simp [comment?, noLine, (h.looksAt '/' '*').mpr ⟨rfl, rfl⟩]

theorem Holds.comment?_none {r : Reader} {front rest : List Char} {c : Char}
    (h : r.Holds front (c :: rest))
    (noComment : c = '/' → rest.head? ≠ some '/' ∧ rest.head? ≠ some '*') : r.comment? = none := by
  have noLine : r.looksAt '/' '/' = false := by
    rw [Bool.eq_false_iff, ne_eq, h.looksAt]
    exact fun ⟨hc, hs⟩ => (noComment hc).1 hs
  have noBlock : r.looksAt '/' '*' = false := by
    rw [Bool.eq_false_iff, ne_eq, h.looksAt]
    exact fun ⟨hc, hs⟩ => (noComment hc).2 hs
  simp [comment?, noLine, noBlock]

theorem Holds.pending_ne {r : Reader} {front rest : List Char} {c : Char}
    (h : r.Holds front (c :: rest)) (hc : c ≠ '\n') : (r.pending == '\n') = false := by
  simp [h.pending_eq, hc]

theorem Holds.skipLineComment_closed {r : Reader} {front body rest : List Char}
    (inside : '\n' ∉ body) (h : r.Holds front ('/' :: '/' :: body ++ '\n' :: rest)) :
    ∃ s : Reader, s.Idles (front ++ '/' :: '/' :: (body ++ ['\n'])) rest ∧
      r.skipLineComment = ⟨true, s, [.lineComment r.line]⟩ := by
  have noFeed : ∀ c ∈ '/' :: '/' :: body, c ≠ '\n' := by
    simpa using fun c hc => ne_of_mem_of_not_mem hc inside
  obtain ⟨s, hs, found⟩ := Holds.seek_stops (p := (·.pending == '\n')) h (List.cons_ne_nil _ _)
    (fun s pre post c split held => held.pending_ne (noFeed c (by simp [split])))
    (fun s held => by simp [held.pending_eq])
  refine ⟨s, by simpa using hs.idles rfl, ?_⟩
  simp [skipLineComment, found]

theorem Holds.skipLineComment_open {r : Reader} {front passed : List Char} {last : Char}
    (inside : '\n' ∉ passed ++ [last]) (h : r.Holds front (passed ++ [last])) :
    ∃ s : Reader, s.Holds (front ++ passed) [last] ∧
      r.skipLineComment = ⟨false, s, [.lineComment r.line]⟩ := by
  obtain ⟨s, hs, missed⟩ := Holds.seek_ends (p := (·.pending == '\n')) h
    (fun s pre post c split held => held.pending_ne (by
      rintro rfl
      exact inside (by simp [split])))
  refine ⟨s, hs, ?_⟩
  simp [skipLineComment, missed]

theorem Holds.looksAt_closer {r : Reader} {front pre post rest : List Char} {c : Char}
    (h : r.Holds front (c :: rest)) (next : rest.head? = post.head?)
    (none : ¬closer <:+: pre ++ c :: post) : r.looksAt '*' '/' = false := by
  rw [Bool.eq_false_iff, ne_eq, h.looksAt, next]
  rintro ⟨rfl, hs⟩
  obtain ⟨more, rfl⟩ := List.head?_eq_some_iff.mp hs
  exact none ⟨pre, more, by simp [closer]⟩

theorem Holds.skipBlockComment_closed {r : Reader} {front inner body rest : List Char}
    (closed : inner ++ closer = '*' :: body) (inside : ¬closer <:+: inner ++ ['*'])
    (h : r.Holds front ('/' :: '*' :: body ++ rest)) :
    ∃ s : Reader, s.Idles (front ++ '/' :: '*' :: body) rest ∧
      r.skipBlockComment = ⟨true, s, [.blockComment r.line]⟩ := by
  have star : r.step.Holds (front ++ ['/']) (inner ++ '*' :: '/' :: rest) := by
    have same : inner ++ '*' :: '/' :: rest = '*' :: (body ++ rest) := by
      rw [← List.cons_append, ← closed]
      simp [closer]
    rw [same]
    exact h.step_cons
  obtain ⟨s, hs, found⟩ := Holds.seek_stops (p := (·.looksAt '*' '/')) star (List.cons_ne_nil _ _)
    (fun s pre post c split held => by
      have next : (post ++ '*' :: '/' :: rest).head? = (post ++ ['*']).head? := by
        simp [List.head?_append]
      exact held.looksAt_closer next (by simpa [split] using inside))
    (fun s held => by simp [held.looksAt])
  refine ⟨s.step.clear, ?_, by simp [skipBlockComment, found]⟩
  have done := hs.step_cons.idles_clear
  rw [← closed]
  simpa [closer] using done

theorem Holds.skipBlockComment_open {r : Reader} {front body passed : List Char} {last : Char}
    (inside : ¬closer <:+: '*' :: body) (split : '*' :: body = passed ++ [last])
    (h : r.Holds front ('/' :: '*' :: body)) :
    ∃ s : Reader, s.Holds (front ++ '/' :: passed) [last] ∧
      r.skipBlockComment = ⟨false, s, [.blockComment r.line, .unclosed r.line]⟩ := by
  have star : r.step.Holds (front ++ ['/']) (passed ++ [last]) := by
    rw [← split]
    exact h.step_cons
  rw [split] at inside
  obtain ⟨s, hs, missed⟩ := Holds.seek_ends (p := (·.looksAt '*' '/')) star
    (fun s pre post c here held => held.looksAt_closer rfl (here ▸ inside))
  exact ⟨s, by simpa using hs, by simp [skipBlockComment, missed]⟩

/-- A closed segment that spells no token is skipped. -/
theorem At.skipGap_of_closed {r : Reader} {front rest : List Char} {s : Segment}
    (h : r.At front (s.text ++ rest)) (rule : Rule s.kind s.text rest)
    (gap : s.kind.isToken = false) (noOpen : s.kind.isOpen = false) :
    ∃ t : Reader, t.At (front ++ s.text) rest ∧ r.skipGap = t.skipGap.behind (s.events front) := by
  obtain ⟨kind, text⟩ := s
  dsimp only at *
  cases rule with
  | blank blank =>
    obtain ⟨t, ht, same⟩ := h.exists_holds
    exact ⟨t, .idling (ht.idles blank), same⟩
  | lineComment inside =>
    obtain ⟨t, ht, same⟩ := h.exists_holds
    obtain ⟨u, hu, skipped⟩ := Holds.skipLineComment_closed inside (by simpa using ht)
    have reached : (t.skipComment .line).reached = true := by simp [skipComment, skipped]
    refine ⟨u, .idling hu, ?_⟩
    rw [same, Reader.skipGap_of_closed (ht.skipBlanks rfl) ht.comment?_line reached]
    simp [skipComment, skipped, Segment.events, ht.line_eq]
  | blockComment closed inside =>
    obtain ⟨t, ht, same⟩ := h.exists_holds
    obtain ⟨inner, hi⟩ := closed
    rw [← hi, dropLast_append_closer] at inside
    obtain ⟨u, hu, skipped⟩ := Holds.skipBlockComment_closed hi inside ht
    have reached : (t.skipComment .block).reached = true := by simp [skipComment, skipped]
    refine ⟨u, .idling hu, ?_⟩
    rw [same, Reader.skipGap_of_closed (ht.skipBlanks rfl) ht.comment?_block reached]
    simp [skipComment, skipped, Segment.events, ht.line_eq]
  | _ => simp [Kind.isToken, Kind.isOpen] at gap noOpen

/-- A comment that is never closed is read to its last character, which stays pending. -/
theorem At.skipGap_of_open {r : Reader} {front rest : List Char} {s : Segment}
    (h : r.At front (s.text ++ rest)) (rule : Rule s.kind s.text rest)
    (isOpen : s.kind.isOpen = true) :
    ∃ (t : Reader) (passed : List Char) (last : Char), s.text ++ rest = passed ++ [last] ∧
      t.Holds (front ++ passed) [last] ∧ r.skipGap = ⟨false, t, s.events front⟩ := by
  obtain ⟨kind, text⟩ := s
  dsimp only at *
  cases rule with
  | @openLineComment body inside =>
    rw [List.append_nil] at h
    obtain ⟨t, ht, same⟩ := h.exists_holds
    have split := List.dropLast_concat_getLast (List.cons_ne_nil '/' ('/' :: body))
    rw [← split] at ht
    obtain ⟨u, hu, skipped⟩ := Holds.skipLineComment_open (by rw [split]; simpa using inside) ht
    rw [split] at ht
    have missed : (t.skipComment .line).reached = false := by simp [skipComment, skipped]
    refine ⟨u, _, _, by rw [List.append_nil, split], hu, ?_⟩
    rw [same, Reader.skipGap_of_open (ht.skipBlanks rfl) ht.comment?_line missed]
    simp [skipComment, skipped, Segment.events, ht.line_eq]
  | @openBlockComment body inside =>
    rw [List.append_nil] at h
    obtain ⟨t, ht, same⟩ := h.exists_holds
    have split := List.dropLast_concat_getLast (List.cons_ne_nil '*' body)
    obtain ⟨u, hu, skipped⟩ := Holds.skipBlockComment_open inside split.symm ht
    have missed : (t.skipComment .block).reached = false := by simp [skipComment, skipped]
    refine ⟨u, _, _, ?_, hu, ?_⟩
    · rw [List.append_nil, List.cons_append, split]
    · rw [same, Reader.skipGap_of_open (ht.skipBlanks rfl) ht.comment?_block missed]
      simp [skipComment, skipped, Segment.events, ht.line_eq]
  | _ => simp [Kind.isOpen] at isOpen

theorem At.skipGap_of_token {r : Reader} {front rest : List Char} {s : Segment}
    (h : r.At front (s.text ++ rest)) (rule : Rule s.kind s.text rest)
    (token : s.kind.isToken = true) :
    ∃ t : Reader, t.Holds front (s.text ++ rest) ∧ r.skipGap = ⟨true, t, []⟩ := by
  obtain ⟨kind, text⟩ := s
  dsimp only at *
  obtain ⟨c, more, split, noBlank, noComment⟩ := rule.starts token
  rw [split] at h ⊢
  obtain ⟨t, ht, same⟩ := h.exists_holds
  exact ⟨t, ht, same.trans (skipGap_of_none (ht.skipBlanks noBlank) (ht.comment?_none noComment))⟩

theorem Holds.line_of_token {r : Reader} {front rest : List Char} {s : Segment}
    (h : r.Holds front (s.text ++ rest)) (rule : Rule s.kind s.text rest)
    (token : s.kind.isToken = true) : r.line = lineAfter front := by
  obtain ⟨c, more, split, noBlank, _⟩ := rule.starts token
  rw [split] at h
  exact h.line_eq (by rintro rfl; simp [isBlank] at noBlank)

/-- A gap is skipped to the first character of the token behind it. -/
theorem At.skipGap_over {r : Reader} {front : List Char} {gap more : List Segment} {s : Segment}
    (h : r.At front (textOf (gap ++ s :: more)))
    (cuts : Cuts (textOf (gap ++ s :: more)) (gap ++ s :: more))
    (blank : ∀ g ∈ gap, g.kind.isToken = false) (token : s.kind.isToken = true) :
    ∃ t : Reader, t.Holds (front ++ textOf gap) (s.text ++ textOf more) ∧
      r.skipGap = ⟨true, t, gapEvents front gap⟩ := by
  induction gap generalizing r front with
  | nil =>
    rw [textOf_nil, List.append_nil]
    exact h.skipGap_of_token cuts.cons_inv.1 token
  | cons g gap ih =>
    obtain ⟨rule, behind⟩ := cuts.cons_inv
    obtain ⟨here, later⟩ := List.forall_mem_cons.mp blank
    have closed : g.kind.isOpen = false := cuts.isOpen_eq_false List.mem_cons_self
    obtain ⟨u, hu, passed⟩ := h.skipGap_of_closed rule here closed
    obtain ⟨t, ht, skipped⟩ := ih hu behind later
    rw [textOf_cons, ← List.append_assoc]
    exact ⟨t, ht, by rw [passed, skipped, gapEvents_cons]; rfl⟩

/-- Where no token is left all is skipped, up to the last character of a comment that is never closed. -/
theorem At.skipGap_rest {r : Reader} {front : List Char} {gap : List Segment}
    (h : r.At front (textOf gap)) (cuts : Cuts (textOf gap) gap)
    (blank : ∀ g ∈ gap, g.kind.isToken = false) :
    ∃ (t : Reader) (passed : List Char), passed ++ leftOver gap = textOf gap ∧
      t.At (front ++ passed) (leftOver gap) ∧ t.line = lineAfter (front ++ textOf gap) ∧
      r.skipGap = ⟨false, t, gapEvents front gap⟩ := by
  induction gap generalizing r front with
  | nil =>
    cases h with
    | holding h => cases h.text
    | idling h =>
      rw [textOf_nil, List.append_nil]
      exact ⟨r, [], rfl, .idling (by rwa [List.append_nil]), h.line, h.skipGap_nil⟩
  | cons g gap ih =>
    obtain ⟨rule, behind⟩ := cuts.cons_inv
    obtain ⟨here, later⟩ := List.forall_mem_cons.mp blank
    rw [textOf_cons] at h
    by_cases isOpen : g.kind.isOpen = true
    · obtain rfl : gap = [] := cuts.eq_nil_of_isOpen isOpen
      obtain ⟨t, passed, last, split, ht, skipped⟩ := h.skipGap_of_open rule isOpen
      have left : leftOver [g] = [last] := by
        rw [textOf_nil, List.append_nil] at split
        simp [leftOver, isOpen, split]
      refine ⟨t, passed, ?_, ?_, ?_, ?_⟩
      · rw [left, textOf_cons, split]
      · rw [left]
        exact .holding ht
      · rw [textOf_cons, split, ht.line, ht.pending_eq, List.append_assoc]
      · rw [skipped, gapEvents_cons, gapEvents_nil, List.append_nil]
    · rw [Bool.not_eq_true] at isOpen
      obtain ⟨u, hu, passed⟩ := h.skipGap_of_closed rule here isOpen
      obtain ⟨t, more, split, ht, line, skipped⟩ := ih hu behind later
      have left : leftOver (g :: gap) = leftOver gap := by simp [leftOver, isOpen]
      refine ⟨t, g.text ++ more, ?_, ?_, ?_, ?_⟩
      · rw [left, textOf_cons, ← split, List.append_assoc]
      · rwa [left, ← List.append_assoc]
      · rw [line, textOf_cons, List.append_assoc]
      · rw [passed, skipped, gapEvents_cons]
        rfl

end Reader

end TokenListing
