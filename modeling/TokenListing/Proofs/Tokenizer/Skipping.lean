import TokenListing.Proofs.Grammar.Concat
import TokenListing.Proofs.Tokenizer.Calls

set_option autoImplicit false

/-!
The first phase of a step, which skips blanks and comments up to the next token. It goes by the pending
character and the text behind it alone: what it passes is blanks and closed comments, and only at the
end of the text also a comment that is never closed.
-/

namespace TokenListing

open Grammar Text Trace

/-- A blank, or a comment that is closed. -/
structure Grammar.Segment.IsGap (s : Segment) : Prop where
  noToken : s.kind.isToken = false
  closed : s.kind.isOpen = false
  rule : Rule s.kind s.text []

theorem Grammar.Cuts.isGap {l more : List Segment} (cuts : Cuts (textOf (l ++ more)) (l ++ more))
    (blank : ∀ g ∈ l, g.kind.isToken = false) (closed : ∀ g ∈ l, g.kind.isOpen = false) :
    ∀ g ∈ l, g.IsGap := by
  intro g hg
  obtain ⟨before, behind, rfl⟩ := List.append_of_mem hg
  rw [List.append_assoc, List.cons_append] at cuts
  have rule := cuts.of_append.cons_inv.1
  exact ⟨blank g hg, closed g hg, rule.of_head? (closed g hg) (by simp)⟩

namespace Reader

/-- The same text is to be skipped, wherever the readers stand. -/
structure Faces (r s : Reader) : Prop where
  pending : r.pending = s.pending
  unread : r.unread = s.unread

variable {r s : Reader}

theorem Faces.looksAt (faces : r.Faces s) (a b : Char) : r.looksAt a b = s.looksAt a b := by
  rw [Reader.looksAt, Reader.looksAt, ahead?, ahead?, faces.pending, faces.unread]

theorem Faces.step (faces : r.Faces s) : r.step.Faces s.step := by
  cases more : s.unread with
  | nil =>
    rw [step_nil more, step_nil (faces.unread.trans more)]
    exact ⟨rfl, faces.unread⟩
  | cons c rest =>
    rw [step_cons more, step_cons (faces.unread.trans more)]
    exact ⟨rfl, rfl⟩

theorem Faces.seek {p : Reader → Bool} (blind : ∀ r s : Reader, r.Faces s → p r = p s)
    (faces : r.Faces s) : (r.seek p).1 = (s.seek p).1 ∧ (r.seek p).2.Faces (s.seek p).2 := by
  fun_induction Reader.seek p r generalizing s with
  | case1 r holds =>
    rw [seek_of_true ((blind r s faces).symm.trans holds)]
    exact ⟨rfl, faces⟩
  | case2 r fails ends =>
    rw [seek_of_nil ((blind r s faces).symm.trans (Bool.eq_false_iff.mpr fails))
      (faces.unread.symm.trans ends)]
    exact ⟨rfl, faces⟩
  | case3 r fails c rest more ih =>
    rw [seek_of_cons ((blind r s faces).symm.trans (Bool.eq_false_iff.mpr fails))
      (faces.unread.symm.trans more)]
    exact ih ⟨rfl, rfl⟩

theorem Faces.skipComment (faces : r.Faces s) (kind : CommentKind) :
    (r.skipComment kind).reached = (s.skipComment kind).reached ∧
      (r.skipComment kind).reader.Faces (s.skipComment kind).reader := by
  cases kind with
  | line => exact faces.seek fun _ _ same => by rw [same.pending]
  | block =>
    obtain ⟨closed, behind⟩ := faces.step.seek fun _ _ same => same.looksAt '*' '/'
    simp only [Reader.skipComment, skipBlockComment, closed]
    split
    · exact ⟨rfl, rfl, behind.step.unread⟩
    · exact ⟨rfl, behind⟩

theorem Faces.comment? (faces : r.Faces s) : r.comment? = s.comment? := by
  rw [Reader.comment?, Reader.comment?, faces.looksAt, faces.looksAt]

theorem Faces.skipBlanks (faces : r.Faces s) :
    r.skipBlanks.1 = s.skipBlanks.1 ∧ r.skipBlanks.2.Faces s.skipBlanks.2 :=
  faces.seek fun _ _ same => by rw [same.pending]

theorem Faces.skipBlanks_eq (faces : r.Faces s) {found : Bool} (h : r.skipBlanks.1 = found) :
    s.skipBlanks = (found, s.skipBlanks.2) :=
  Prod.ext (faces.skipBlanks.1.symm.trans h) rfl

/-- Skipping does not depend on lines and bytes. -/
theorem Faces.skipGap (faces : r.Faces s) :
    r.skipGap.reached = s.skipGap.reached ∧ r.skipGap.reader.Faces s.skipGap.reader := by
  fun_induction Reader.skipGap r generalizing s with
  | @case1 r blanks found opens =>
    have behind := faces.skipBlanks.2
    rw [skipGap_of_none (faces.skipBlanks_eq found) (behind.comment?.symm.trans opens)]
    exact ⟨rfl, behind⟩
  | @case2 r blanks found kind opens comment reached rest ih =>
    have behind := faces.skipBlanks.2
    obtain ⟨same, later⟩ := behind.skipComment kind
    rw [skipGap_of_closed (faces.skipBlanks_eq found) (behind.comment?.symm.trans opens)
      (same.symm.trans reached)]
    exact ih later
  | @case3 r blanks found kind opens comment missed =>
    have behind := faces.skipBlanks.2
    obtain ⟨same, later⟩ := behind.skipComment kind
    rw [skipGap_of_open (faces.skipBlanks_eq found) (behind.comment?.symm.trans opens)
      (same.symm.trans (Bool.eq_false_iff.mpr missed))]
    exact ⟨same, later⟩
  | @case4 r blanks missed =>
    rw [skipGap_of_missed (faces.skipBlanks_eq (Bool.eq_false_iff.mpr missed))]
    exact ⟨rfl, faces.skipBlanks.2⟩

theorem unread_skipComment_missed {kind : CommentKind}
    (missed : (r.skipComment kind).reached = false) : (r.skipComment kind).reader.unread = [] := by
  cases kind with
  | line => exact seek_exhausts missed
  | block =>
    simp only [Reader.skipComment, skipBlockComment] at missed ⊢
    split at missed
    · cases missed
    · next open_ =>
      rw [if_neg open_]
      exact seek_exhausts (Bool.eq_false_iff.mpr open_)

/-- Where skipping comes to nothing else, all is read. -/
theorem skipGap_missed (missed : r.skipGap.reached = false) : r.skipGap.reader.unread = [] := by
  fun_induction Reader.skipGap r with
  | case1 r blanks found opens => cases missed
  | case2 r blanks found kind opens comment reached rest ih => exact ih missed
  | case3 r blanks found kind opens comment open_ => exact unread_skipComment_missed missed
  | case4 r blanks search => exact seek_exhausts (Bool.eq_false_iff.mpr search)

theorem looksAt_of_comment?_none (none : r.comment? = none) :
    r.looksAt '/' '/' = false ∧ r.looksAt '/' '*' = false := by
  unfold Reader.comment? at none
  split at none
  · cases none
  · next noLine =>
    split at none
    · cases none
    · next noBlock => exact ⟨Bool.eq_false_iff.mpr noLine, Bool.eq_false_iff.mpr noBlock⟩

theorem At.pending_of_unread {front back : List Char} (h : r.At front back) (none : r.unread = []) :
    back = [r.pending] ∨ back = [] ∧ isBlank r.pending = true := by
  cases h with
  | holding h => exact .inl (by rw [← h.text, none])
  | idling h => exact .inr ⟨h.text.symm.trans none, h.blank⟩

/-- The pending character and what is behind it, as a text of its own. -/
theorem exists_faces_holds (r : Reader) :
    ∃ s : Reader, r.Faces s ∧ s.Holds [] (r.pending :: r.unread) :=
  ⟨{ r with start := 0, stop := byteLength [r.pending], line := lineAfter [r.pending] },
    ⟨rfl, rfl⟩, rfl, rfl, rfl, rfl⟩

end Reader

namespace Tokenizer

/-- The first phase of a step: the gap is skipped, or the end of the text is come to. -/
def skip (t : Tokenizer) : Except Fault Unit × Tokenizer :=
  let gap := t.reader.skipGap
  (if gap.reached then .ok () else .error (.endOfInput gap.reader.line), { t with reader := gap.reader })

/-- A step skips and then takes the token on whose first line it is. -/
theorem step_eq_skip (t : Tokenizer) :
    t.step =
      match t.skip with
      | (.error fault, u) => ⟨.error fault, u, t.reader.skipGap.events⟩
      | (.ok (), u) => ({ u with startLine := u.reader.line }.takeToken).behind t.reader.skipGap.events := by
  unfold step skip
  dsimp only
  split <;> rfl

/-- Skipping comes to a character that starts neither a blank nor a comment. -/
structure Stops (t : Tokenizer) (gap : List Segment) (r : Reader) : Prop where
  outcome : t.skip.1 = .ok ()
  noBlank : isBlank r.pending = false
  noLineComment : r.looksAt '/' '/' = false
  noBlockComment : r.looksAt '/' '*' = false
  passed : t.reader.pending :: t.reader.unread = textOf gap ++ r.pending :: r.unread

/-- Skipping comes to the end of the text, which may be in a comment. -/
structure RunsOut (t : Tokenizer) (gap : List Segment) (r : Reader) : Prop where
  outcome : t.skip.1 = .error (.endOfInput r.line)
  unread : r.unread = []
  passed : (t.reader.pending :: t.reader.unread = textOf gap ∧ isBlank r.pending = true) ∨
    ∃ s : Segment, s.kind.isOpen = true ∧ Rule s.kind s.text [] ∧
      t.reader.pending :: t.reader.unread = textOf gap ++ s.text ∧
      s.text.getLast? = some r.pending

section

variable {t : Tokenizer}

theorem stops_of_token {gap more : List Segment} {s : Segment}
    (text : t.reader.pending :: t.reader.unread = textOf (gap ++ s :: more))
    (cuts : Cuts (textOf (gap ++ s :: more)) (gap ++ s :: more))
    (blank : ∀ g ∈ gap, g.kind.isToken = false) (token : s.kind.isToken = true) :
    t.Stops gap t.reader.skipGap.reader := by
  obtain ⟨u, faces, held⟩ := t.reader.exists_faces_holds
  obtain ⟨same, behind⟩ := faces.skipGap
  rw [text] at held
  obtain ⟨v, hv, skipped⟩ := (Reader.At.holding held).skipGap_over cuts blank token
  rw [skipped] at same behind
  obtain ⟨noBlank, noComment⟩ := Reader.skipGap_reached same
  obtain ⟨noLine, noBlock⟩ := Reader.looksAt_of_comment?_none noComment
  exact {
    outcome := by simp [skip, same]
    noBlank
    noLineComment := noLine
    noBlockComment := noBlock
    passed := by
      rw [text, behind.pending, behind.unread, hv.text, textOf_append, textOf_cons] }

theorem runsOut_of_rest {l : List Segment} (text : t.reader.pending :: t.reader.unread = textOf l)
    (cuts : Cuts (textOf l) l) (blank : ∀ g ∈ l, g.kind.isToken = false) :
    ∃ gap, (∀ g ∈ gap, g.IsGap) ∧ t.RunsOut gap t.reader.skipGap.reader := by
  obtain ⟨u, faces, held⟩ := t.reader.exists_faces_holds
  obtain ⟨same, behind⟩ := faces.skipGap
  rw [text] at held
  obtain ⟨v, passed, split, hv, _, skipped⟩ := (Reader.At.holding held).skipGap_rest cuts blank
  rw [skipped] at same behind
  have outcome : t.skip.1 = .error (.endOfInput t.reader.skipGap.reader.line) := by simp [skip, same]
  have unread := Reader.skipGap_missed same
  have pending := hv.pending_of_unread (behind.unread.symm.trans unread)
  rw [← behind.pending] at pending
  rcases cuts.open_or_closed with ⟨gap, s, rfl, isOpen, closed, left⟩ | ⟨closed, left⟩
  · have rule := cuts.of_append.cons_inv.1
    have last := List.getLast?_eq_some_getLast rule.text_ne_nil
    refine ⟨gap, cuts.isGap (fun g hg => blank g (List.mem_append_left _ hg)) closed, outcome, unread,
      .inr ⟨s, isOpen, rule, by simp [text], ?_⟩⟩
    rw [left, last] at pending
    rw [last]
    simpa using pending
  · rw [← List.append_nil l] at cuts
    refine ⟨l, cuts.isGap blank closed, outcome, unread, .inl ⟨text, ?_⟩⟩
    rw [left] at pending
    simpa using pending

end

/-- From wherever a tokenizer stands it skips blanks and comments, all of them and nothing else, and it
moves its reader only. -/
theorem skip_passes_gap (t : Tokenizer) :
    ∃ (r : Reader) (gap : List Segment), t.skip.2 = { t with reader := r } ∧
      (∀ g ∈ gap, g.IsGap) ∧ (t.Stops gap r ∨ t.RunsOut gap r) := by
  obtain ⟨l, text, cuts⟩ := exists_cuts (t.reader.pending :: t.reader.unread)
  rcases gap_or_token l with blank | ⟨gap, s, more, rfl, blank, token⟩
  · obtain ⟨gap, isGap, runsOut⟩ := runsOut_of_rest text cuts blank
    exact ⟨_, gap, rfl, isGap, .inr runsOut⟩
  · have isGap := cuts.isGap blank fun g hg => cuts.isOpen_eq_false hg
    exact ⟨_, gap, rfl, isGap, .inl (stops_of_token text cuts blank token)⟩

end Tokenizer

end TokenListing
