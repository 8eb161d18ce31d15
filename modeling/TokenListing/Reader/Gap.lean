import TokenListing.Reader.Basic
import TokenListing.Trace.Event

set_option autoImplicit false

/-!
The gaps between tokens: blanks and comments in any order. A line comment runs from `//` to the line
feed, which stays pending and is skipped as a blank. A block comment runs from its opener to the
first closer behind the slash, so the star of the opener may be the star of the closer; inside it an
opener means nothing. A comment that is never closed runs to the end of the text and leaves the last
character pending.
-/

namespace TokenListing

open Trace

inductive CommentKind where
  | line
  | block
  deriving DecidableEq, Repr

/-- How skipping came out: whether it came to a character behind what it skips, the reader where it
stopped, and what there is to tell. -/
structure Skip where
  reached : Bool
  reader : Reader
  events : List Event
  deriving DecidableEq, Repr

namespace Reader

def skipBlanks (r : Reader) : Bool × Reader :=
  r.seek fun s => !isBlank s.pending

/-- The kind of comment that opens with the pending character. -/
def comment? (r : Reader) : Option CommentKind :=
  if r.looksAt '/' '/' then some .line
  else if r.looksAt '/' '*' then some .block
  else none

/-- From the opener of a line comment to its line feed. -/
def skipLineComment (r : Reader) : Skip :=
  let (closed, s) := r.seek (·.pending == '\n')
  ⟨closed, s, [.lineComment r.line]⟩

/-- From the opener of a block comment to its closer, behind which nothing is pending. -/
def skipBlockComment (r : Reader) : Skip :=
  let (closed, s) := r.step.seek (·.looksAt '*' '/')
  if closed then ⟨true, s.step.clear, [.blockComment r.line]⟩
  else ⟨false, s, [.blockComment r.line, .unclosed r.line]⟩

def skipComment (r : Reader) : CommentKind → Skip
  | .line => r.skipLineComment
  | .block => r.skipBlockComment

theorem unread_of_comment? {r : Reader} {kind : CommentKind} (h : r.comment? = some kind) :
    r.pending = '/' ∧ ∃ c rest, r.unread = c :: rest := by
  unfold comment? at h
  split at h
  · next opens =>
    obtain ⟨slash, rest, more⟩ := looksAt_iff.mp opens
    exact ⟨slash, _, rest, more⟩
  · split at h
    · next opens =>
      obtain ⟨slash, rest, more⟩ := looksAt_iff.mp opens
      exact ⟨slash, _, rest, more⟩
    · simp at h

/-- Skipping a comment reads at least the second character of its opener. -/
theorem length_unread_skipComment_lt {r : Reader} {kind : CommentKind}
    (h : r.comment? = some kind) :
    (r.skipComment kind).reader.unread.length < r.unread.length := by
  obtain ⟨slash, c, rest, more⟩ := unread_of_comment? h
  cases kind with
  | line =>
    simp only [skipComment, skipLineComment]
    rw [seek_of_cons (by simp [slash]) more, more]
    exact Nat.lt_succ_of_le (length_unread_seek_le _ _)
  | block =>
    have bound := length_unread_seek_le (·.looksAt '*' '/') r.step
    rw [step_cons more, unread_take] at bound
    simp only [skipComment, skipBlockComment, step_cons more]
    rw [more]
    split
    · have one := weight_step_le_length ((r.take c rest).seek (·.looksAt '*' '/')).2
      have left := length_unread_le_weight ((r.take c rest).seek (·.looksAt '*' '/')).2.step
      simp only [unread_clear, List.length_cons]
      omega
    · exact Nat.lt_succ_of_le bound

/-- Skips blanks and comments up to the next character that belongs to a token. -/
def skipGap (r : Reader) : Skip :=
  let blanks := r.skipBlanks
  if blanks.1 then
    match _opens : blanks.2.comment? with
    | none => ⟨true, blanks.2, []⟩
    | some kind =>
      let comment := blanks.2.skipComment kind
      if comment.reached then
        let rest := comment.reader.skipGap
        { rest with events := comment.events ++ rest.events }
      else comment
  else ⟨false, blanks.2, []⟩
termination_by r.unread.length
decreasing_by
  exact Nat.lt_of_lt_of_le (length_unread_skipComment_lt _opens) (length_unread_seek_le _ _)

theorem weight_skipComment_le (r : Reader) (kind : CommentKind) :
    (r.skipComment kind).reader.weight ≤ r.weight := by
  cases kind with
  | line => exact weight_seek_le _ _
  | block =>
    have search := weight_seek_le (·.looksAt '*' '/') r.step
    have first := r.weight_step_le
    simp only [skipComment, skipBlockComment]
    split
    · have last := weight_step_le (r.step.seek (·.looksAt '*' '/')).2
      have clearing := length_unread_le_weight (r.step.seek (·.looksAt '*' '/')).2.step
      simp only [weight_clear]
      omega
    · exact Nat.le_trans search first

theorem weight_skipGap_le (r : Reader) : r.skipGap.reader.weight ≤ r.weight := by
  fun_induction skipGap r with
  | case1 r blanks found opens => exact weight_seek_le _ _
  | case2 r blanks found kind opens comment reached rest ih =>
    exact Nat.le_trans ih (Nat.le_trans (weight_skipComment_le _ _) (weight_seek_le _ _))
  | case3 r blanks found kind opens comment open_ =>
    exact Nat.le_trans (weight_skipComment_le _ _) (weight_seek_le _ _)
  | case4 r blanks missed => exact weight_seek_le _ _

/-- Behind a gap stands no blank and no comment. -/
theorem skipGap_reached {r : Reader} (h : r.skipGap.reached = true) :
    isBlank r.skipGap.reader.pending = false ∧ r.skipGap.reader.comment? = none := by
  fun_induction skipGap r with
  | case1 r blanks found opens => exact ⟨Bool.not_eq_true' _ |>.mp (seek_found found), opens⟩
  | case2 r blanks found kind opens comment reached rest ih => exact ih h
  | case3 r blanks found kind opens comment open_ => simp_all
  | case4 r blanks missed => simp at h

end Reader

end TokenListing
