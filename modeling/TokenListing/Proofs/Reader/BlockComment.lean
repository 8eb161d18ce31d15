import TokenListing.Proofs.Reader.Gap
import TokenListing.Proofs.Reader.Operations

set_option autoImplicit false

/-!
Where block comments end. From the star of its opener on, a block comment goes through the first closer,
whatever openers stand in front of that, and where there is no closer it takes all of the text. It is
passed read by read, and the only reads that may fail are those that look for a closer.
-/

namespace TokenListing

open Grammar Text Trace

namespace Grammar

/-- A text whose first closer is behind `inside` and in front of `rest`. -/
structure ClosesBehind (cs inside rest : List Char) : Prop where
  text : cs = inside ++ closer ++ rest
  first : ∀ before behind, cs = before ++ closer ++ behind → inside.length ≤ before.length

/-- An opener may be put between two parts of a text where that is inside a comment, behind the star of
the opener and in front of any closer, and where neither its slash nor its star makes up a closer with
the character beside it. -/
structure Nests (before behind : List Char) : Prop where
  nonempty : before ≠ []
  noCloser : ¬closer <:+: before
  noStar : before.getLast? ≠ some '*'
  noSlash : behind.head? ≠ some '/'

theorem closesBehind_of_notInfix {inside : List Char} (rest : List Char)
    (noCloser : ¬closer <:+: inside ++ ['*']) : ClosesBehind (inside ++ closer ++ rest) inside rest := by
  refine ⟨rfl, fun before behind same => ?_⟩
  by_contra shorter
  -- a closer that starts earlier is over where the star of this one is
  have early : before ++ closer <+: inside ++ ['*'] := by
    have left : before ++ closer <+: inside ++ closer ++ rest := ⟨behind, same.symm⟩
    have right : inside ++ ['*'] <+: inside ++ closer ++ rest := ⟨'/' :: rest, by simp [closer]⟩
    refine List.prefix_of_prefix_length_le left right ?_
    simp only [closer, List.length_append, List.length_cons, List.length_nil]
    omega
  exact noCloser ((List.suffix_append before closer).isInfix.trans early.isInfix)

/-- What is behind the first closer. -/
def behindCloser? (cs : List Char) : Option (List Char) := (cutCloser? cs).map Prod.snd

theorem behindCloser?_cons {c : Char} {cs : List Char} (noCloser : c = '*' → cs.head? ≠ some '/') :
    behindCloser? (c :: cs) = behindCloser? cs := by
  rw [behindCloser?, cutCloser?, if_neg fun h => noCloser h.1 h.2, Option.map_map]
  rfl

theorem behindCloser?_of_notInfix {cs : List Char} (noCloser : ¬closer <:+: cs) :
    behindCloser? cs = none := by
  rw [behindCloser?, cutCloser?_eq_none noCloser, Option.map_none]

theorem behindCloser?_append {inside : List Char} (rest : List Char)
    (noCloser : ¬closer <:+: inside ++ ['*']) :
    behindCloser? (inside ++ closer ++ rest) = some rest := by
  rw [behindCloser?, cutCloser?_append rest noCloser, Option.map_some]

/-- An opener inside a comment does not change what is behind the comment. -/
theorem Nests.behindCloser?_eq {before behind : List Char} (h : Nests before behind) :
    behindCloser? (before ++ '/' :: '*' :: behind) = behindCloser? (before ++ behind) := by
  obtain ⟨nonempty, noCloser, noStar, noSlash⟩ := h
  induction before with
  | nil => contradiction
  | cons c before ih =>
    cases before with
    | nil =>
      have noStar : c = '*' → False := by simpa using noStar
      calc behindCloser? (c :: '/' :: '*' :: behind)
        _ = behindCloser? ('/' :: '*' :: behind) := behindCloser?_cons fun star => (noStar star).elim
        _ = behindCloser? ('*' :: behind) := behindCloser?_cons (by simp)
        _ = behindCloser? behind := behindCloser?_cons fun _ => noSlash
        _ = behindCloser? (c :: behind) := (behindCloser?_cons fun star => (noStar star).elim).symm
    | cons d before =>
      rw [List.infix_cons_iff, not_or] at noCloser
      have here : ∀ more, c = '*' → (d :: more).head? ≠ some '/' := by
        intro more star slash
        obtain rfl := star
        obtain rfl := Option.some.inj slash
        exact noCloser.1 ⟨before, rfl⟩
      have later := ih (List.cons_ne_nil d before) noCloser.2 (by simpa using noStar)
      exact (behindCloser?_cons (here _)).trans (later.trans (behindCloser?_cons (here _)).symm)

end Grammar

/-- What it comes to when a comment is passed: whether there was one or why a read failed, the reader
then, and what there is to tell. -/
structure Passage where
  outcome : Except Fault Bool
  reader : Reader
  events : List Event

/-- Where skipping does not reach what it looks for, the text has come to its end. -/
def Skip.passage (k : Skip) : Passage :=
  ⟨if k.reached then .ok true else .error (.endOfInput k.reader.line), k.reader, k.events⟩

theorem Skip.outcome_passage_iff {k : Skip} : k.passage.outcome = .ok true ↔ k.reached = true := by
  cases reached : k.reached <;> simp [passage, reached]

theorem Skip.outcome_passage_of_missed {k : Skip} (missed : k.reached = false) :
    k.passage.outcome = .error (.endOfInput k.reader.line) := by
  simp [passage, missed]

namespace Reader

/-- Reads one character and goes on from it. Where there is none, `told` is all that there is to tell. -/
def readOn (r : Reader) (told : List Event) (goOn : Reader → Passage) : Passage :=
  match r.read with
  | .ok next => goOn next
  | .error fault => ⟨.error fault, r, told⟩

theorem length_unread_of_read {r next : Reader} (h : r.read = .ok next) :
    next.unread.length < r.unread.length := by
  cases more : r.unread with
  | nil => simp [read_nil more] at h
  | cons c rest =>
    rw [read_cons more] at h
    obtain rfl := Except.ok.inj h
    exact Nat.lt_succ_self _

/-- Reads until `p` holds and goes on from there. -/
def readTo (p : Reader → Bool) (told : List Event) (goOn : Reader → Passage) (r : Reader) : Passage :=
  if p r then goOn r
  else
    match _more : r.read with
    | .ok next => next.readTo p told goOn
    | .error fault => ⟨.error fault, r, told⟩
termination_by r.unread.length
decreasing_by exact length_unread_of_read _more

/-- Passes a block comment read by read: onto the star of its opener, on to a closer, and onto the
slash of that. -/
def passBlockComment (r : Reader) : Passage :=
  if r.looksAt '/' '*' then
    let told := [.blockComment r.line]
    r.readOn told fun star =>
      star.readTo (·.looksAt '*' '/') (told ++ [.unclosed r.line]) fun s =>
        s.readOn told fun slash => ⟨.ok true, slash.clear, told⟩
  else ⟨.ok false, r, []⟩

theorem readTo_eq (p : Reader → Bool) (told : List Event) (goOn : Reader → Passage) (r : Reader) :
    r.readTo p told goOn =
      if (r.seek p).1 then goOn (r.seek p).2
      else ⟨.error (.endOfInput (r.seek p).2.line), (r.seek p).2, told⟩ := by
  fun_induction seek p r with
  | case1 r holds =>
    rw [readTo]
    simp [holds]
  | case2 r fails ends =>
    rw [readTo]
    have stops := read_nil ends
    split
    · contradiction
    · split <;> simp_all
  | case3 r fails c rest more ih =>
    rw [readTo]
    have goes := read_cons more
    split
    · contradiction
    · split <;> simp_all

section

variable {r : Reader}

theorem read_of_looksAt {a b : Char} (h : r.looksAt a b = true) :
    r.read = .ok r.step ∧ r.step.pending = b := by
  obtain ⟨_, rest, more⟩ := looksAt_iff.mp h
  rw [read_cons more, step_cons more]
  exact ⟨rfl, rfl⟩

theorem readOn_of_looksAt {a b : Char} (h : r.looksAt a b = true) (told : List Event)
    (goOn : Reader → Passage) : r.readOn told goOn = goOn r.step := by
  rw [readOn, (read_of_looksAt h).1]

/-- A comment is skipped as it is passed read by read. -/
theorem passBlockComment_eq (opens : r.looksAt '/' '*' = true) :
    r.passBlockComment = r.skipBlockComment.passage := by
  rw [passBlockComment, if_pos opens, readOn_of_looksAt opens, readTo_eq]
  cases found : (r.step.seek (·.looksAt '*' '/')).1 with
  | true =>
    have closes := seek_found found
    simp only [if_true, readOn_of_looksAt closes]
    simp [skipBlockComment, Skip.passage, found]
  | false => simp [skipBlockComment, Skip.passage, found]

theorem outcome_passBlockComment_iff (opens : r.looksAt '/' '*' = true) :
    r.passBlockComment.outcome = .ok true ↔ r.skipBlockComment.reached = true := by
  rw [passBlockComment_eq opens]
  exact Skip.outcome_passage_iff

/-- Where the search for a closer succeeds, the slash of the closer can be read. -/
theorem exists_read_slash (opens : r.looksAt '/' '*' = true) {star s : Reader}
    (read : r.read = .ok star) (found : star.seek (·.looksAt '*' '/') = (true, s)) :
    ∃ slash, s.read = .ok slash ∧ slash.pending = '/' ∧ r.skipBlockComment.reader = slash.clear := by
  obtain rfl : r.step = star := Except.ok.inj ((read_of_looksAt opens).1.symm.trans read)
  have closes : s.looksAt '*' '/' = true := by
    have here := seek_found (congrArg Prod.fst found)
    rwa [found] at here
  obtain ⟨next, slash⟩ := read_of_looksAt closes
  exact ⟨s.step, next, slash, by simp [skipBlockComment, found]⟩

/-- From one reader of a text to another `read` has been read. -/
structure Reads (r s : Reader) (source : String) (read : List Char) : Prop where
  unread : r.unread = read ++ s.unread
  divides : ∃ passed, r.Divides source passed r.unread ∧ s.Divides source (passed ++ read) s.unread
  line : s.line = r.line + UInt32.ofNat (read.count '\n')
  lines : source.toList.count '\n' < UInt32.size - 1 →
    s.line.toNat = r.line.toNat + read.count '\n'

section

variable {source : String}

theorem Moves.reads {s : Reader} {read : List Char} (start : (ofString source).Moves r)
    (moves : r.Moves s) (split : r.unread = read ++ s.unread) : r.Reads s source read := by
  obtain ⟨passed, _, here⟩ := start.divides
  obtain ⟨further, _, there⟩ := (start.trans moves).divides
  obtain rfl := here.unread
  obtain rfl := there.unread
  obtain rfl : passed ++ read = further := by
    have text := here.text.symm.trans there.text
    rw [split, ← List.append_assoc] at text
    exact List.append_cancel_right text
  refine ⟨split, ⟨passed, here, there⟩, ?_, fun few => ?_⟩
  · rw [there.line, here.line, lineAfter_append]
  · rw [there.line, here.line, toNat_lineAfter_of_append there.text few,
      toNat_lineAfter_of_append here.text few, List.count_append]
    omega

theorem Moves.exists_holds_opener (start : (ofString source).Moves r)
    (opens : r.looksAt '/' '*' = true) : ∃ front body,
      r.unread = '*' :: body ∧ r.Holds front ('/' :: '*' :: body) := by
  obtain ⟨slash, body, more⟩ := looksAt_iff.mp opens
  obtain ⟨passed, _, here⟩ := start.divides
  obtain ⟨front, _, holds⟩ := here.exists_holds (by simp [slash])
  rw [← here.unread, slash, more] at holds
  exact ⟨front, body, more, holds⟩

theorem skipBlockComment_closed {inside rest : List Char} (start : (ofString source).Moves r)
    (opens : r.looksAt '/' '*' = true) (text : r.unread = inside ++ closer ++ rest)
    (noCloser : ¬closer <:+: inside ++ ['*']) :
    r.skipBlockComment.reached = true ∧ r.skipBlockComment.reader.unread = rest := by
  obtain ⟨front, body, more, holds⟩ := start.exists_holds_opener opens
  rw [more] at text
  obtain ⟨through, closed⟩ := exists_cons_closer text
  rw [text, closed] at holds
  obtain ⟨s, idles, skipped⟩ := Holds.skipBlockComment_closed closed noCloser holds
  rw [skipped]
  exact ⟨rfl, idles.text⟩

theorem skipBlockComment_open (start : (ofString source).Moves r) (opens : r.looksAt '/' '*' = true)
    (noCloser : ¬closer <:+: r.unread) :
    r.skipBlockComment.reached = false ∧ r.skipBlockComment.reader.unread = [] ∧
      r.unread.getLast? = some r.skipBlockComment.reader.pending := by
  obtain ⟨front, body, more, holds⟩ := start.exists_holds_opener opens
  rw [more] at noCloser ⊢
  have split := List.dropLast_concat_getLast (List.cons_ne_nil '*' body)
  obtain ⟨s, held, skipped⟩ := Holds.skipBlockComment_open noCloser split.symm holds
  rw [skipped]
  refine ⟨rfl, held.unread_eq, ?_⟩
  rw [List.getLast?_eq_some_getLast (List.cons_ne_nil _ _), held.pending_eq]

theorem pending_skipBlockComment (reached : r.skipBlockComment.reached = true) :
    r.skipBlockComment.reader.pending = ' ' := by
  unfold skipBlockComment at reached ⊢
  dsimp only at reached ⊢
  split
  · rfl
  · next open_ => simp [open_] at reached

/-- The comment in front of a reader ends with the closer behind `inside`. Where `inside` is empty, the
star of the opener is the star of the closer. -/
structure Closes (r : Reader) (source : String) (inside rest : List Char) : Prop where
  first : ClosesBehind r.unread inside rest
  outcome : r.passBlockComment.outcome = .ok true
  reads : r.Reads r.skipBlockComment.reader source (inside ++ closer)
  unread : r.skipBlockComment.reader.unread = rest
  pending : r.skipBlockComment.reader.pending = ' '

/-- The comment in front of a reader takes all that is left of the text. -/
structure RunsToEnd (r : Reader) (source : String) : Prop where
  outcome : r.passBlockComment.outcome = .error (.endOfInput r.skipBlockComment.reader.line)
  reads : r.Reads r.skipBlockComment.reader source r.unread
  unread : r.skipBlockComment.reader.unread = []
  pending : r.unread.getLast? = some r.skipBlockComment.reader.pending

theorem exists_closes (start : (ofString source).Moves r) (opens : r.looksAt '/' '*' = true)
    (contained : closer <:+: r.unread) : ∃ inside rest, r.Closes source inside rest := by
  obtain ⟨inside, rest, text, noCloser⟩ := exists_first_closer contained
  obtain ⟨reached, unread⟩ := skipBlockComment_closed start opens text noCloser
  have first : ClosesBehind r.unread inside rest := by
    rw [text]
    exact closesBehind_of_notInfix rest noCloser
  have split : r.unread = inside ++ closer ++ r.skipBlockComment.reader.unread := by
    rw [unread, text]
  exact ⟨inside, rest, first, (outcome_passBlockComment_iff opens).mpr reached,
    start.reads (r.moves_skipComment .block) split, unread, pending_skipBlockComment reached⟩

theorem runsToEnd (start : (ofString source).Moves r) (opens : r.looksAt '/' '*' = true)
    (noCloser : ¬closer <:+: r.unread) : r.RunsToEnd source := by
  obtain ⟨missed, unread, last⟩ := skipBlockComment_open start opens noCloser
  have split : r.unread = r.unread ++ r.skipBlockComment.reader.unread := by
    rw [unread, List.append_nil]
  refine ⟨?_, start.reads (r.moves_skipComment .block) split, unread, last⟩
  rw [passBlockComment_eq opens]
  exact Skip.outcome_passage_of_missed missed

theorem closes_iff (start : (ofString source).Moves r) (opens : r.looksAt '/' '*' = true) :
    r.passBlockComment.outcome = .ok true ↔ closer <:+: r.unread := by
  constructor
  · intro outcome
    by_contra noCloser
    have fails := (runsToEnd start opens noCloser).outcome
    rw [outcome] at fails
    cases fails
  · intro contained
    obtain ⟨inside, rest, closes⟩ := exists_closes start opens contained
    exact closes.outcome

theorem skipBlockComment_behindCloser? (start : (ofString source).Moves r)
    (opens : r.looksAt '/' '*' = true) :
    r.skipBlockComment.reached = (behindCloser? r.unread).isSome ∧
      r.skipBlockComment.reader.unread = (behindCloser? r.unread).getD [] := by
  by_cases contained : closer <:+: r.unread
  · obtain ⟨inside, rest, text, noCloser⟩ := exists_first_closer contained
    rw [text, behindCloser?_append rest noCloser]
    exact skipBlockComment_closed start opens text noCloser
  · obtain ⟨missed, unread, _⟩ := skipBlockComment_open start opens contained
    rw [behindCloser?_of_notInfix contained]
    exact ⟨missed, unread⟩

/-- An opener that is put inside a comment changes neither whether the comment is closed nor what is
behind it. -/
theorem passBlockComment_nests {s : Reader} {other : String} {before behind : List Char}
    (start : (ofString source).Moves r) (opens : r.looksAt '/' '*' = true)
    (text : r.unread = before ++ behind) (nests : Nests before behind)
    (startOther : (ofString other).Moves s) (slash : s.pending = '/')
    (textOther : s.unread = before ++ '/' :: '*' :: behind) :
    (s.passBlockComment.outcome = .ok true ↔ r.passBlockComment.outcome = .ok true) ∧
      s.skipBlockComment.reader.unread = r.skipBlockComment.reader.unread := by
  have opensOther : s.looksAt '/' '*' = true := by
    obtain ⟨_, body, more⟩ := looksAt_iff.mp opens
    obtain ⟨c, front, rfl⟩ := List.exists_cons_of_ne_nil nests.nonempty
    obtain rfl : c = '*' := (List.cons.inj (text.symm.trans more)).1
    exact looksAt_iff.mpr ⟨slash, _, textOther⟩
  obtain ⟨reached, unread⟩ := skipBlockComment_behindCloser? start opens
  obtain ⟨reachedOther, unreadOther⟩ := skipBlockComment_behindCloser? startOther opensOther
  rw [textOther, nests.behindCloser?_eq, ← text] at reachedOther unreadOther
  rw [outcome_passBlockComment_iff opens, outcome_passBlockComment_iff opensOther, reached,
    reachedOther, unread, unreadOther]
  exact ⟨Iff.rfl, rfl⟩

end

/-- How the block comment in front of a reader is passed, and where it ends. -/
structure PassesBlockComment (r : Reader) (source : String) : Prop where
  skips : r.passBlockComment = r.skipBlockComment.passage
  opening : ∃ star, r.read = .ok star ∧ star.pending = '*'
  closing : ∀ star s, r.read = .ok star → star.seek (·.looksAt '*' '/') = (true, s) →
    ∃ slash, s.read = .ok slash ∧ slash.pending = '/' ∧ r.skipBlockComment.reader = slash.clear
  closes : r.passBlockComment.outcome = .ok true ↔ closer <:+: r.unread
  closed : closer <:+: r.unread → ∃ inside rest, r.Closes source inside rest
  unclosed : ¬closer <:+: r.unread → r.RunsToEnd source
  nested : ∀ (s : Reader) (other : String) (before behind : List Char),
    r.unread = before ++ behind → Nests before behind →
    (ofString other).Moves s → s.pending = '/' → s.unread = before ++ '/' :: '*' :: behind →
    (s.passBlockComment.outcome = .ok true ↔ r.passBlockComment.outcome = .ok true) ∧
      s.skipBlockComment.reader.unread = r.skipBlockComment.reader.unread

/-- Wherever a reader stands at the opener of a block comment, it passes the comment through the first
closer in the text from the star on, or through all of that text if there is none. -/
theorem block_comments_close_first {source : String} (start : (ofString source).Moves r)
    (opens : r.looksAt '/' '*' = true) : r.PassesBlockComment source where
  skips := passBlockComment_eq opens
  opening := ⟨r.step, read_of_looksAt opens⟩
  closing _ _ read found := exists_read_slash opens read found
  closes := closes_iff start opens
  closed := exists_closes start opens
  unclosed := runsToEnd start opens
  nested _ _ _ _ text nests startOther slash textOther :=
    passBlockComment_nests start opens text nests startOther slash textOther

/-- A comment that the star of its opener closes, one that is still open behind another opener, and one
that is closed behind another opener. -/
theorem block_comments_close_first_star :
    (((ofString "é/*/ */").steps 2).passBlockComment.outcome = .ok true ∧
        ((ofString "é/*/ */").steps 2).skipBlockComment.reader.unread = " */".toList) ∧
      (((ofString "/**\n /*").steps 1).passBlockComment.outcome = .error (.endOfInput 2) ∧
        ((ofString "/**\n /*").steps 1).skipBlockComment.reader.pending = '*') ∧
      ((ofString "/*a/**/ b").steps 1).skipBlockComment.reader.unread =
        ((ofString "/*a*/ b").steps 1).skipBlockComment.reader.unread := by
  refine ⟨?_, ?_, ?_⟩
  · have passes := block_comments_close_first (moves_steps 2 (ofString "é/*/ */")) (by decide)
    have contained : closer <:+: ((ofString "é/*/ */").steps 2).unread := by decide
    obtain ⟨inside, rest, closes⟩ := passes.closed contained
    obtain rfl : inside = [] := by
      have least := closes.first.first [] " */".toList (by decide)
      exact List.length_eq_zero_iff.mp (Nat.le_zero.mp least)
    have text : "*/ */".toList = closer ++ rest := closes.first.text
    refine ⟨closes.outcome, closes.unread.trans ?_⟩
    exact List.append_cancel_left (text.symm.trans (by decide))
  · have passes := block_comments_close_first (moves_steps 1 (ofString "/**\n /*")) (by decide)
    have noCloser : ¬closer <:+: ((ofString "/**\n /*").steps 1).unread := by decide +kernel
    have runs := passes.unclosed noCloser
    have line : ((ofString "/**\n /*").steps 1).skipBlockComment.reader.line = 2 :=
      runs.reads.line.trans (by decide)
    have last : ((ofString "/**\n /*").steps 1).unread.getLast? = some '*' := by decide
    refine ⟨?_, Option.some.inj (runs.pending.symm.trans last)⟩
    rw [runs.outcome, line]
  · have passes := block_comments_close_first (moves_steps 1 (ofString "/*a*/ b")) (by decide)
    have nests : Nests ['*', 'a'] ['*', '/', ' ', 'b'] :=
      ⟨by decide, by decide +kernel, by decide, by decide⟩
    exact (passes.nested _ _ _ _ (by decide) nests (moves_steps 1 (ofString "/*a/**/ b")) (by decide)
      (by decide)).2

end

end Reader

end TokenListing
