import TokenListing.Proofs.Tokenizer.Position

set_option autoImplicit false

/-!
The loops of a step. A step works in rounds, one for each time that one of its loops looks at the
pending character: over blanks, over either kind of comment, and over the characters of a run. A
measure falls from round to round, so the rounds of every step come to an end; and no round changes
what the step comes to.
-/

namespace TokenListing

open Text Trace

namespace Reader

variable {p : Char → Bool} {r : Reader}

theorem length_unread_step_lt {c : Char} {rest : List Char} (more : r.unread = c :: rest) :
    r.step.unread.length < r.unread.length := by
  rw [step_cons more, more]
  exact Nat.lt_succ_self _

theorem takeRun_of_false (h : p r.pending = false) : r.takeRun p = ([], r) := by
  simp [takeRun, h, steps]

theorem takeRun_of_true (h : p r.pending = true) (noSpace : p ' ' = false) :
    r.takeRun p = (r.pending :: (r.step.takeRun p).1, (r.step.takeRun p).2) := by
  cases more : r.unread with
  | nil =>
    -- behind the last character a blank is pending, and it is not of the class
    rw [step_nil more, takeRun_of_false (show p r.clear.pending = false from noSpace)]
    simp [takeRun, h, more, steps, step_nil more]
  | cons c rest =>
    simp [takeRun, h, more, steps, step_cons more]

/-- The rest of a comment that goes on until `p` holds. -/
def restOf (p : Reader → Bool) (close : Reader → Reader) (unclosed : List Event) (r : Reader) : Skip :=
  let (closed, s) := r.seek p
  if closed then ⟨true, close s, []⟩ else ⟨false, s, unclosed⟩

theorem skipLineComment_eq (r : Reader) :
    r.skipLineComment = (r.restOf (·.pending == '\n') id []).behind [.lineComment r.line] := by
  cases closed : (r.seek (·.pending == '\n')).1 <;>
    simp [skipLineComment, restOf, Skip.behind, closed]

theorem skipBlockComment_eq (r : Reader) :
    r.skipBlockComment = (r.step.restOf (·.looksAt '*' '/') (·.step.clear)
      [.unclosed r.line]).behind [.blockComment r.line] := by
  cases closed : (r.step.seek (·.looksAt '*' '/')).1 <;>
    simp [skipBlockComment, restOf, Skip.behind, closed]

section

variable {p : Reader → Bool} (close : Reader → Reader) (unclosed : List Event) {r : Reader}

theorem restOf_of_true (closes : p r = true) :
    r.restOf p close unclosed = ⟨true, close r, []⟩ := by
  simp [restOf, seek_of_true closes]

theorem restOf_of_nil (goes : p r = false) (ends : r.unread = []) :
    r.restOf p close unclosed = ⟨false, r, unclosed⟩ := by
  simp [restOf, seek_of_nil goes ends]

theorem restOf_of_cons {c : Char} {rest : List Char} (goes : p r = false)
    (more : r.unread = c :: rest) :
    r.restOf p close unclosed = (r.take c rest).restOf p close unclosed := by
  simp only [restOf, seek_of_cons goes more]

end

end Reader

namespace Tokenizer

theorem step_congr {t : Tokenizer} {r : Reader} (gap : t.reader.skipGap = r.skipGap) :
    t.step = { t with reader := r }.step := by
  unfold step
  rw [gap]

def endInteger (t : Tokenizer) (start : Nat) (digits : List Char) : Step :=
  match integer? digits with
  | some value => t.found (.integer value) []
  | none => ⟨.error (.tooLarge (String.ofList digits) t.startLine start .placeholder), t, []⟩

def endWord (t : Tokenizer) (letters : List Char) : Step :=
  let lexeme := String.ofList letters
  let known := (t.vocabulary.find? lexeme).isSome
  let (entry, vocabulary) := t.vocabulary.intern lexeme
  { t with vocabulary := vocabulary }.found (.word entry) (if known then [] else [.interned lexeme])

theorem takeInteger_eq (t : Tokenizer) :
    t.takeInteger = { t with reader := (t.reader.takeRun Char.isDigit).2 }.endInteger t.reader.start
      (t.reader.takeRun Char.isDigit).1 := rfl

theorem takeWord_eq (t : Tokenizer) :
    t.takeWord = { t with reader := (t.reader.takeRun continuesWord).2 }.endWord
      (t.reader.takeRun continuesWord).1 := rfl

/-- The loop that a step is in, and what it has gathered there. -/
inductive Stage where
  | gap
  | lineComment
  | blockComment (line : UInt32)
  | integer (start : Nat) (digits : List Char)
  | word (letters : List Char)

structure Work where
  tokenizer : Tokenizer
  stage : Stage
  told : List Event

namespace Work

def start (t : Tokenizer) : Work := ⟨t, .gap, []⟩

def reader (w : Work) : Reader := w.tokenizer.reader

def goOn (w : Work) (stage : Stage) (r : Reader) (events : List Event) : Work :=
  ⟨{ w.tokenizer with reader := r }, stage, w.told ++ events⟩

section

variable (w : Work) (stage : Stage) (r : Reader) (events : List Event)

@[simp] theorem tokenizer_goOn :
    (w.goOn stage r events).tokenizer = { w.tokenizer with reader := r } := rfl

@[simp] theorem reader_goOn : (w.goOn stage r events).reader = r := rfl

@[simp] theorem stage_goOn : (w.goOn stage r events).stage = stage := rfl

@[simp] theorem told_goOn : (w.goOn stage r events).told = w.told ++ events := rfl

end

/-- Reads the next character. Where there is none the step is over, and `last` is told as well. -/
def readOn (w : Work) (last : List Event) : Work ⊕ Step :=
  match w.reader.read with
  | .ok r => .inl (w.goOn w.stage r [])
  | .error fault => .inr ⟨.error fault, w.tokenizer, w.told ++ last⟩

theorem readOn_nil {w : Work} (ends : w.reader.unread = []) (last : List Event) :
    w.readOn last = .inr ⟨.error (.endOfInput w.reader.line), w.tokenizer, w.told ++ last⟩ := by
  simp [readOn, Reader.read_nil ends]

theorem readOn_cons {w : Work} {c : Char} {rest : List Char} (more : w.reader.unread = c :: rest)
    (last : List Event) : w.readOn last = .inl (w.goOn w.stage (w.reader.take c rest) []) := by
  simp [readOn, Reader.read_cons more]

/-- Behind the gap: a symbol is all of its token, the others are runs. -/
def startToken (w : Work) : Work ⊕ Step :=
  let t := { w.tokenizer with startLine := w.reader.line }
  if w.reader.pending.isDigit then
    .inl { w with tokenizer := t, stage := .integer w.reader.start [] }
  else if isLetter w.reader.pending then .inl { w with tokenizer := t, stage := .word [] }
  else .inr (t.takeSymbol.behind w.told)

def inGap (w : Work) : Work ⊕ Step :=
  let r := w.reader
  if isBlank r.pending then w.readOn []
  else
    match r.comment? with
    | some .line => .inl (w.goOn .lineComment r [.lineComment r.line])
    | some .block => .inl (w.goOn (.blockComment r.line) r.step [.blockComment r.line])
    | none => w.startToken

/-- Inside a comment, until `p` holds. -/
def inComment (w : Work) (p : Reader → Bool) (close : Reader → Reader) (unclosed : List Event) :
    Work ⊕ Step :=
  if p w.reader then .inl (w.goOn .gap (close w.reader) []) else w.readOn unclosed

def inInteger (w : Work) (start : Nat) (digits : List Char) : Work ⊕ Step :=
  let r := w.reader
  if r.pending.isDigit then .inl (w.goOn (.integer start (digits ++ [r.pending])) r.step [])
  else .inr ((w.tokenizer.endInteger start digits).behind w.told)

/-- The first character is known to be a letter, so the class is asked of the one behind. -/
def inWord (w : Work) (letters : List Char) : Work ⊕ Step :=
  let r := w.reader
  let next := w.goOn (.word (letters ++ [r.pending])) r.step []
  if continuesWord r.step.pending then .inl next
  else .inr ((next.tokenizer.endWord (letters ++ [r.pending])).behind w.told)

def round (w : Work) : Work ⊕ Step :=
  match w.stage with
  | .gap => w.inGap
  | .lineComment => w.inComment (·.pending == '\n') id []
  | .blockComment line => w.inComment (·.looksAt '*' '/') (·.step.clear) [.unclosed line]
  | .integer start digits => w.inInteger start digits
  | .word letters => w.inWord letters

/-- So many rounds make up a step. -/
inductive Finishes : Nat → Work → Step → Prop where
  | last {w : Work} {s : Step} (stops : w.round = .inr s) : Finishes 1 w s
  | more {n : Nat} {w next : Work} {s : Step} (goes : w.round = .inl next)
      (rest : Finishes n next s) : Finishes (n + 1) w s

/-- What falls from round to round. A loop that ends without reading leads to one with less ahead of
it: from a gap to a token or a comment, from a line comment to the line feed behind it. -/
def measure (w : Work) : Nat :=
  3 * w.reader.unread.length +
    match w.stage with
    | .gap => if isBlank w.reader.pending then 0 else 2
    | .lineComment => if w.reader.pending == '\n' then 1 else 0
    | .integer .. => if w.reader.pending.isDigit then 1 else 0
    | .blockComment _ | .word _ => 0

theorem measure_le (w : Work) : w.measure ≤ 3 * w.reader.unread.length + 2 := by
  unfold measure
  refine Nat.add_le_add_left ?_ _
  split
  · split <;> omega
  · split <;> omega
  · split <;> omega
  · omega
  · omega

theorem measure_lt_of_length {v w : Work} (h : v.reader.unread.length < w.reader.unread.length) :
    v.measure < w.measure := by
  have most := v.measure_le
  have least : 3 * w.reader.unread.length ≤ w.measure := Nat.le_add_right _ _
  omega

theorem measure_readOn_lt {w next : Work} {last : List Event} (h : w.readOn last = .inl next) :
    next.measure < w.measure := by
  cases more : w.reader.unread with
  | nil => simp [readOn_nil more] at h
  | cons c rest =>
    rw [readOn_cons more] at h
    obtain rfl := Sum.inl.inj h
    refine measure_lt_of_length ?_
    rw [more]
    exact Nat.lt_succ_self _

theorem measure_startToken_lt {w next : Work} (h : w.startToken = .inl next) :
    next.measure < 3 * w.reader.unread.length + 2 := by
  unfold startToken at h
  split at h
  · next digit =>
    obtain rfl := Sum.inl.inj h
    have digit : w.tokenizer.reader.pending.isDigit = true := digit
    simp [measure, reader, digit]
  · split at h
    · obtain rfl := Sum.inl.inj h
      simp [measure, reader]
    · cases h

theorem measure_inGap_lt {w next : Work} (stage : w.stage = .gap) (h : w.inGap = .inl next) :
    next.measure < w.measure := by
  unfold inGap at h
  dsimp only at h
  split at h
  · exact measure_readOn_lt h
  · next noBlank =>
    rw [Bool.not_eq_true] at noBlank
    have here : w.measure = 3 * w.reader.unread.length + 2 := by simp [measure, stage, noBlank]
    split at h
    · next opens =>
      obtain rfl := Sum.inl.inj h
      rw [here]
      simp [measure, (Reader.unread_of_comment? opens).1]
    · next opens =>
      obtain ⟨_, c, rest, more⟩ := Reader.unread_of_comment? opens
      obtain rfl := Sum.inl.inj h
      exact measure_lt_of_length (Reader.length_unread_step_lt more)
    · rw [here]
      exact measure_startToken_lt h

theorem measure_inComment_lt {w next : Work} {p : Reader → Bool} {close : Reader → Reader}
    {unclosed : List Event}
    (closes : p w.reader = true → (w.goOn .gap (close w.reader) []).measure < w.measure)
    (h : w.inComment p close unclosed = .inl next) : next.measure < w.measure := by
  unfold inComment at h
  split at h
  · next here =>
    obtain rfl := Sum.inl.inj h
    exact closes here
  · exact measure_readOn_lt h

theorem measure_inInteger_lt {w next : Work} {start : Nat} {digits : List Char}
    (stage : w.stage = .integer start digits) (h : w.inInteger start digits = .inl next) :
    next.measure < w.measure := by
  unfold inInteger at h
  dsimp only at h
  split at h
  · next digit =>
    obtain rfl := Sum.inl.inj h
    cases more : w.reader.unread with
    | nil =>
      have space : Char.isDigit ' ' = false := by decide
      simp [measure, stage, digit, Reader.step_nil more, more, space]
    | cons c rest => exact measure_lt_of_length (Reader.length_unread_step_lt more)
  · cases h

theorem measure_inWord_lt {w next : Work} {letters : List Char} (h : w.inWord letters = .inl next) :
    next.measure < w.measure := by
  unfold inWord at h
  dsimp only at h
  split at h
  · next goes =>
    obtain rfl := Sum.inl.inj h
    cases more : w.reader.unread with
    | nil =>
      have space : continuesWord ' ' = false := by decide
      simp [Reader.step_nil more, space] at goes
    | cons c rest => exact measure_lt_of_length (Reader.length_unread_step_lt more)
  · cases h

theorem measure_round_lt {w next : Work} (h : w.round = .inl next) : next.measure < w.measure := by
  cases stage : w.stage <;> simp only [round, stage] at h
  case gap => exact measure_inGap_lt stage h
  case lineComment =>
    refine measure_inComment_lt (fun feed => ?_) h
    simp [measure, stage, beq_iff_eq.mp feed, isBlank]
  case blockComment line =>
    refine measure_inComment_lt (fun closer => ?_) h
    obtain ⟨_, rest, more⟩ := Reader.looksAt_iff.mp closer
    exact measure_lt_of_length (Reader.length_unread_step_lt more)
  case integer start digits => exact measure_inInteger_lt stage h
  case word letters => exact measure_inWord_lt h

def skipOn (w : Work) (skip : Skip) : Step :=
  let t := { w.tokenizer with reader := skip.reader }
  if skip.reached then t.step.behind (w.told ++ skip.events)
  else ⟨.error (.endOfInput skip.reader.line), t, w.told ++ skip.events⟩

theorem skipOn_goOn (w : Work) (stage : Stage) (r : Reader) (events : List Event) (skip : Skip) :
    (w.goOn stage r events).skipOn skip = w.skipOn (skip.behind events) := by
  cases reached : skip.reached <;> simp [skipOn, Skip.behind, reached]

/-- What the work is going to come to. -/
def result (w : Work) : Step :=
  match w.stage with
  | .gap => w.tokenizer.step.behind w.told
  | .lineComment => w.skipOn (w.reader.restOf (·.pending == '\n') id [])
  | .blockComment line =>
    w.skipOn (w.reader.restOf (·.looksAt '*' '/') (·.step.clear) [.unclosed line])
  | .integer start digits =>
    let (more, r) := w.reader.takeRun Char.isDigit
    (endInteger { w.tokenizer with reader := r } start (digits ++ more)).behind w.told
  | .word letters =>
    let (more, r) := w.reader.step.takeRun continuesWord
    (endWord { w.tokenizer with reader := r } (letters ++ w.reader.pending :: more)).behind w.told

theorem skipOn_skipComment {w : Work} {kind : CommentKind} (noBlank : isBlank w.reader.pending = false)
    (opens : w.reader.comment? = some kind) :
    w.skipOn (w.reader.skipComment kind) = w.tokenizer.step.behind w.told := by
  have blanks : w.reader.skipBlanks = (true, w.reader) := Reader.seek_of_true (by simp [noBlank])
  cases reached : (w.reader.skipComment kind).reached with
  | true =>
    rw [step_of_behind (Reader.skipGap_of_closed blanks opens reached)]
    simp [skipOn, reached, Step.behind]
  | false =>
    have missed : w.reader.skipGap = ⟨false, (w.reader.skipComment kind).reader,
        (w.reader.skipComment kind).events⟩ := by
      rw [Reader.skipGap_of_open blanks opens reached, ← reached]
    rw [step_of_missed missed]
    simp [skipOn, reached, Step.behind]

theorem result_startToken {w : Work} (stage : w.stage = .gap)
    (noBlank : isBlank w.reader.pending = false) (noComment : w.reader.comment? = none) :
    w.startToken.elim result id = w.result := by
  have blanks : w.reader.skipBlanks = (true, w.reader) := Reader.seek_of_true (by simp [noBlank])
  have step : w.tokenizer.step = { w.tokenizer with startLine := w.reader.line }.takeToken :=
    step_of_reached (Reader.skipGap_of_none blanks noComment)
  have result : w.result = w.tokenizer.step.behind w.told := by simp [result, stage]
  rw [result, step, takeToken]
  unfold startToken
  dsimp only
  split
  · next digit =>
    have digit : w.tokenizer.reader.pending.isDigit = true := digit
    rw [if_pos digit, takeInteger_eq]
    simp [Work.result, reader]
  · next noDigit =>
    have noDigit : ¬w.tokenizer.reader.pending.isDigit = true := noDigit
    rw [if_neg noDigit]
    split
    · next letter =>
      have letter : isLetter w.tokenizer.reader.pending = true := letter
      have run := Reader.takeRun_of_true (p := continuesWord) (r := w.tokenizer.reader)
        (by simp [continuesWord, letter]) (by decide)
      rw [if_pos letter, takeWord_eq, run]
      simp [Work.result, reader]
    · next noLetter =>
      have noLetter : ¬isLetter w.tokenizer.reader.pending = true := noLetter
      rw [if_neg noLetter]
      rfl

theorem result_inComment {w : Work} {p : Reader → Bool} {close : Reader → Reader}
    {unclosed : List Event}
    (goes : ∀ r, (w.goOn w.stage r []).result = w.skipOn (r.restOf p close unclosed)) :
    (w.inComment p close unclosed).elim result id = w.skipOn (w.reader.restOf p close unclosed) := by
  unfold inComment
  split
  · next closes =>
    rw [Reader.restOf_of_true close unclosed closes]
    rfl
  · next open_ =>
    rw [Bool.not_eq_true] at open_
    cases more : w.reader.unread with
    | nil =>
      rw [readOn_nil more, Reader.restOf_of_nil close unclosed open_ more]
      rfl
    | cons c rest =>
      rw [readOn_cons more, Reader.restOf_of_cons close unclosed open_ more]
      exact goes _

theorem result_inGap {w : Work} (stage : w.stage = .gap) : w.inGap.elim result id = w.result := by
  have result : w.result = w.tokenizer.step.behind w.told := by simp [result, stage]
  unfold inGap
  dsimp only
  split
  · next blank =>
    cases more : w.reader.unread with
    | nil =>
      have blanks : w.reader.skipBlanks = (false, w.reader) :=
        Reader.seek_of_nil (by simp [blank]) more
      rw [readOn_nil more, result, step_of_missed (Reader.skipGap_of_missed blanks)]
      rfl
    | cons c rest =>
      have gap : w.reader.skipGap = (w.reader.take c rest).skipGap :=
        Reader.skipGap_congr (Reader.seek_of_cons (by simp [blank]) more)
      rw [readOn_cons more, result, step_congr gap]
      simp [Work.result, stage]
  · next noBlank =>
    rw [Bool.not_eq_true] at noBlank
    split
    · next opens =>
      rw [result, ← skipOn_skipComment noBlank opens, Reader.skipComment, Reader.skipLineComment_eq]
      exact skipOn_goOn w _ _ _ _
    · next opens =>
      rw [result, ← skipOn_skipComment noBlank opens, Reader.skipComment, Reader.skipBlockComment_eq]
      exact skipOn_goOn w _ _ _ _
    · next none => exact result_startToken stage noBlank none

theorem result_inInteger {w : Work} {start : Nat} {digits : List Char}
    (stage : w.stage = .integer start digits) :
    (w.inInteger start digits).elim result id = w.result := by
  unfold inInteger
  dsimp only
  split
  · next digit => simp [result, stage, Reader.takeRun_of_true digit (by decide)]
  · next noDigit =>
    rw [Bool.not_eq_true] at noDigit
    simp only [result, stage, Reader.takeRun_of_false noDigit, List.append_nil]
    rfl

theorem result_inWord {w : Work} {letters : List Char} (stage : w.stage = .word letters) :
    (w.inWord letters).elim result id = w.result := by
  unfold inWord
  dsimp only
  split
  · next goes => simp [result, stage, Reader.takeRun_of_true goes (by decide)]
  · next ends =>
    rw [Bool.not_eq_true] at ends
    simp [result, stage, Reader.takeRun_of_false ends]

/-- No round changes what the work comes to. -/
theorem result_round (w : Work) : w.round.elim result id = w.result := by
  cases stage : w.stage <;> simp only [round, stage]
  case gap => exact result_inGap stage
  case lineComment =>
    rw [result_inComment fun r => by rw [stage]; exact skipOn_goOn w _ r [] _]
    simp only [result, stage]
  case blockComment line =>
    rw [result_inComment fun r => by rw [stage]; exact skipOn_goOn w _ r [] _]
    simp only [result, stage]
  case integer start digits => exact result_inInteger stage
  case word letters => exact result_inWord stage

theorem exists_finishes (w : Work) : ∃ n ≤ w.measure + 1, w.Finishes n w.result := by
  induction size : w.measure using Nat.strongRecOn generalizing w with
  | ind m ih =>
    have same := w.result_round
    cases here : w.round with
    | inl next =>
      rw [here] at same
      have less : next.measure < m := size ▸ measure_round_lt here
      obtain ⟨n, few, finishes⟩ := ih next.measure less next rfl
      rw [show next.result = w.result from same] at finishes
      exact ⟨n + 1, by omega, .more here finishes⟩
    | inr s =>
      rw [here] at same
      obtain rfl : s = w.result := same
      exact ⟨1, by omega, .last here⟩

end Work

/-- Whatever a tokenizer has gone through, its next step ends after a number of rounds that the
unread text bounds. -/
theorem finishes_step (t : Tokenizer) :
    ∃ n ≤ 3 * t.reader.unread.length + 3, (Work.start t).Finishes n t.step := by
  obtain ⟨n, few, finishes⟩ := (Work.start t).exists_finishes
  have bound := (Work.start t).measure_le
  exact ⟨n, Nat.le_trans few (Nat.succ_le_succ bound), finishes⟩

end Tokenizer

end TokenListing
