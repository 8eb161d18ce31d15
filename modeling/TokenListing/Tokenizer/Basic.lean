import TokenListing.Reader.Gap

set_option autoImplicit false

/-!
A tokenizer cuts its text into tokens on demand. Each step skips a gap and takes the one token that
starts behind it: a run of digits, a letter with the letters and digits behind it, or a single other
character. A step that comes to the end of the text is a fault, and so is a run of digits that
denotes more than an integer holds; the step after that goes on behind the run.
-/

namespace TokenListing

open Text Trace

structure Tokenizer where
  reader : Reader
  vocabulary : Vocabulary
  /-- The line on which the token of the last step starts. -/
  startLine : UInt32
  /-- Whether iteration has come to its end; single steps do not care. -/
  ended : Bool
  deriving DecidableEq, Repr

/-- A step gives a token or a fault, the tokenizer behind it, and what there is to tell. -/
structure Step where
  outcome : Except Fault (Token Entry)
  next : Tokenizer
  events : List Event

/-- The integer that digits denote, if there is one. -/
def integer? (digits : List Char) : Option Int32 :=
  if Decimal.value digits ≤ maxInteger then some (Int32.ofNat (Decimal.value digits)) else none

theorem toInt_ofNat_of_le {n : Nat} (fits : n ≤ maxInteger) : (Int32.ofNat n).toInt = n :=
  Int32.toInt_ofNat_of_lt (Nat.lt_of_le_of_lt fits (by decide))

namespace Tokenizer

/-- A tokenizer at the start of a text; its vocabulary goes by the given number. -/
def ofString (number : Nat) (source : String) : Tokenizer :=
  ⟨.ofString source, .fresh number, 1, false⟩

/-- The step that comes to a token, told last of all. -/
def found (t : Tokenizer) (token : Token Entry) (events : List Event) : Step :=
  ⟨.ok token, t, events ++ [.scanned t.startLine token.plain]⟩

def takeSymbol (t : Tokenizer) : Step :=
  { t with reader := t.reader.clear }.found (.symbol t.reader.pending) []

def takeInteger (t : Tokenizer) : Step :=
  let (digits, behind) := t.reader.takeRun Char.isDigit
  let next := { t with reader := behind }
  match integer? digits with
  | some value => next.found (.integer value) []
  | none =>
    let fault := .tooLarge (String.ofList digits) t.startLine t.reader.start .placeholder
    ⟨.error fault, next, []⟩

def takeWord (t : Tokenizer) : Step :=
  let (letters, behind) := t.reader.takeRun continuesWord
  let lexeme := String.ofList letters
  let known := (t.vocabulary.find? lexeme).isSome
  let (entry, vocabulary) := t.vocabulary.intern lexeme
  { t with reader := behind, vocabulary := vocabulary }.found (.word entry)
    (if known then [] else [.interned lexeme])

/-- Takes the token that starts with the pending character. -/
def takeToken (t : Tokenizer) : Step :=
  if t.reader.pending.isDigit then t.takeInteger
  else if isLetter t.reader.pending then t.takeWord
  else t.takeSymbol

def step (t : Tokenizer) : Step :=
  let gap := t.reader.skipGap
  if gap.reached then
    let taken := { t with reader := gap.reader, startLine := gap.reader.line }.takeToken
    { taken with events := gap.events ++ taken.events }
  else
    ⟨.error (.endOfInput gap.reader.line), { t with reader := gap.reader }, gap.events⟩

/-- One round of iteration: an item, unless iteration is over. -/
structure Draw where
  item : Option (Except Fault (Token Entry))
  next : Tokenizer
  events : List Event

/-- The next item. The end of the text is no item, and behind any fault there is none. -/
def draw (t : Tokenizer) : Draw :=
  if t.ended then ⟨none, t, []⟩
  else
    let s := t.step
    match s.outcome with
    | .ok token => ⟨some (.ok token), s.next, s.events⟩
    | .error fault =>
      ⟨if fault.isEnd then none else some (.error fault), { s.next with ended := true }, s.events⟩

/-- The first character of a token tells how it is taken. -/
theorem takeToken_cases (t : Tokenizer) :
    (t.reader.pending.isDigit = true ∧ t.takeToken = t.takeInteger) ∨
      (isLetter t.reader.pending = true ∧ t.takeToken = t.takeWord) ∨ t.takeToken = t.takeSymbol := by
  unfold takeToken
  split
  · next digit => exact .inl ⟨digit, rfl⟩
  · split
    · next letter => exact .inr (.inl ⟨letter, rfl⟩)
    · exact .inr (.inr rfl)

/-- All digits of an integer are read, whether it is too large or not. -/
theorem next_takeInteger (t : Tokenizer) :
    t.takeInteger.next = { t with reader := (t.reader.takeRun Char.isDigit).2 } := by
  unfold takeInteger
  dsimp only
  split <;> rfl

theorem weight_takeInteger_lt {t : Tokenizer} (digit : t.reader.pending.isDigit = true)
    (h : isBlank t.reader.pending = false) : t.takeInteger.next.reader.weight < t.reader.weight := by
  rw [next_takeInteger]
  exact Reader.weight_takeRun_lt digit h

theorem weight_takeWord_lt {t : Tokenizer} (letter : isLetter t.reader.pending = true)
    (h : isBlank t.reader.pending = false) : t.takeWord.next.reader.weight < t.reader.weight :=
  Reader.weight_takeRun_lt (by simp [continuesWord, letter]) h

theorem weight_takeSymbol_lt {t : Tokenizer} (h : isBlank t.reader.pending = false) :
    t.takeSymbol.next.reader.weight < t.reader.weight := by
  simp only [takeSymbol, found, Reader.weight_clear]
  simp [Reader.weight, h]

/-- A token uses up characters. -/
theorem weight_takeToken_lt {t : Tokenizer} (h : isBlank t.reader.pending = false) :
    t.takeToken.next.reader.weight < t.reader.weight := by
  rcases t.takeToken_cases with ⟨digit, taken⟩ | ⟨letter, taken⟩ | taken <;> rw [taken]
  · exact weight_takeInteger_lt digit h
  · exact weight_takeWord_lt letter h
  · exact weight_takeSymbol_lt h

theorem weight_step_le (t : Tokenizer) : t.step.next.reader.weight ≤ t.reader.weight := by
  have gap := t.reader.weight_skipGap_le
  unfold step
  dsimp only
  split
  · next reached =>
    exact Nat.le_trans (Nat.le_of_lt (weight_takeToken_lt (Reader.skipGap_reached reached).1)) gap
  · exact gap

/-- A step with an outcome other than the end of the text uses up characters. -/
theorem weight_step_lt {t : Tokenizer} (h : ∀ line, t.step.outcome ≠ .error (.endOfInput line)) :
    t.step.next.reader.weight < t.reader.weight := by
  have gap := t.reader.weight_skipGap_le
  unfold step at h ⊢
  dsimp only at h ⊢
  split
  · next reached =>
    exact Nat.lt_of_lt_of_le (weight_takeToken_lt (Reader.skipGap_reached reached).1) gap
  · next missed => simp [missed] at h

end Tokenizer

end TokenListing
