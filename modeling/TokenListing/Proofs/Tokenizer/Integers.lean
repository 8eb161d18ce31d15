import TokenListing.Proofs.Reader.Operations
import TokenListing.Proofs.Text.Numerals
import TokenListing.Proofs.Tokenizer.Rounds

set_option autoImplicit false

/-!
Integers counted digit by digit. The value of a run of digits is built up in numbers of 32 bits, and
where a product or a sum is out of range there is no value any more, whatever digits are behind. That
comes to the number that the whole run denotes, if it is in range, and all of the run is read either
way.
-/

namespace TokenListing

open Grammar Text

/-- The product of two numbers, if it is in range. -/
def times? (m n : Int32) : Option Int32 := signed? (m.toInt * n.toInt)

/-- The sum of two numbers, if it is in range. -/
def plus? (m n : Int32) : Option Int32 := signed? (m.toInt + n.toInt)

/-- The value of a numeral with one digit more. -/
def withDigit? (value : Option Int32) (d : Char) : Option Int32 :=
  (value.bind (times? · 10)).bind (plus? · (Int32.ofNat (d.toNat - '0'.toNat)))

theorem signed?_of_le {n : Nat} (fits : n ≤ maxInteger) : signed? n = some (Int32.ofNat n) := by
  unfold signed?
  dsimp only
  rw [Int32.ofInt_eq_ofNat, if_pos (toInt_ofNat_of_le fits)]

theorem signed?_of_lt {n : Nat} (large : maxInteger < n) : signed? n = none := by
  have bound := (Int32.ofNat n).toInt_lt
  unfold signed?
  dsimp only
  rw [Int32.ofInt_eq_ofNat, if_neg]
  unfold maxInteger at large
  omega

theorem integer?_eq_signed? (digits : List Char) :
    integer? digits = signed? (Decimal.value digits) := by
  unfold integer?
  split
  · next fits => rw [signed?_of_le fits]
  · next large => rw [signed?_of_lt (Nat.lt_of_not_le large)]

theorem toNat_sub_le_of_isDigit {d : Char} (digit : d.isDigit = true) : d.toNat - '0'.toNat ≤ 9 := by
  have high : d.toNat ≤ '9'.toNat := by
    simp only [Char.isDigit, Bool.and_eq_true, decide_eq_true_eq] at digit
    exact digit.2
  exact Nat.le_trans (Nat.sub_le_sub_right high _) (by decide)

theorem times?_ten {n : Nat} (fits : n ≤ maxInteger) :
    times? (Int32.ofNat n) 10 = signed? (10 * n : Nat) := by
  have ten : (10 : Int32).toInt = 10 := by decide
  rw [times?, toInt_ofNat_of_le fits, ten, Int.mul_comm, Int.natCast_mul]
  rfl

theorem plus?_ofNat {m n : Nat} (left : m ≤ maxInteger) (right : n ≤ maxInteger) :
    plus? (Int32.ofNat m) (Int32.ofNat n) = signed? (m + n : Nat) := by
  rw [plus?, toInt_ofNat_of_le left, toInt_ofNat_of_le right, Int.natCast_add]

/-- One digit more is counted exactly, or the number that it would make is out of range. -/
theorem withDigit?_signed? (n : Nat) {d : Char} (digit : d.isDigit = true) :
    withDigit? (signed? n) d = signed? (10 * n + (d.toNat - '0'.toNat) : Nat) := by
  have least := toNat_sub_le_of_isDigit digit
  have small : d.toNat - '0'.toNat ≤ maxInteger := Nat.le_trans least (by decide)
  unfold withDigit?
  generalize d.toNat - '0'.toNat = k at small
  by_cases fits : n ≤ maxInteger
  · rw [signed?_of_le fits, Option.bind_some, times?_ten fits]
    by_cases tenfold : 10 * n ≤ maxInteger
    · rw [signed?_of_le tenfold, Option.bind_some, plus?_ofNat tenfold small]
    · rw [signed?_of_lt (by omega), signed?_of_lt (by omega), Option.bind_none]
  · rw [signed?_of_lt (by omega), signed?_of_lt (by omega), Option.bind_none, Option.bind_none]

/-- However many digits are counted on from a number, the count is exact or there is none. -/
theorem foldl_withDigit?_signed? {digits : List Char} (all : ∀ c ∈ digits, c.isDigit = true) (n : Nat) :
    digits.foldl withDigit? (signed? n) = signed? (Nat.ofDigitChars 10 digits n) := by
  induction digits generalizing n with
  | nil => rfl
  | cons d digits ih =>
    obtain ⟨digit, later⟩ := List.forall_mem_cons.mp all
    rw [List.foldl_cons, withDigit?_signed? n digit, ih later]
    rfl

/-- Counting the digits of a run comes to the number that it denotes. -/
theorem foldl_withDigit? {digits : List Char} (all : ∀ c ∈ digits, c.isDigit = true) :
    digits.foldl withDigit? (some 0) = integer? digits := by
  rw [integer?_eq_signed?]
  exact foldl_withDigit?_signed? all 0

theorem foldl_withDigit?_none (digits : List Char) : digits.foldl withDigit? none = none := by
  induction digits with
  | nil => rfl
  | cons d digits ih => exact ih

/-- A run is refused with the first of its digits that lead out of range. -/
theorem integer?_append_of_lt {digits : List Char} (more : List Char)
    (all : ∀ c ∈ digits ++ more, c.isDigit = true) (large : maxInteger < Decimal.value digits) :
    integer? (digits ++ more) = none := by
  have before := (List.forall_mem_append.mp all).1
  have refused : integer? digits = none := by rw [integer?_eq_signed?, signed?_of_lt large]
  rw [← foldl_withDigit? all, List.foldl_append, foldl_withDigit? before, refused,
    foldl_withDigit?_none]

theorem byteLength_of_isDigit {digits : List Char} (all : ∀ c ∈ digits, c.isDigit = true) :
    byteLength digits = digits.length := by
  induction digits with
  | nil => rfl
  | cons d digits ih =>
    obtain ⟨digit, later⟩ := List.forall_mem_cons.mp all
    have single : d.utf8Size = 1 := by
      simp only [Char.isDigit, Bool.and_eq_true, decide_eq_true_eq] at digit
      exact Char.utf8Size_eq_one_iff.mpr (UInt32.le_trans digit.2 (by decide))
    rw [byteLength_cons, single, ih later, List.length_cons, Nat.add_comm]

/-- Behind a run the first character that it leaves is pending, or the blank where it leaves none. -/
theorem Reader.behind_takeRun {p : Char → Bool} (noSpace : p ' ' = false) (r : Reader) :
    (r.takeRun p).2.pending = ((r.pending :: r.unread).dropWhile p).headD ' ' ∧
      (r.takeRun p).2.unread = ((r.pending :: r.unread).dropWhile p).tail := by
  generalize left : r.unread = rest
  induction rest generalizing r with
  | nil =>
    by_cases member : p r.pending = true
    · rw [takeRun_of_true member noSpace, step_nil left, takeRun_of_false (r := r.clear) noSpace]
      simp [member, left]
    · rw [Bool.not_eq_true] at member
      simp [takeRun_of_false member, member, left]
  | cons c rest ih =>
    by_cases member : p r.pending = true
    · rw [takeRun_of_true member noSpace, step_cons left, List.dropWhile_cons_of_pos member]
      exact ih (r.take c rest) rfl
    · rw [Bool.not_eq_true] at member
      simp [takeRun_of_false member, member, left]

namespace Tokenizer

/-- What a literal comes to, given the value that its digits were counted to. -/
def giveInteger (t : Tokenizer) (start : Nat) (digits : List Char) (value : Option Int32) : Step :=
  match value with
  | some n => t.found (.integer n) []
  | none => ⟨.error (.tooLarge (String.ofList digits) t.startLine start .placeholder), t, []⟩

/-- Takes an integer digit by digit. Behind the digit with which the count fails the others are read
all the same. -/
def countInteger (t : Tokenizer) (start : Nat) (digits : List Char) (value : Option Int32) : Step :=
  if _digit : t.reader.pending.isDigit = true then
    countInteger { t with reader := t.reader.step } start (digits ++ [t.reader.pending])
      (withDigit? value t.reader.pending)
  else t.giveInteger start digits value
termination_by t.reader.weight
decreasing_by exact Reader.weight_step_lt (isBlank_eq_false_of_isDigit _digit)

theorem countInteger_eq (t : Tokenizer) (start : Nat) (digits : List Char) (value : Option Int32) :
    t.countInteger start digits value =
      ({ t with reader := (t.reader.takeRun Char.isDigit).2 } : Tokenizer).giveInteger start
        (digits ++ (t.reader.takeRun Char.isDigit).1)
        ((t.reader.takeRun Char.isDigit).1.foldl withDigit? value) := by
  fun_induction countInteger t start digits value with
  | case1 t digits value digit ih =>
    rw [ih, Reader.takeRun_of_true digit (by decide)]
    simp
  | case2 t digits value other =>
    rw [Bool.not_eq_true] at other
    rw [Reader.takeRun_of_false other]
    simp

/-- An integer is taken as it is counted. -/
theorem takeInteger_eq_countInteger (t : Tokenizer) :
    t.takeInteger = t.countInteger t.reader.start [] (some 0) := by
  have all : ∀ c ∈ (t.reader.takeRun Char.isDigit).1, c.isDigit = true :=
    fun c hc => List.mem_takeWhile_imp hc
  rw [countInteger_eq, foldl_withDigit? all, List.nil_append]
  rfl

/-- The integer in front of a tokenizer, with `front` before its digits and `back` behind them: how it
is taken, what it comes to, and where that leaves the tokenizer. -/
structure TakesInteger (t : Tokenizer) (source : String) (front digits back : List Char) : Prop where
  text : source.toList = front ++ (digits ++ back)
  starts : digits ++ back = t.reader.pending :: t.reader.unread
  all : ∀ c ∈ digits, c.isDigit = true
  maximal : ∀ c ∈ back.head?, c.isDigit = false
  counted : t.takeInteger = t.countInteger t.reader.start [] (some 0)
  fits : Decimal.value digits ≤ 2147483647 →
    ∃ n, t.takeInteger.outcome = .ok (.integer n) ∧ n.toInt = Decimal.value digits
  large : 2147483647 < Decimal.value digits → ∃ fault, t.takeInteger.outcome = .error fault ∧
    fault = .tooLarge (String.ofList digits) t.startLine (byteLength front) .placeholder ∧
    fault.label? = some ⟨"here", byteLength front, digits.length⟩
  refused : ∀ first more, digits = first ++ more → 2147483647 < Decimal.value first →
    ∃ fault, t.takeInteger.outcome = .error fault
  next : ∃ behind, t.takeInteger.next = { t with reader := behind } ∧
    behind.pending = back.headD ' ' ∧ behind.unread = back.tail

theorem takeInteger_of_some {t : Tokenizer} {n : Int32}
    (value : integer? (t.reader.takeRun Char.isDigit).1 = some n) :
    t.takeInteger.outcome = .ok (.integer n) := by
  simp [takeInteger, value, found]

theorem takeInteger_of_none {t : Tokenizer}
    (value : integer? (t.reader.takeRun Char.isDigit).1 = none) :
    t.takeInteger.outcome = .error (.tooLarge (String.ofList (t.reader.takeRun Char.isDigit).1)
      t.startLine t.reader.start .placeholder) := by
  simp [takeInteger, value]

/-- Wherever a digit is pending, the whole run of digits is taken for the number that it denotes, or
refused where that is too large. -/
theorem integers_exact {t : Tokenizer} {source : String}
    (moves : (Reader.ofString source).Moves t.reader) (digit : t.reader.pending.isDigit = true) :
    ∃ front digits back, t.TakesInteger source front digits back := by
  obtain ⟨passed, rest, divides⟩ := moves.divides
  obtain ⟨front, split, holds⟩ := divides.exists_holds (by rintro space; simp [space] at digit)
  have start : t.reader.start = byteLength front := holds.start
  have run : (t.reader.takeRun Char.isDigit).1 = (t.reader.pending :: rest).takeWhile Char.isDigit := by
    rw [Reader.takeRun, divides.unread]
  have parts : (t.reader.pending :: rest).takeWhile Char.isDigit ++
      (t.reader.pending :: rest).dropWhile Char.isDigit = t.reader.pending :: rest :=
    List.takeWhile_append_dropWhile
  have all : ∀ c ∈ (t.reader.pending :: rest).takeWhile Char.isDigit, c.isDigit = true :=
    fun c hc => List.mem_takeWhile_imp hc
  have behind := Reader.behind_takeRun (p := Char.isDigit) (by decide) t.reader
  rw [divides.unread] at behind
  refine ⟨front, _, _, ?_, by rw [parts, divides.unread], all, head?_dropWhile _ _,
    t.takeInteger_eq_countInteger, fun fits => ?_, fun large => ?_, fun first more whole large => ?_,
    _, t.next_takeInteger, behind⟩
  · rw [parts, divides.text, split, List.append_assoc, List.singleton_append]
  · have value := (integer?_eq_signed? _).trans (signed?_of_le fits)
    exact ⟨_, takeInteger_of_some (run ▸ value), toInt_ofNat_of_le fits⟩
  · have value := (integer?_eq_signed? _).trans (signed?_of_lt large)
    have outcome := takeInteger_of_none (run ▸ value)
    rw [run, start] at outcome
    refine ⟨_, outcome, rfl, ?_⟩
    rw [Fault.label?, utf8ByteSize_ofList, byteLength_of_isDigit all]
  · rw [whole] at all run
    exact ⟨_, takeInteger_of_none (run ▸ integer?_append_of_lt more all large)⟩

/-- The greatest integer behind zeros, and the number next to it behind a letter of two bytes. -/
theorem integers_exact_zeros :
    (∃ n, (Tokenizer.mk ((Reader.ofString "002147483647").steps 1) (.fresh 0) 1
        false).takeInteger.outcome = .ok (.integer n) ∧ n.toInt = 2147483647) ∧
      (Tokenizer.mk ((Reader.ofString "é002147483648x").steps 2) (.fresh 0) 1
        false).takeInteger.outcome = .error (.tooLarge "002147483648" 1 2 .placeholder) := by
  constructor
  · have moves := Reader.moves_steps 1 (.ofString "002147483647")
    obtain ⟨front, digits, back, takes⟩ := integers_exact
      (t := ⟨(Reader.ofString "002147483647").steps 1, .fresh 0, 1, false⟩) moves (by decide)
    have run : digits = "002147483647".toList := by
      rw [← takeWhile_exact takes.all takes.maximal, takes.starts]
      decide
    obtain ⟨n, outcome, value⟩ := takes.fits (by rw [run]; decide)
    exact ⟨n, outcome, by rw [value, run]; decide⟩
  · have moves := Reader.moves_steps 2 (.ofString "é002147483648x")
    obtain ⟨front, digits, back, takes⟩ := integers_exact
      (t := ⟨(Reader.ofString "é002147483648x").steps 2, .fresh 0, 1, false⟩) moves (by decide)
    have run : digits = "002147483648".toList := by
      rw [← takeWhile_exact takes.all takes.maximal, takes.starts]
      decide
    have before : front = ['é'] := by
      have text := takes.text
      rw [takes.starts] at text
      exact List.append_cancel_right (text.symm.trans (by decide))
    obtain ⟨fault, outcome, rfl, _⟩ := takes.large (by rw [run]; decide)
    rw [outcome, run, before]
    rfl

end Tokenizer

end TokenListing
