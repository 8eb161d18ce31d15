import TokenListing.Proofs.Text.Pieces
import TokenListing.Text.Decimal
import TokenListing.Text.Pattern.Atom

set_option autoImplicit false

/-!
Numerals read back. A decimal numeral is taken off the front of a text and has no needless zero; it
is found again in front of whatever is no digit. Numbers of 32 bits are told apart from the others.
-/

namespace TokenListing.Text

namespace Hexadecimal

def value? (digits : List Char) : Option Nat :=
  digits.foldlM (fun n c => (Pattern.hexValue? c).map (16 * n + ·)) 0

theorem hexValue?_digitChar : ∀ d < 16, Pattern.hexValue? (Nat.digitChar d) = some d := by decide

theorem value?_concat {digits : List Char} {n d : Nat} (read : value? digits = some n) (small : d < 16) :
    value? (digits ++ [Nat.digitChar d]) = some (16 * n + d) := by
  unfold value? at read ⊢
  simp [read, hexValue?_digitChar d small]

@[simp] theorem value?_toDigits (n : Nat) : value? (Nat.toDigits 16 n) = some n := by
  induction n using Nat.strongRecOn with
  | ind n ih =>
    by_cases small : n < 16
    · rw [Nat.toDigits_of_lt_base small]
      have start : value? [] = some 0 := rfl
      simpa using value?_concat start small
    · have front := ih (n / 16) (Nat.div_lt_self (by omega) (by decide))
      rw [Nat.toDigits_of_base_le (by decide) (by omega),
        value?_concat front (Nat.mod_lt n (by decide)), Nat.div_add_mod]

theorem isAlphanum_of_mem_toDigits {n : Nat} {c : Char} (h : c ∈ Nat.toDigits 16 n) :
    c.isAlphanum = true := by
  have digits : ∀ d < 16, (Nat.digitChar d).isAlphanum = true := by decide
  induction n using Nat.strongRecOn with
  | ind n ih =>
    by_cases small : n < 16
    · rw [Nat.toDigits_of_lt_base small, List.mem_singleton] at h
      exact h ▸ digits n small
    · rw [Nat.toDigits_of_base_le (by decide) (by omega), List.mem_append, List.mem_singleton] at h
      rcases h with front | rfl
      · exact ih (n / 16) (Nat.div_lt_self (by omega) (by decide)) front
      · exact digits _ (Nat.mod_lt n (by decide))

theorem notMem_toDigits {c : Char} (h : c.isAlphanum = false) (n : Nat) :
    c ∉ Nat.toDigits 16 n := by
  intro member
  rw [isAlphanum_of_mem_toDigits member] at h
  cases h

end Hexadecimal

def scalar? (n : Nat) : Option Char :=
  if n.isValidChar then some (Char.ofNat n) else none

@[simp] theorem scalar?_toNat (c : Char) : scalar? c.toNat = some c := by
  have valid : c.toNat.isValidChar := c.valid
  simp [scalar?, valid]

namespace Decimal

/-- Zero is one digit, and no other numeral starts with it. -/
def isShortest : List Char → Bool
  | [] => false
  | c :: more => c != '0' || more.isEmpty

/-- A numeral at the front of a text, and what is behind it. -/
def natural? (cs : List Char) : Option (Nat × List Char) :=
  if isShortest (cs.takeWhile Char.isDigit) then
    some (value (cs.takeWhile Char.isDigit), cs.dropWhile Char.isDigit)
  else none

/-- A numeral that may stand behind a minus sign. -/
def integer? : List Char → Option (Int × List Char)
  | '-' :: cs => (natural? cs).map (Prod.map (fun n : Nat => -(n : Int)) id)
  | cs => (natural? cs).map (Prod.map Int.ofNat id)

/-- Where a numeral ends. -/
def EndsNumeral (rest : List Char) : Prop := ∀ c ∈ rest.head?, c.isDigit = false

theorem endsNumeral_nil : EndsNumeral [] := by
  simp [EndsNumeral]

theorem endsNumeral_cons {c : Char} (h : c.isDigit = false) (cs : List Char) :
    EndsNumeral (c :: cs) := by
  simpa [EndsNumeral] using h

theorem notMem_ofNat {c : Char} (h : c.isDigit = false) (n : Nat) : c ∉ ofNat n := by
  intro member
  rw [isDigit_of_mem_ofNat member] at h
  cases h

theorem eq_zero_of_head?_ofNat {n : Nat} (h : (ofNat n).head? = some '0') : n = 0 := by
  induction n using Nat.strongRecOn with
  | ind n ih =>
    by_cases small : n < 10
    · rw [ofNat, Nat.toDigits_of_lt_base small] at h
      have digits : ∀ d < 10, Nat.digitChar d = '0' → d = 0 := by decide
      exact digits n small (by simpa using h)
    · obtain ⟨c, more, front⟩ := List.exists_cons_of_ne_nil (ofNat_ne_nil (n / 10))
      have split : ofNat n = c :: (more ++ [Nat.digitChar (n % 10)]) := by
        rw [ofNat, Nat.toDigits_of_base_le (by decide) (by omega), ← ofNat, front, List.cons_append]
      have first : (ofNat (n / 10)).head? = some '0' := by simpa [split, front] using h
      have none := ih (n / 10) (Nat.div_lt_self (by omega) (by decide)) first
      omega

theorem isShortest_ofNat (n : Nat) : isShortest (ofNat n) = true := by
  cases digits : ofNat n with
  | nil => exact absurd digits (ofNat_ne_nil n)
  | cons c more =>
    by_cases zero : c = '0'
    · obtain rfl : n = 0 := eq_zero_of_head?_ofNat (by simp [digits, zero])
      obtain ⟨-, rfl⟩ := List.cons.inj (digits.symm.trans rfl : c :: more = '0' :: [])
      simp [isShortest]
    · simp [isShortest, zero]

theorem natural?_append (n : Nat) {rest : List Char} (ends : EndsNumeral rest) :
    natural? (ofNat n ++ rest) = some (n, rest) := by
  have digits : ∀ c ∈ ofNat n, c.isDigit = true := fun c => isDigit_of_mem_ofNat
  simp [natural?, takeWhile_exact digits ends, dropWhile_exact digits ends, isShortest_ofNat]

theorem integer?_append (n : Int) {rest : List Char} (ends : EndsNumeral rest) :
    integer? (ofInt n ++ rest) = some (n, rest) := by
  cases n with
  | ofNat n =>
    cases digits : ofNat n with
    | nil => exact absurd digits (ofNat_ne_nil n)
    | cons c more =>
      have digit : c.isDigit = true := isDigit_of_mem_ofNat (n := n) (by simp [digits])
      have noMinus : c ≠ '-' := by
        rintro rfl
        exact absurd digit (by decide)
      have read := natural?_append n ends
      simp only [ofInt, digits, List.cons_append] at read ⊢
      simp [integer?, noMinus, read]
  | negSucc n => simp [ofInt, integer?, natural?_append (n + 1) ends, Int.negSucc_eq]

theorem exists_ofInt_cons (n : Int) :
    ∃ c more, ofInt n = c :: more ∧ (c = '-' ∨ c.isDigit = true) := by
  cases n with
  | ofNat n =>
    obtain ⟨c, more, digits⟩ := List.exists_cons_of_ne_nil (ofNat_ne_nil n)
    exact ⟨c, more, digits, .inr (isDigit_of_mem_ofNat (n := n) (by simp [digits]))⟩
  | negSucc n => exact ⟨'-', ofNat (n + 1), rfl, .inl rfl⟩

theorem length_natural?_lt {cs rest : List Char} {n : Nat} (h : natural? cs = some (n, rest)) :
    rest.length < cs.length := by
  obtain ⟨shortest, -, rfl⟩ : isShortest (cs.takeWhile Char.isDigit) = true ∧
      value (cs.takeWhile Char.isDigit) = n ∧ cs.dropWhile Char.isDigit = rest := by
    simpa [natural?] using h
  have parts := congrArg List.length (cs.takeWhile_append_dropWhile (p := Char.isDigit))
  cases digits : cs.takeWhile Char.isDigit with
  | nil => simp [digits, isShortest] at shortest
  | cons c more =>
    simp only [digits, List.length_append, List.length_cons] at parts
    omega

theorem length_integer?_lt {cs rest : List Char} {n : Int} (h : integer? cs = some (n, rest)) :
    rest.length < cs.length := by
  unfold integer? at h
  split at h
  · obtain ⟨m, read⟩ := exists_of_map_fst h
    exact Nat.lt_succ_of_lt (length_natural?_lt read)
  · obtain ⟨m, read⟩ := exists_of_map_fst h
    exact length_natural?_lt read

end Decimal

/-- The number of 32 bits that denotes an integer. -/
def unsigned? (n : Int) : Option UInt32 :=
  let word := UInt32.ofNat n.toNat
  if word.toNat = n then some word else none

def signed? (n : Int) : Option Int32 :=
  let word := Int32.ofInt n
  if word.toInt = n then some word else none

@[simp] theorem unsigned?_toNat (n : UInt32) : unsigned? n.toNat = some n := by
  simp [unsigned?]

@[simp] theorem signed?_toInt (n : Int32) : signed? n.toInt = some n := by
  simp [signed?]

end TokenListing.Text
