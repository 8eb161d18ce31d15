set_option autoImplicit false

/-!
Decimal numerals. A numeral is read from the left, so leading zeros add nothing, and it is written
without them. Reading what was written gives the number back.
-/

namespace TokenListing.Text.Decimal

/-- The number that a run of digits denotes; the empty run denotes zero. -/
def value (digits : List Char) : Nat :=
  Nat.ofDigitChars 10 digits 0

/-- The shortest numeral of a number. -/
def ofNat (n : Nat) : List Char :=
  Nat.toDigits 10 n

/-- A negative number is written as its absolute value behind a minus sign. -/
def ofInt : Int → List Char
  | .ofNat n => ofNat n
  | .negSucc n => '-' :: ofNat (n + 1)

@[simp] theorem value_nil : value [] = 0 := rfl

@[simp] theorem value_concat (digits : List Char) (d : Char) :
    value (digits ++ [d]) = 10 * value digits + (d.toNat - '0'.toNat) := by
  simp [value, Nat.ofDigitChars]

@[simp] theorem value_ofNat (n : Nat) : value (ofNat n) = n :=
  Nat.ofDigitChars_toDigits (by decide) (by decide)

theorem isDigit_of_mem_ofNat {n : Nat} {c : Char} (h : c ∈ ofNat n) : c.isDigit = true :=
  Nat.isDigit_of_mem_toDigits (by decide) (by decide) h

theorem ofNat_ne_nil (n : Nat) : ofNat n ≠ [] :=
  Nat.toDigits_ne_nil

theorem ofNat_inj {m n : Nat} : ofNat m = ofNat n ↔ m = n := by
  constructor
  · intro same
    have values := congrArg value same
    simpa using values
  · rintro rfl
    rfl

end TokenListing.Text.Decimal
