import TokenListing.Unicode.Letters

set_option autoImplicit false

/-!
The classes of characters on which the cut into tokens depends. Digits are the ten ASCII digits,
letters are those of Unicode, and blanks are the space, the tabulator and the line feed; no
character is in two of the classes.
-/

namespace TokenListing

export Unicode (isLetter)

def isBlank (c : Char) : Bool :=
  c == ' ' || c == '\t' || c == '\n'

/-- A word goes on over letters and digits. -/
def continuesWord (c : Char) : Bool :=
  isLetter c || c.isDigit

theorem isBlank_iff {c : Char} : isBlank c = true ↔ c = ' ' ∨ c = '\t' ∨ c = '\n' := by
  simp [isBlank, or_assoc]

theorem isLetter_eq_false_of_isBlank {c : Char} (h : isBlank c = true) : isLetter c = false := by
  rcases isBlank_iff.mp h with rfl | rfl | rfl <;> exact Unicode.isLetter_eq_false_of_lt (by decide)

theorem isDigit_eq_false_of_isBlank {c : Char} (h : isBlank c = true) : c.isDigit = false := by
  rcases isBlank_iff.mp h with rfl | rfl | rfl <;> decide

theorem isLetter_eq_false_of_isDigit {c : Char} (h : c.isDigit = true) : isLetter c = false := by
  have high : c.toNat ≤ '9'.toNat := by
    simp only [Char.isDigit, Bool.and_eq_true, decide_eq_true_eq] at h
    exact h.2
  exact Unicode.isLetter_eq_false_of_lt (Nat.lt_of_le_of_lt high (by decide))

end TokenListing
