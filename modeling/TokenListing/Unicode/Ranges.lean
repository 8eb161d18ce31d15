set_option autoImplicit false

/-!
Sets of characters written as ascending closed ranges of code points. A search stops at the first
range that starts behind the code point, so a small code point is settled by the first few ranges
of a long table.
-/

namespace TokenListing.Unicode

/-- Whether a code point lies in one of the ranges, each given by its first and last member. -/
def covers : List (Nat × Nat) → Nat → Bool
  | [], _ => false
  | (first, last) :: rest, n =>
    if n < first then false else if n ≤ last then true else covers rest n

@[simp] theorem covers_nil (n : Nat) : covers [] n = false := rfl

/-- Below the first range there is nothing. -/
theorem covers_of_lt {first last n : Nat} {rest : List (Nat × Nat)} (h : n < first) :
    covers ((first, last) :: rest) n = false := by
  simp [covers, h]

/-- Between the first two ranges there is nothing. -/
theorem covers_of_between {first last first' last' n : Nat} {rest : List (Nat × Nat)}
    (above : last < n) (below : n < first') :
    covers ((first, last) :: (first', last') :: rest) n = false := by
  simp [covers, below, Nat.not_le.mpr above]

/-- What is found lies in a range of the table. -/
theorem exists_mem_of_covers {ranges : List (Nat × Nat)} {n : Nat} (h : covers ranges n = true) :
    ∃ r ∈ ranges, r.1 ≤ n ∧ n ≤ r.2 := by
  induction ranges with
  | nil => simp at h
  | cons r rest ih =>
    obtain ⟨first, last⟩ := r
    by_cases below : n < first
    · simp [covers, below] at h
    · by_cases within : n ≤ last
      · exact ⟨(first, last), by simp, by omega, within⟩
      · simp only [covers, below, within, if_false] at h
        obtain ⟨r, member, bounds⟩ := ih h
        exact ⟨r, by simp [member], bounds⟩

end TokenListing.Unicode
