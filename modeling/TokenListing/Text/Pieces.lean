set_option autoImplicit false

/-!
Text cut at a separator. There is one piece more than there are separators, so a text without one
is a single piece.
-/

namespace TokenListing.Text

/-- The pieces before, between and behind the separators. -/
def pieces (separator : Char) : List Char → List (List Char)
  | [] => [[]]
  | c :: cs =>
    if c = separator then [] :: pieces separator cs
    else
      match pieces separator cs with
      | [] => [[c]]
      | first :: rest => (c :: first) :: rest

theorem length_pieces (separator : Char) (cs : List Char) :
    (pieces separator cs).length = cs.count separator + 1 := by
  induction cs with
  | nil => rfl
  | cons c cs ih =>
    by_cases h : c = separator
    · simp [pieces, h, ih]
    · cases rest : pieces separator cs with
      | nil => simp [rest] at ih
      | cons first others => simp_all [pieces]

theorem pieces_of_notMem {separator : Char} {cs : List Char} (h : separator ∉ cs) :
    pieces separator cs = [cs] := by
  induction cs with
  | nil => rfl
  | cons c cs ih =>
    simp only [List.mem_cons, not_or] at h
    simp [pieces, Ne.symm h.1, ih h.2]

end TokenListing.Text
