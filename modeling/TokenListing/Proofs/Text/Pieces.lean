import Mathlib.Data.List.TakeWhile
import TokenListing.Text.Pieces

set_option autoImplicit false

/-!
Texts cut at separators and at the ends of runs. Lines that are each ended by a separator are found
again as the pieces of their text, and what stands in front of the first separator is found with
what is behind it. A reader takes something off the front of a text and gives it with the rest.
-/

namespace TokenListing.Text

theorem exists_of_map_fst {α β : Type} {f : α → β} {read : Option (α × List Char)} {y : β}
    {rest : List Char} (h : read.map (Prod.map f id) = some (y, rest)) :
    ∃ x, read = some (x, rest) := by
  obtain ⟨⟨x, behind⟩, found, same⟩ := Option.map_eq_some_iff.mp h
  obtain ⟨-, rfl⟩ := Prod.mk.inj same
  exact ⟨x, found⟩

theorem rest_eq_of_map {α β : Type} {f : α → β} {read : Option α} {y : β} {rest behind : List Char}
    (h : read.map (fun x => (f x, behind)) = some (y, rest)) : behind = rest := by
  obtain ⟨x, -, same⟩ := Option.map_eq_some_iff.mp h
  exact (Prod.mk.inj same).2

theorem takeWhile_exact {p : Char → Bool} {run rest : List Char} (all : ∀ c ∈ run, p c = true)
    (maximal : ∀ c ∈ rest.head?, p c = false) : (run ++ rest).takeWhile p = run := by
  rw [List.takeWhile_append_of_pos all]
  cases rest with
  | nil => simp
  | cons c rest => simp [maximal c rfl]

theorem dropWhile_exact {p : Char → Bool} {run rest : List Char} (all : ∀ c ∈ run, p c = true)
    (maximal : ∀ c ∈ rest.head?, p c = false) : (run ++ rest).dropWhile p = rest := by
  rw [List.dropWhile_append_of_pos all]
  cases rest with
  | nil => simp
  | cons c rest => simp [maximal c rfl]

theorem head?_dropWhile (p : Char → Bool) (cs : List Char) :
    ∀ c ∈ (cs.dropWhile p).head?, p c = false := by
  intro c hc
  have h := List.head?_dropWhile_not p cs
  simp_all

/-- What stands in front of the first separator and what is behind it. -/
def atFirst? (separator : Char) (cs : List Char) : Option (List Char × List Char) :=
  match cs.dropWhile (· != separator) with
  | [] => none
  | _ :: rest => some (cs.takeWhile (· != separator), rest)

theorem atFirst?_append {separator : Char} {front : List Char} (free : separator ∉ front)
    (rest : List Char) : atFirst? separator (front ++ separator :: rest) = some (front, rest) := by
  have inside : ∀ c ∈ front, (c != separator) = true := by
    intro c hc
    simpa using ne_of_mem_of_not_mem hc free
  have stops : ∀ c ∈ (separator :: rest).head?, (c != separator) = false := by simp
  simp [atFirst?, takeWhile_exact inside stops, dropWhile_exact inside stops]

theorem length_atFirst?_lt {separator : Char} {cs front rest : List Char}
    (h : atFirst? separator cs = some (front, rest)) : rest.length < cs.length := by
  unfold atFirst? at h
  split at h
  · cases h
  · rename_i c rest back
    obtain ⟨-, rfl⟩ := Prod.mk.inj (Option.some.inj h)
    have shorter := (cs.dropWhile_sublist (· != separator)).length_le
    rw [back] at shorter
    exact shorter

theorem pieces_append {separator : Char} {line : List Char} (free : separator ∉ line)
    (rest : List Char) :
    pieces separator (line ++ separator :: rest) = line :: pieces separator rest := by
  induction line with
  | nil => simp [pieces]
  | cons c line ih =>
    simp only [List.mem_cons, not_or] at free
    simp [pieces, Ne.symm free.1, ih free.2]

/-- The last piece is the empty one behind the last separator. -/
theorem pieces_flatMap {α : Type} {separator : Char} {line : α → List Char} {xs : List α}
    (free : ∀ x ∈ xs, separator ∉ line x) :
    pieces separator (xs.flatMap fun x => line x ++ [separator]) = xs.map line ++ [[]] := by
  induction xs with
  | nil => rfl
  | cons x xs ih =>
    simp only [List.mem_cons, forall_eq_or_imp] at free
    rw [List.flatMap_cons, List.append_assoc, List.singleton_append, pieces_append free.1,
      ih free.2, List.map_cons, List.cons_append]

end TokenListing.Text
