set_option autoImplicit false

/-!
Text measured in the bytes of its encoding. A byte offset can be inside a character, and there the
text cannot be cut: a text can be cut at the lengths of the texts that it starts with, and nowhere
else.
-/

namespace TokenListing.Text

def byteLength : List Char → Nat
  | [] => 0
  | c :: cs => c.utf8Size + byteLength cs

/-- The characters of a text that end at or before a byte offset. -/
def firstBytes : Nat → List Char → List Char
  | _, [] => []
  | n, c :: cs => if c.utf8Size ≤ n then c :: firstBytes (n - c.utf8Size) cs else []

/-- The two sides of a byte offset, if it is between characters or at an end of the text. -/
def cut? : Nat → List Char → Option (List Char × List Char)
  | 0, cs => some ([], cs)
  | _ + 1, [] => none
  | n + 1, c :: cs =>
    if c.utf8Size ≤ n + 1 then
      (cut? (n + 1 - c.utf8Size) cs).map fun (front, back) => (c :: front, back)
    else none

/-- The text between two byte offsets. -/
def slice? (first last : Nat) (cs : List Char) : Option (List Char) := do
  let (front, _) ← cut? last cs
  let (_, middle) ← cut? first front
  return middle

@[simp] theorem byteLength_nil : byteLength [] = 0 := rfl

@[simp] theorem byteLength_cons (c : Char) (cs : List Char) :
    byteLength (c :: cs) = c.utf8Size + byteLength cs := rfl

theorem firstBytes_byteLength_append (cs ds : List Char) :
    firstBytes (byteLength cs) (cs ++ ds) = cs ++ firstBytes 0 ds := by
  induction cs with
  | nil => rfl
  | cons c cs ih => simp [firstBytes, ih]

@[simp] theorem byteLength_append (cs ds : List Char) :
    byteLength (cs ++ ds) = byteLength cs + byteLength ds := by
  induction cs with
  | nil => simp
  | cons c cs ih => simp [ih, Nat.add_assoc]

theorem utf8ByteSize_ofList (cs : List Char) : (String.ofList cs).utf8ByteSize = byteLength cs := by
  induction cs with
  | nil => rfl
  | cons c cs ih =>
    have split : String.ofList (c :: cs) = String.singleton c ++ String.ofList cs := by
      rw [String.singleton_eq_ofList, ← String.ofList_append, List.singleton_append]
    rw [split, String.utf8ByteSize_append, String.utf8ByteSize_singleton, ih, byteLength_cons]

theorem byteLength_toList (s : String) : byteLength s.toList = s.utf8ByteSize := by
  rw [← utf8ByteSize_ofList, String.ofList_toList]

theorem cut?_byteLength_append (front back : List Char) :
    cut? (byteLength front) (front ++ back) = some (front, back) := by
  induction front with
  | nil => simp [cut?]
  | cons c front ih =>
    have h : byteLength (c :: front) = (c.utf8Size + byteLength front - 1) + 1 := by
      have positive := c.utf8Size_pos
      simp only [byteLength_cons]
      omega
    have rest : byteLength (c :: front) - c.utf8Size = byteLength front := by simp
    rw [h, List.cons_append, cut?, ← h, rest, ih]
    simp

theorem cut?_eq_some_iff {n : Nat} {cs front back : List Char} :
    cut? n cs = some (front, back) ↔ front ++ back = cs ∧ byteLength front = n := by
  constructor
  · intro h
    fun_induction cut? n cs generalizing front with
    | case1 => simp_all
    | case2 => simp at h
    | case3 n c cs fits ih =>
      obtain ⟨⟨inner, rest⟩, found, same⟩ := Option.map_eq_some_iff.1 h
      obtain ⟨rfl, rfl⟩ := Prod.mk.injEq .. ▸ same
      have parts := ih found
      simp only [List.cons_append, parts.1, byteLength_cons, parts.2, true_and]
      omega
    | case4 => simp at h
  · rintro ⟨rfl, rfl⟩
    exact cut?_byteLength_append front back

/-- What is between two offsets has the text up to the first in front of it and the text from the
second on behind it. -/
theorem slice?_eq_some_iff {first last : Nat} {cs middle : List Char} :
    slice? first last cs = some middle ↔
      ∃ front back, front ++ middle ++ back = cs ∧ byteLength front = first ∧
        byteLength (front ++ middle) = last := by
  simp only [slice?, Option.bind_eq_bind, Option.bind_eq_some_iff, Option.pure_def,
    Option.some.injEq, Prod.exists, cut?_eq_some_iff]
  grind

end TokenListing.Text
