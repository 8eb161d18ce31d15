import TokenListing.Proofs.Text.Pieces
import TokenListing.Text.Escaping

set_option autoImplicit false

/-!
Text between quotation marks read back. If a reader undoes the escapes of a format and takes for
itself no character that the format escapes, then the text in front of the mark is found whatever
stands behind the mark.
-/

namespace TokenListing.Text

/-- How a quoted text is read: the mark that ends it, what a letter and what a code behind the
backslash mean, and which characters stand for themselves. -/
structure Unescaping where
  mark : Char
  short : Char → Option Char
  code : List Char → Option (Char × List Char)
  isPlain : Char → Bool
  length_code : ∀ {cs c rest}, code cs = some (c, rest) → rest.length ≤ cs.length

namespace Unescaping

variable {r : Unescaping} {e : Escaping}

/-- One written character, and what is behind it. -/
def char? (r : Unescaping) : List Char → Option (Char × List Char)
  | [] => none
  | ['\\'] => none
  | '\\' :: 'u' :: rest => r.code rest
  | '\\' :: letter :: rest => (r.short letter).map (·, rest)
  | c :: rest => if r.isPlain c then some (c, rest) else none

theorem length_char?_lt {cs rest : List Char} {c : Char} (h : r.char? cs = some (c, rest)) :
    rest.length < cs.length := by
  unfold char? at h
  split at h
  · cases h
  · cases h
  · have shorter := r.length_code h
    simp only [List.length_cons]
    omega
  · obtain rfl := rest_eq_of_map h
    simp only [List.length_cons]
    omega
  · split at h
    · obtain ⟨-, rfl⟩ := Prod.mk.inj (Option.some.inj h)
      simp
    · cases h

/-- The text in front of the mark, and what is behind the mark. -/
def text? (r : Unescaping) (cs : List Char) : Option (List Char × List Char) :=
  if cs.head? = some r.mark then some ([], cs.tail)
  else
    match _read : r.char? cs with
    | none => none
    | some (c, rest) => (r.text? rest).map (Prod.map (c :: ·) id)
termination_by cs.length
decreasing_by exact length_char?_lt _read

theorem text?_mark (rest : List Char) : r.text? (r.mark :: rest) = some ([], rest) := by
  rw [text?]
  simp

theorem text?_of_char? {cs rest : List Char} {c : Char} (inside : cs.head? ≠ some r.mark)
    (read : r.char? cs = some (c, rest)) :
    r.text? cs = (r.text? rest).map (Prod.map (c :: ·) id) := by
  rw [text?, if_neg inside]
  split <;> simp_all

theorem length_text?_lt {cs text rest : List Char} (h : r.text? cs = some (text, rest)) :
    rest.length < cs.length := by
  fun_induction text? r cs generalizing text rest with
  | case1 cs atMark =>
    obtain ⟨-, rfl⟩ := Prod.mk.inj (Option.some.inj h)
    obtain ⟨tail, rfl⟩ := List.head?_eq_some_iff.mp atMark
    simp
  | case2 => cases h
  | case3 cs _ c behind read ih =>
    obtain ⟨text, found⟩ := exists_of_map_fst h
    exact Nat.lt_trans (ih found) (length_char?_lt read)

/-- A reader undoes the escapes of a format. -/
structure Undoes (r : Unescaping) (e : Escaping) : Prop where
  mark_ne : r.mark ≠ '\\'
  short : ∀ {c letter}, e.short c = some letter → letter ≠ 'u' ∧ r.short letter = some c
  code : ∀ {c digits}, e.short c = none → e.code c = some digits →
    ∀ rest, r.code (digits ++ rest) = some (c, rest)
  isPlain : ∀ {c}, e.short c = none → e.code c = none → c ≠ '\\' ∧ c ≠ r.mark ∧ r.isPlain c = true

theorem Undoes.char?_char (undoes : r.Undoes e) (c : Char) (rest : List Char) :
    r.char? (e.char c ++ rest) = some (c, rest) := by
  unfold Escaping.char
  cases short : e.short c with
  | some letter =>
    obtain ⟨noCode, back⟩ := undoes.short short
    simp [char?, back]
  | none =>
    cases code : e.code c with
    | some digits => simpa [char?] using undoes.code short code rest
    | none =>
      obtain ⟨noBackslash, -, plain⟩ := undoes.isPlain short code
      simp [char?, noBackslash, plain]

theorem Undoes.char_inj (undoes : r.Undoes e) {c d : Char} : e.char c = e.char d ↔ c = d := by
  refine ⟨fun same => ?_, congrArg e.char⟩
  have read := undoes.char?_char c []
  rw [same, undoes.char?_char d []] at read
  exact (Prod.mk.inj (Option.some.inj read)).1.symm

theorem Undoes.head?_char (undoes : r.Undoes e) (c : Char) (rest : List Char) :
    (e.char c ++ rest).head? ≠ some r.mark := by
  unfold Escaping.char
  cases short : e.short c with
  | some letter => simpa using undoes.mark_ne.symm
  | none =>
    cases code : e.code c with
    | some digits => simpa using undoes.mark_ne.symm
    | none => simpa using (undoes.isPlain short code).2.1

theorem Undoes.text?_text (undoes : r.Undoes e) (cs rest : List Char) :
    r.text? (e.text cs ++ r.mark :: rest) = some (cs, rest) := by
  induction cs with
  | nil => exact text?_mark rest
  | cons c cs ih =>
    rw [Escaping.text_cons, List.append_assoc,
      text?_of_char? (undoes.head?_char c _) (undoes.char?_char c _), ih]
    rfl

end Unescaping

end TokenListing.Text
