set_option autoImplicit false

/-!
Characters behind a backslash. A text format decides which characters have a one-letter escape and
which of the others are given by a code; all that is left stands for itself. The backslash starts
every escape and nothing else as long as the format gives it an escape of its own.
-/

namespace TokenListing.Text

/-- The escapes of a text format: `short` is the letter behind the backslash, and `code` is what
stands behind the backslash and a `u` for a character without such a letter. -/
structure Escaping where
  short : Char → Option Char
  code : Char → Option (List Char)

namespace Escaping

/-- The written form of one character. -/
def char (e : Escaping) (c : Char) : List Char :=
  match e.short c with
  | some letter => ['\\', letter]
  | none =>
    match e.code c with
    | some digits => '\\' :: 'u' :: digits
    | none => [c]

/-- The written form of a text, character by character. -/
def text (e : Escaping) (cs : List Char) : List Char :=
  cs.flatMap e.char

@[simp] theorem text_nil (e : Escaping) : e.text [] = [] := rfl

@[simp] theorem text_cons (e : Escaping) (c : Char) (cs : List Char) :
    e.text (c :: cs) = e.char c ++ e.text cs := rfl

@[simp] theorem text_append (e : Escaping) (cs ds : List Char) :
    e.text (cs ++ ds) = e.text cs ++ e.text ds := by
  simp [text]

theorem char_ne_nil (e : Escaping) (c : Char) : e.char c ≠ [] := by
  unfold char
  split
  · simp
  · split <;> simp

end Escaping

end TokenListing.Text
