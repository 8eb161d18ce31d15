import TokenListing.Text.Escaping
import TokenListing.Unicode.Unprintable

set_option autoImplicit false

/-!
Text for display between quotation marks: what cannot be seen is escaped, and so are the backslash
and those marks that a format names.
-/

namespace TokenListing.Text

/-- Four control characters have letters, the named marks stand behind a backslash, and any other
unprintable character is given by its number in lower-case hexadecimal digits. -/
def displayed (marks : List Char) : Escaping where
  short
    | '\x00' => some '0'
    | '\t' => some 't'
    | '\r' => some 'r'
    | '\n' => some 'n'
    | '\\' => some '\\'
    | c => if marks.contains c then some c else none
  code c :=
    if Unicode.isUnprintable c then some ('{' :: (Nat.toDigits 16 c.toNat ++ ['}'])) else none

end TokenListing.Text
