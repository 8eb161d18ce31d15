set_option autoImplicit false

/-!
Numerals of real numbers: a sign, digits with a point and an exponent, or a name for what is no
number or has no bound.
-/

namespace TokenListing.Text.Numeral

def isSign (c : Char) : Bool := c == '+' || c == '-'

def withoutSign : List Char → List Char
  | [] => []
  | c :: cs => if isSign c then cs else c :: cs

/-- Nothing, or an exponent with a digit at least. -/
def isExponent : List Char → Bool
  | [] => true
  | c :: cs =>
    let digits := withoutSign cs
    (c == 'e' || c == 'E') && !digits.isEmpty && digits.all Char.isDigit

/-- Digits in front of the point or behind it, of which there is one at least. -/
def isDecimal (cs : List Char) : Bool :=
  let whole := cs.takeWhile Char.isDigit
  match cs.drop whole.length with
  | '.' :: rest =>
    let fraction := rest.takeWhile Char.isDigit
    !(whole.isEmpty && fraction.isEmpty) && isExponent (rest.drop fraction.length)
  | rest => !whole.isEmpty && isExponent rest

def names : List String := ["inf", "infinity", "nan"]

/-- Whether a text is a numeral. Names count in either case. -/
def isNumeral (cs : List Char) : Bool :=
  let body := withoutSign cs
  names.contains (String.ofList (body.map Char.toLower)) || isDecimal body

end TokenListing.Text.Numeral
