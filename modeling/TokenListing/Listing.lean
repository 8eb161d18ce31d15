import TokenListing.Json.Value
import TokenListing.Token

set_option autoImplicit false

/-!
Listings of rows. The text listing has a line for each row: the number of the line, a tabulator and
the token on display. The JSON listing has an object for each row, with the number, the category and
what the token holds.
-/

namespace TokenListing

open Text

inductive Format where
  | text
  | json
  deriving DecidableEq, Repr

namespace Row

def text (r : Row Word) : String :=
  String.ofList (Decimal.ofNat r.line.toNat) ++ "\t" ++ r.token.display ++ "\n"

/-- What the token holds, under a key that belongs to its category. -/
def payload (r : Row Word) : String × Json.Value :=
  match r.token with
  | .symbol c => ("symbol", .string (String.singleton c))
  | .integer n => ("value", .number n.toInt)
  | .word w => ("lexeme", .string w.lexeme)

def json (r : Row Word) : Json.Value :=
  .object [("line", .number r.line.toNat), ("kind", .string r.token.tag.name), r.payload]

end Row

namespace Listing

def text (rows : List (Row Word)) : String :=
  String.join (rows.map Row.text)

def json (rows : List (Row Word)) : String :=
  (Json.Value.array (rows.map Row.json)).render

@[simp] theorem text_nil : text [] = "" := rfl

@[simp] theorem toList_text_cons (r : Row Word) (rows : List (Row Word)) :
    (text (r :: rows)).toList = r.text.toList ++ (text rows).toList := by
  simp [text, String.toList_join]

end Listing

end TokenListing
