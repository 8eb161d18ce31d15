import TokenListing.Tokenizer.Run

set_option autoImplicit false

/-!
Several tokenizers side by side, each with a vocabulary of its own, and the tokens that they have
given so far in one list.
-/

namespace TokenListing

namespace Token

/-- The first token of a list that carries the entry of `t`. Only words carry entries. -/
def firstSharing? (tokens : List (Token Entry)) (t : Token Entry) : Option Nat :=
  tokens.findIdx? t.sharesEntry

end Token

structure Session where
  tokenizers : List Tokenizer
  tokens : List (Token Entry)
  deriving DecidableEq, Repr

namespace Session

/-- One tokenizer for each text, none of which has given a token. -/
def ofSources (sources : List String) : Session :=
  ⟨sources.mapIdx Tokenizer.ofString, []⟩

/-- The session after tokenizer `k` went on to `t` and gave some items. -/
def advance (s : Session) (k : Nat) (t : Tokenizer) (items : List (Except Fault (Token Entry))) :
    Session :=
  ⟨s.tokenizers.set k t, s.tokens ++ items.filterMap Except.toOption⟩

/-- A step of tokenizer `k`. -/
def step? (s : Session) (k : Nat) : Option (Except Fault (Token Entry) × Session) :=
  s.tokenizers[k]?.map fun t => (t.step.outcome, s.advance k t.step.next [t.step.outcome])

/-- A round of iteration of tokenizer `k`. -/
def draw? (s : Session) (k : Nat) : Option (Option (Except Fault (Token Entry)) × Session) :=
  s.tokenizers[k]?.map fun t => (t.draw.item, s.advance k t.draw.next t.draw.item.toList)

/-- All rounds of iteration that tokenizer `k` has left. -/
def drain? (s : Session) (k : Nat) : Option (List (Except Fault (Token Entry)) × Session) :=
  s.tokenizers[k]?.map fun t => (t.drain.1, s.advance k t.drain.2 t.drain.1)

/-- The entry under a spelling in the vocabulary of tokenizer `k`. -/
def find? (s : Session) (k : Nat) (lexeme : String) : Option Entry :=
  s.tokenizers[k]?.bind (·.vocabulary.find? lexeme)

end Session

end TokenListing
