import TokenListing.Proofs.Text.Pieces
import TokenListing.Reader.Gap

set_option autoImplicit false

/-!
The lexical grammar. It cuts a text from left to right into segments without gap or overlap, by the
first rule that applies where it stands. Each text is cut in exactly one way, which is computed by
`segments`.
-/

namespace TokenListing.Grammar

open Text

inductive Kind where
  | blank
  | comment (kind : CommentKind) (closed : Bool)
  | integer
  | word
  | symbol
  deriving DecidableEq, Repr

def Kind.isToken : Kind → Bool
  | .blank | .comment _ _ => false
  | .integer | .word | .symbol => true

/-- Whether segments of a kind are comments that are never closed. -/
def Kind.isOpen : Kind → Bool
  | .comment _ closed => !closed
  | _ => false

theorem Kind.isOpen_of_isToken {k : Kind} (token : k.isToken = true) : k.isOpen = false := by
  cases k with
  | comment kind closed => simp [isToken] at token
  | _ => rfl

structure Segment where
  kind : Kind
  text : List Char
  deriving DecidableEq, Repr

def closer : List Char := ['*', '/']

/-- Where a text goes on with `text` and behind that with `rest`, the rule of a kind cuts off `text`.
The star of a block comment's opener may be the star of its closer, so closers are looked for in what
stands behind the slash. -/
inductive Rule : Kind → (text rest : List Char) → Prop where
  | blank {c : Char} {rest : List Char} (h : isBlank c = true) : Rule .blank [c] rest
  | lineComment {body rest : List Char} (inside : '\n' ∉ body) :
      Rule (.comment .line true) ('/' :: '/' :: (body ++ ['\n'])) rest
  | openLineComment {body : List Char} (inside : '\n' ∉ body) :
      Rule (.comment .line false) ('/' :: '/' :: body) []
  | blockComment {body rest : List Char} (closed : closer <:+ '*' :: body)
      (inside : ¬closer <:+: ('*' :: body).dropLast) :
      Rule (.comment .block true) ('/' :: '*' :: body) rest
  | openBlockComment {body : List Char} (inside : ¬closer <:+: '*' :: body) :
      Rule (.comment .block false) ('/' :: '*' :: body) []
  | integer {digits rest : List Char} (nonempty : digits ≠ []) (all : ∀ c ∈ digits, c.isDigit = true)
      (maximal : ∀ c ∈ rest.head?, c.isDigit = false) : Rule .integer digits rest
  | word {c : Char} {more rest : List Char} (letter : isLetter c = true)
      (all : ∀ d ∈ more, continuesWord d = true)
      (maximal : ∀ d ∈ rest.head?, continuesWord d = false) : Rule .word (c :: more) rest
  | symbol {c : Char} {rest : List Char} (noBlank : isBlank c = false) (noDigit : c.isDigit = false)
      (noLetter : isLetter c = false)
      (noComment : c = '/' → rest.head? ≠ some '/' ∧ rest.head? ≠ some '*') : Rule .symbol [c] rest

inductive Cuts : List Char → List Segment → Prop where
  | nil : Cuts [] []
  | cons {s : Segment} {rest : List Char} {more : List Segment} (rule : Rule s.kind s.text rest)
      (behind : Cuts rest more) : Cuts (s.text ++ rest) (s :: more)

/-- The line comment in front of a text, given what is behind its two slashes. -/
def cutLineComment (cs : List Char) : Segment × List Char :=
  match cs.dropWhile (· != '\n') with
  | [] => (⟨.comment .line false, '/' :: '/' :: cs⟩, [])
  | c :: rest => (⟨.comment .line true, '/' :: '/' :: (cs.takeWhile (· != '\n') ++ [c])⟩, rest)

/-- A text cut behind its first closer. -/
def cutCloser? : List Char → Option (List Char × List Char)
  | [] => none
  | c :: cs =>
    if c = '*' ∧ cs.head? = some '/' then some (closer, cs.tail)
    else (cutCloser? cs).map fun p => (c :: p.1, p.2)

/-- The block comment in front of a text, given what is behind its slash and star. -/
def cutBlockComment (cs : List Char) : Segment × List Char :=
  match cutCloser? ('*' :: cs) with
  | none => (⟨.comment .block false, '/' :: '*' :: cs⟩, [])
  | some (inside, rest) => (⟨.comment .block true, '/' :: inside⟩, rest)

def cutRun (kind : Kind) (p : Char → Bool) (cs : List Char) : Segment × List Char :=
  (⟨kind, cs.takeWhile p⟩, cs.dropWhile p)

def cutFirst (c : Char) (cs : List Char) : Segment × List Char :=
  if isBlank c then (⟨.blank, [c]⟩, cs)
  else if c = '/' ∧ cs.head? = some '/' then cutLineComment cs.tail
  else if c = '/' ∧ cs.head? = some '*' then cutBlockComment cs.tail
  else if c.isDigit then cutRun .integer Char.isDigit (c :: cs)
  else if isLetter c then cutRun .word continuesWord (c :: cs)
  else (⟨.symbol, [c]⟩, cs)

theorem cutCloser?_eq_none {cs : List Char} (h : ¬closer <:+: cs) : cutCloser? cs = none := by
  induction cs with
  | nil => rfl
  | cons c cs ih =>
    rw [List.infix_cons_iff, not_or] at h
    have hc : ¬(c = '*' ∧ cs.head? = some '/') := by
      rintro ⟨rfl, hd⟩
      obtain ⟨tail, rfl⟩ := List.head?_eq_some_iff.mp hd
      exact h.1 ⟨tail, rfl⟩
    simp [cutCloser?, hc, ih h.2]

theorem dropLast_append_closer (body : List Char) : (body ++ closer).dropLast = body ++ ['*'] := by
  rw [List.dropLast_append_of_ne_nil (by simp [closer])]
  rfl

theorem cutCloser?_append {body : List Char} (rest : List Char) (h : ¬closer <:+: body ++ ['*']) :
    cutCloser? (body ++ closer ++ rest) = some (body ++ closer, rest) := by
  induction body with
  | nil => simp [cutCloser?, closer]
  | cons c body ih =>
    rw [List.cons_append, List.infix_cons_iff, not_or] at h
    have hc : ¬(c = '*' ∧ (body ++ closer ++ rest).head? = some '/') := by
      rintro ⟨rfl, hs⟩
      cases body with
      | nil => simp [closer] at hs
      | cons d body =>
        obtain rfl : d = '/' := by simpa using hs
        exact h.1 ⟨body ++ ['*'], rfl⟩
    simp only [List.cons_append, cutCloser?, if_neg hc, ih h.2, Option.map_some]

theorem exists_first_closer {cs : List Char} (h : closer <:+: cs) :
    ∃ body rest, cs = body ++ closer ++ rest ∧ ¬closer <:+: body ++ ['*'] := by
  induction cs with
  | nil => simp [closer] at h
  | cons c cs ih =>
    by_cases hstart : closer <+: c :: cs
    · obtain ⟨rest, hr⟩ := hstart
      exact ⟨[], rest, hr.symm, by decide⟩
    · have hlater : closer <:+: cs := (List.infix_cons_iff.mp h).resolve_left hstart
      obtain ⟨body, rest, rfl, hno⟩ := ih hlater
      refine ⟨c :: body, rest, rfl, ?_⟩
      rw [List.cons_append, List.infix_cons_iff, not_or]
      refine ⟨fun hp => hstart (hp.trans ?_), hno⟩
      exact ⟨'/' :: rest, by simp [closer]⟩

/-- The star in front may be the star of the closer. -/
theorem exists_cons_closer {cs front rest : List Char} (h : '*' :: cs = front ++ closer ++ rest) :
    ∃ body, front ++ closer = '*' :: body := by
  cases front with
  | nil => exact ⟨['/'], rfl⟩
  | cons d front =>
    obtain ⟨rfl, _⟩ := List.cons.inj h
    exact ⟨front ++ closer, rfl⟩

theorem Rule.text_ne_nil {k : Kind} {text rest : List Char} (h : Rule k text rest) : text ≠ [] := by
  cases h with
  | integer nonempty all maximal => exact nonempty
  | _ => simp

/-- What is never closed goes on to the end of the text. -/
theorem Rule.rest_eq_nil {k : Kind} {text rest : List Char} (h : Rule k text rest)
    (isOpen : k.isOpen = true) : rest = [] := by
  cases h with
  | openLineComment | openBlockComment => rfl
  | _ => simp [Kind.isOpen] at isOpen

theorem ne_slash_of_isDigit {c : Char} (h : c.isDigit = true) : c ≠ '/' := by
  rintro rfl
  simp at h

theorem ne_slash_of_isLetter {c : Char} (h : isLetter c = true) : c ≠ '/' := by
  rintro rfl
  have slash : isLetter '/' = false := Unicode.isLetter_eq_false_of_lt (by decide)
  simp [slash] at h

theorem isBlank_eq_false_of_isDigit {c : Char} (h : c.isDigit = true) : isBlank c = false := by
  cases hb : isBlank c with
  | false => rfl
  | true => simp [isDigit_eq_false_of_isBlank hb] at h

theorem isBlank_eq_false_of_isLetter {c : Char} (h : isLetter c = true) : isBlank c = false := by
  cases hb : isBlank c with
  | false => rfl
  | true => simp [isLetter_eq_false_of_isBlank hb] at h

theorem isDigit_eq_false_of_isLetter {c : Char} (h : isLetter c = true) : c.isDigit = false := by
  cases hd : c.isDigit with
  | false => rfl
  | true => simp [isLetter_eq_false_of_isDigit hd] at h

/-- A token starts with no blank and with no opener of a comment. -/
theorem Rule.starts {k : Kind} {text rest : List Char} (h : Rule k text rest)
    (token : k.isToken = true) :
    ∃ c more, text ++ rest = c :: more ∧ isBlank c = false ∧
      (c = '/' → more.head? ≠ some '/' ∧ more.head? ≠ some '*') := by
  cases h with
  | @integer digits _ nonempty all maximal =>
    obtain ⟨c, more, rfl⟩ := List.exists_cons_of_ne_nil nonempty
    have digit : c.isDigit = true := all c List.mem_cons_self
    exact ⟨c, more ++ rest, rfl, isBlank_eq_false_of_isDigit digit,
      fun slash => absurd slash (ne_slash_of_isDigit digit)⟩
  | word letter all maximal =>
    exact ⟨_, _, rfl, isBlank_eq_false_of_isLetter letter,
      fun slash => absurd slash (ne_slash_of_isLetter letter)⟩
  | symbol noBlank noDigit noLetter noComment => exact ⟨_, _, rfl, noBlank, noComment⟩
  | _ => simp [Kind.isToken] at token

theorem cutLineComment_append {body : List Char} (rest : List Char) (inside : '\n' ∉ body) :
    cutLineComment (body ++ '\n' :: rest) =
      (⟨.comment .line true, '/' :: '/' :: (body ++ ['\n'])⟩, rest) := by
  have all : ∀ c ∈ body, (c != '\n') = true := by
    intro c hc
    simpa using ne_of_mem_of_not_mem hc inside
  have ends : ∀ c ∈ ('\n' :: rest).head?, (c != '\n') = false := by simp
  simp [cutLineComment, takeWhile_exact all ends, dropWhile_exact all ends]

theorem cutLineComment_of_notMem {body : List Char} (inside : '\n' ∉ body) :
    cutLineComment body = (⟨.comment .line false, '/' :: '/' :: body⟩, []) := by
  have ends : body.dropWhile (· != '\n') = [] := by
    rw [List.dropWhile_eq_nil_iff]
    intro c hc
    simpa using ne_of_mem_of_not_mem hc inside
  simp [cutLineComment, ends]

theorem cutBlockComment_append {body : List Char} (rest : List Char) (closed : closer <:+ '*' :: body)
    (inside : ¬closer <:+: ('*' :: body).dropLast) :
    cutBlockComment (body ++ rest) = (⟨.comment .block true, '/' :: '*' :: body⟩, rest) := by
  obtain ⟨front, hf⟩ := closed
  rw [← hf, dropLast_append_closer] at inside
  have cut := cutCloser?_append rest inside
  rw [hf, List.cons_append] at cut
  simp [cutBlockComment, cut]

theorem cutBlockComment_of_not_infix {body : List Char} (inside : ¬closer <:+: '*' :: body) :
    cutBlockComment body = (⟨.comment .block false, '/' :: '*' :: body⟩, []) := by
  simp [cutBlockComment, cutCloser?_eq_none inside]

/-- The grammar is deterministic: a rule that cuts the text in front is the one that is found. -/
theorem cutFirst_of_rule {k : Kind} {text rest : List Char} {c : Char} {cs : List Char}
    (h : Rule k text rest) (same : c :: cs = text ++ rest) :
    cutFirst c cs = (⟨k, text⟩, rest) := by
  cases h with
  | blank blank =>
    obtain ⟨rfl, rfl⟩ := List.cons.inj same
    simp [cutFirst, blank]
  | lineComment inside =>
    obtain ⟨rfl, rfl⟩ : c = '/' ∧ cs = '/' :: (_ ++ '\n' :: rest) := by simpa using same
    simp [cutFirst, isBlank, cutLineComment_append rest inside]
  | openLineComment inside =>
    obtain ⟨rfl, rfl⟩ : c = '/' ∧ cs = '/' :: _ := by simpa using same
    simp [cutFirst, isBlank, cutLineComment_of_notMem inside]
  | blockComment closed inside =>
    obtain ⟨rfl, rfl⟩ : c = '/' ∧ cs = '*' :: (_ ++ rest) := by simpa using same
    simp [cutFirst, isBlank, cutBlockComment_append rest closed inside]
  | openBlockComment inside =>
    obtain ⟨rfl, rfl⟩ : c = '/' ∧ cs = '*' :: _ := by simpa using same
    simp [cutFirst, isBlank, cutBlockComment_of_not_infix inside]
  | integer nonempty all maximal =>
    have digit : c.isDigit = true := by
      obtain ⟨d, more, rfl⟩ := List.exists_cons_of_ne_nil nonempty
      obtain ⟨rfl, _⟩ := List.cons.inj same
      exact all c List.mem_cons_self
    rw [cutFirst, cutRun, same, takeWhile_exact all maximal, dropWhile_exact all maximal]
    simp [isBlank_eq_false_of_isDigit digit, ne_slash_of_isDigit digit, digit]
  | word letter all maximal =>
    obtain ⟨rfl, _⟩ := List.cons.inj same
    have run : ∀ d ∈ c :: _, continuesWord d = true :=
      List.forall_mem_cons.mpr ⟨by simp [continuesWord, letter], all⟩
    rw [cutFirst, cutRun, cutRun, same, takeWhile_exact run maximal, dropWhile_exact run maximal]
    simp [isBlank_eq_false_of_isLetter letter, ne_slash_of_isLetter letter,
      isDigit_eq_false_of_isLetter letter, letter]
  | symbol noBlank noDigit noLetter noComment =>
    obtain ⟨rfl, rfl⟩ := List.cons.inj same
    have noLine : ¬(c = '/' ∧ cs.head? = some '/') := fun h => (noComment h.1).1 h.2
    have noBlock : ¬(c = '/' ∧ cs.head? = some '*') := fun h => (noComment h.1).2 h.2
    simp [cutFirst, noBlank, noDigit, noLetter, noLine, noBlock]

theorem exists_rule_lineComment (cs : List Char) :
    ∃ k text rest, Rule k text rest ∧ text ++ rest = '/' :: '/' :: cs := by
  by_cases hc : '\n' ∈ cs
  · obtain ⟨body, rest, rfl, inside⟩ := List.eq_append_cons_of_mem hc
    exact ⟨_, _, rest, .lineComment inside, by simp⟩
  · exact ⟨_, _, [], .openLineComment hc, by simp⟩

theorem exists_rule_blockComment (cs : List Char) :
    ∃ k text rest, Rule k text rest ∧ text ++ rest = '/' :: '*' :: cs := by
  by_cases hc : closer <:+: '*' :: cs
  · obtain ⟨front, rest, hcs, hno⟩ := exists_first_closer hc
    obtain ⟨body, hb⟩ := exists_cons_closer hcs
    have closed : closer <:+ '*' :: body := ⟨front, hb⟩
    have inside : ¬closer <:+: ('*' :: body).dropLast := by
      rwa [← hb, dropLast_append_closer]
    rw [hb, List.cons_append] at hcs
    obtain rfl := (List.cons.inj hcs).2
    exact ⟨_, _, rest, .blockComment closed inside, rfl⟩
  · exact ⟨_, _, [], .openBlockComment hc, by simp⟩

theorem exists_rule (c : Char) (cs : List Char) :
    ∃ k text rest, Rule k text rest ∧ text ++ rest = c :: cs := by
  by_cases noBlank : isBlank c = true
  · exact ⟨_, _, cs, .blank noBlank, rfl⟩
  by_cases digit : c.isDigit = true
  · refine ⟨_, (c :: cs).takeWhile Char.isDigit, (c :: cs).dropWhile Char.isDigit,
      .integer (by simp [digit]) (fun d hd => List.mem_takeWhile_imp hd) (head?_dropWhile _ _), ?_⟩
    exact List.takeWhile_append_dropWhile
  by_cases letter : isLetter c = true
  · exact ⟨_, c :: cs.takeWhile continuesWord, cs.dropWhile continuesWord,
      .word letter (fun d hd => List.mem_takeWhile_imp hd) (head?_dropWhile _ _), by simp⟩
  by_cases opens : c = '/' ∧ (cs.head? = some '/' ∨ cs.head? = some '*')
  · obtain ⟨rfl, hs | hs⟩ := opens
    · obtain ⟨body, rfl⟩ := List.head?_eq_some_iff.mp hs
      exact exists_rule_lineComment body
    · obtain ⟨body, rfl⟩ := List.head?_eq_some_iff.mp hs
      exact exists_rule_blockComment body
  · simp only [Bool.not_eq_true] at noBlank digit letter
    refine ⟨_, _, cs, .symbol noBlank digit letter fun hc => ?_, rfl⟩
    exact not_or.mp fun hs => opens ⟨hc, hs⟩

theorem rule_cutFirst (c : Char) (cs : List Char) :
    Rule (cutFirst c cs).1.kind (cutFirst c cs).1.text (cutFirst c cs).2 ∧
      (cutFirst c cs).1.text ++ (cutFirst c cs).2 = c :: cs := by
  obtain ⟨k, text, rest, rule, same⟩ := exists_rule c cs
  rw [cutFirst_of_rule rule same.symm]
  exact ⟨rule, same⟩

theorem length_cutFirst_lt (c : Char) (cs : List Char) :
    (cutFirst c cs).2.length < (c :: cs).length := by
  obtain ⟨rule, same⟩ := rule_cutFirst c cs
  have positive := List.length_pos_iff.mpr rule.text_ne_nil
  rw [← same, List.length_append]
  omega

def segments : List Char → List Segment
  | [] => []
  | c :: cs => (cutFirst c cs).1 :: segments (cutFirst c cs).2
termination_by cs => cs.length
decreasing_by exact length_cutFirst_lt c cs

/-- The text that segments are cut from. -/
def textOf (l : List Segment) : List Char := l.flatMap Segment.text

@[simp] theorem textOf_nil : textOf [] = [] := rfl

@[simp] theorem textOf_cons (s : Segment) (l : List Segment) :
    textOf (s :: l) = s.text ++ textOf l := by
  simp [textOf]

@[simp] theorem textOf_append (l m : List Segment) : textOf (l ++ m) = textOf l ++ textOf m := by
  simp [textOf]

theorem Cuts.textOf_eq {cs : List Char} {l : List Segment} (h : Cuts cs l) : textOf l = cs := by
  induction h with
  | nil => rfl
  | cons rule behind ih => simp [ih]

theorem Cuts.segments_eq {cs : List Char} {l : List Segment} (h : Cuts cs l) : segments cs = l := by
  induction h with
  | nil => simp [segments]
  | @cons s rest more rule behind ih =>
    obtain ⟨c, cs, hc⟩ := List.exists_cons_of_ne_nil
      (List.append_ne_nil_of_left_ne_nil rule.text_ne_nil rest)
    rw [hc, segments, cutFirst_of_rule rule hc.symm, ih]

theorem Cuts.cons_inv {s : Segment} {more : List Segment} (h : Cuts (textOf (s :: more)) (s :: more)) :
    Rule s.kind s.text (textOf more) ∧ Cuts (textOf more) more := by
  generalize hcs : textOf (s :: more) = cs at h
  cases h with
  | cons rule behind =>
    rw [behind.textOf_eq]
    exact ⟨rule, behind⟩

theorem Cuts.text_ne_nil {l : List Segment} (h : Cuts (textOf l) l) (nonempty : l ≠ []) :
    textOf l ≠ [] := by
  cases l with
  | nil => contradiction
  | cons s more =>
    rw [textOf_cons]
    exact List.append_ne_nil_of_left_ne_nil h.cons_inv.1.text_ne_nil _

theorem Cuts.of_append {l more : List Segment} (h : Cuts (textOf (l ++ more)) (l ++ more)) :
    Cuts (textOf more) more := by
  induction l with
  | nil => exact h
  | cons s l ih => exact ih h.cons_inv.2

theorem Cuts.eq_nil_of_isOpen {s : Segment} {more : List Segment}
    (h : Cuts (textOf (s :: more)) (s :: more)) (isOpen : s.kind.isOpen = true) : more = [] := by
  obtain ⟨rule, behind⟩ := h.cons_inv
  by_contra nonempty
  exact behind.text_ne_nil nonempty (rule.rest_eq_nil isOpen)

theorem Cuts.isOpen_eq_false {l more : List Segment} {s g : Segment}
    (h : Cuts (textOf (l ++ s :: more)) (l ++ s :: more)) (hg : g ∈ l) : g.kind.isOpen = false := by
  obtain ⟨before, behind, rfl⟩ := List.append_of_mem hg
  rw [List.append_assoc, List.cons_append] at h
  rw [Bool.eq_false_iff]
  intro isOpen
  have none := h.of_append.eq_nil_of_isOpen isOpen
  simp at none

theorem cuts_segments (cs : List Char) : Cuts cs (segments cs) := by
  fun_induction segments cs with
  | case1 => exact .nil
  | case2 c cs ih =>
    obtain ⟨rule, same⟩ := rule_cutFirst c cs
    rw [← same]
    exact .cons rule ih

theorem cuts_of_segments_eq {cs : List Char} {l : List Segment} (split : segments cs = l) :
    Cuts (textOf l) l := by
  have cuts := cuts_segments cs
  rw [split] at cuts
  rwa [cuts.textOf_eq]

theorem exists_cuts (cs : List Char) : ∃ l, cs = textOf l ∧ Cuts (textOf l) l :=
  ⟨segments cs, (cuts_segments cs).textOf_eq.symm, cuts_of_segments_eq rfl⟩

/-- A text is cut in one way only. -/
theorem cuts_iff {cs : List Char} {l : List Segment} : Cuts cs l ↔ l = segments cs := by
  constructor
  · exact fun h => h.segments_eq.symm
  · rintro rfl
    exact cuts_segments cs

end TokenListing.Grammar
