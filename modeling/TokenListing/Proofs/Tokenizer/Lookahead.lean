import TokenListing.Proofs.Grammar.Concat
import TokenListing.Proofs.Tokenizer.Takes

set_option autoImplicit false

/-!
One character of lookahead. Two texts that start alike have the same tokens as far as they are alike,
but for a token that nothing of the common part is behind. So a step tells nothing of a text that is
further on than the one character behind its token.
-/

namespace TokenListing

open Grammar Text

namespace Grammar

/-- What texts with a common start have in it behind a part of it is the same character. -/
theorem exists_common_next {cs ds shared front : List Char} (here : shared <+: cs)
    (there : shared <+: ds) (starts : front <+: cs) (inside : front.length < shared.length) :
    ∃ c x y, cs = front ++ c :: x ∧ ds = front ++ c :: y := by
  obtain ⟨later, split⟩ := List.prefix_of_prefix_length_le starts here (Nat.le_of_lt inside)
  obtain ⟨x, rfl⟩ := here
  obtain ⟨y, rfl⟩ := there
  cases later with
  | nil => simp [← split] at inside
  | cons c later => exact ⟨c, later ++ x, later ++ y, by simp [← split], by simp [← split]⟩

theorem upTo_prefix_of_mem_placed {l : List Segment} {p : Placed} (h : p ∈ placed [] l) :
    p.upTo <+: textOf l := by
  obtain ⟨before, more, rfl, front⟩ := mem_placed_iff.mp h
  refine ⟨textOf more, ?_⟩
  simp [Placed.upTo, front]

/-- The closed segments in the common part of two texts are segments of both, as long as the common
part goes on behind them. -/
theorem segments_of_shared {cs ds shared : List Char} (here : shared <+: cs) (there : shared <+: ds)
    {l more : List Segment} (split : segments cs = l ++ more) (closed : ∀ s ∈ l, s.kind.isOpen = false)
    (inside : (textOf l).length < shared.length) : ∃ other, segments ds = l ++ other := by
  have text := (cuts_segments cs).textOf_eq
  rw [split, textOf_append] at text
  obtain ⟨c, x, y, first, rfl⟩ := exists_common_next here there ⟨_, text⟩ inside
  have behind : textOf more = c :: x := List.append_cancel_left (text.trans first)
  have starts : ∀ d ∈ (c :: y).head?, isBlank d = true ∨ d ∈ (textOf more).head? := by
    intro d hd
    rw [behind]
    exact .inr hd
  exact ⟨_, ((cuts_of_segments_eq split).replace_behind closed starts (cuts_segments _)).segments_eq⟩

theorem tokens_append {cs : List Char} {l more : List Segment} (split : segments cs = l ++ more) :
    tokens cs = (placed [] l).filter (·.segment.kind.isToken) ++
      (placed (textOf l) more).filter (·.segment.kind.isToken) := by
  rw [tokens, split, placed_append, List.filter_append, List.nil_append]

/-- A token is among those of the segments up to its own: what is behind them starts behind it. -/
theorem index_lt_length_tokens {cs : List Char} {before more : List Segment} {p : Placed} {n : Nat}
    (here : (tokens cs)[n]? = some p) (split : segments cs = before ++ p.segment :: more)
    (front : p.front = textOf before) :
    n < ((placed [] (before ++ [p.segment])).filter (·.segment.kind.isToken)).length := by
  have nonempty := (cuts_of_segments_eq split).of_append.cons_inv.1.text_ne_nil
  rw [List.append_cons] at split
  by_contra beyond
  rw [tokens_append split, List.getElem?_append_right (Nat.le_of_not_lt beyond)] at here
  obtain ⟨again, _⟩ := List.mem_filter.mp (List.mem_of_getElem? here)
  obtain ⟨between, _, _, behind⟩ := mem_placed_iff.mp again
  have longer := congrArg List.length behind
  have positive := List.length_pos_iff.mpr nonempty
  simp only [front, textOf_append, textOf_cons, textOf_nil, List.append_nil,
    List.length_append] at longer
  omega

/-- The tokens up to one in the common part of two texts are tokens of both, as long as the common
part goes on behind it. -/
theorem tokens_of_shared {cs ds shared : List Char} (here : shared <+: cs) (there : shared <+: ds)
    {n : Nat} {p : Placed} (last : (tokens cs)[n]? = some p)
    (inside : p.upTo.length < shared.length) :
    ∀ m ≤ n, ∃ q, (tokens cs)[m]? = some q ∧ (tokens ds)[m]? = some q ∧ q.upTo <+: p.upTo := by
  obtain ⟨hp, token⟩ := List.mem_filter.mp (List.mem_of_getElem? last)
  obtain ⟨before, more, split, front⟩ := mem_placed_iff.mp hp
  rw [List.nil_append] at front
  have common := index_lt_length_tokens last split front
  have upTo : textOf (before ++ [p.segment]) = p.upTo := by simp [Placed.upTo, front]
  have closed : ∀ s ∈ before ++ [p.segment], s.kind.isOpen = false := by
    refine List.forall_mem_append.mpr ⟨fun s hs => ?_, fun s hs => ?_⟩
    · exact (cuts_of_segments_eq split).isOpen_eq_false hs
    · rw [List.mem_singleton.mp hs]
      exact Kind.isOpen_of_isToken token
  rw [List.append_cons] at split
  obtain ⟨other, splitOther⟩ := segments_of_shared here there split closed (by rwa [upTo])
  intro m hm
  have among := Nat.lt_of_le_of_lt hm common
  obtain ⟨q, found⟩ : ∃ q,
      ((placed [] (before ++ [p.segment])).filter (·.segment.kind.isToken))[m]? = some q :=
    ⟨_, List.getElem?_eq_getElem among⟩
  refine ⟨q, ?_, ?_, ?_⟩
  · rw [tokens_append split, List.getElem?_append_left among, found]
  · rw [tokens_append splitOther, List.getElem?_append_left among, found]
  · rw [← upTo]
    exact upTo_prefix_of_mem_placed (List.mem_filter.mp (List.mem_of_getElem? found)).1

end Grammar

namespace Tokenizer

/-- Past the tokens in front of another, a step takes that one. -/
theorem Past.takes {t : Tokenizer} {source : String} {done more : List Segment} {n : Nat} {p : Placed}
    (past : t.Past done more n) (split : segments source.toList = done ++ more)
    (here : (Grammar.tokens source.toList)[n]? = some p) : ∃ back, t.Takes source p back := by
  have text := (cuts_segments source.toList).textOf_eq
  rw [split, textOf_append] at text
  rcases gap_or_token more with none | ⟨gap, s, rest, rfl, blank, token⟩
  · obtain ⟨among, _⟩ := List.getElem?_eq_some_iff.mp here
    rw [Grammar.tokens, length_tokens_placed, split, List.filter_append, filter_isToken_eq_nil none,
      List.append_nil, past.count] at among
    exact absurd among (Nat.lt_irrefl n)
  · have index := getElem?_tokens split blank token
    rw [past.count, here, textOf_append] at index
    obtain rfl := Option.some.inj index
    exact ⟨_, takes_over_gap text.symm past.known past.stands past.cuts blank token⟩

theorem exists_past_of_le (i : Nat) (source : String) {n : Nat}
    (enough : n ≤ (Grammar.tokens source.toList).length) :
    ∃ done more, segments source.toList = done ++ more ∧
      ((ofString i source).after n).Past done more n := by
  induction n with
  | zero => exact ⟨[], _, rfl, past_ofString i source⟩
  | succ n ih =>
    obtain ⟨done, more, split, past⟩ := ih (Nat.le_of_succ_le enough)
    obtain ⟨back, takes⟩ := past.takes split (List.getElem?_eq_getElem enough)
    obtain ⟨gap, s, rest, rfl, _, _, _, _, next⟩ := past.step fun line ends => by
      cases takes.isEnd_eq_false ends
    exact ⟨done ++ gap ++ [s], rest, by simp [split], next⟩

/-- Each token of a text is taken by the step of its number. -/
theorem exists_takes_after (i : Nat) {source : String} {n : Nat} {p : Placed}
    (here : (Grammar.tokens source.toList)[n]? = some p) :
    ∃ back, ((ofString i source).after n).Takes source p back := by
  obtain ⟨among, _⟩ := List.getElem?_eq_some_iff.mp here
  obtain ⟨done, more, split, past⟩ := exists_past_of_le i source (Nat.le_of_lt among)
  exact past.takes split here

theorem exists_getElem?_tokens (i : Nat) (source : String) (n : Nat)
    (going : ∀ m ≤ n, ∀ line, (ofString i source).outcome m ≠ .error (.endOfInput line)) :
    ∃ p, (Grammar.tokens source.toList)[n]? = some p := by
  obtain ⟨done, more, split, past⟩ :=
    exists_past_after i source n fun m hm => going m (Nat.le_of_lt hm)
  obtain ⟨gap, s, rest, rfl, blank, token, _⟩ := past.step (going n (Nat.le_refl n))
  have index := getElem?_tokens split blank token
  rw [past.count] at index
  exact ⟨_, index⟩

/-- Two steps that take the same token come to the same, and if the same character is behind the token,
they leave the reader on the same line. -/
theorem Takes.agree {t u : Tokenizer} {source other : String} {p : Placed} {back rest : List Char}
    (first : t.Takes source p back) (second : u.Takes other p rest) (next : back.head? = rest.head?) :
    u.step.value = t.step.value ∧ u.step.next.startLine = t.step.next.startLine ∧
      u.step.next.reader.line = t.step.next.reader.line := by
  refine ⟨Option.some.inj (second.outcome.symm.trans first.outcome), ?_, ?_⟩
  · rw [first.startLine, second.startLine]
  · rw [first.line, second.line, Kind.lookahead, Kind.lookahead, next]

/-- What the steps over a text come to up to a token is told by the text up to the one character behind
it: over every other text that goes on so far like this one, they come to the same. -/
theorem one_character_ahead (i j : Nat) (source other : String) (shared : List Char)
    (here : shared <+: source.toList) (there : shared <+: other.toList) (n : Nat)
    (going : ∀ m ≤ n, ∀ line, (ofString i source).outcome m ≠ .error (.endOfInput line)) :
    ∃ p, (Grammar.tokens source.toList)[n]? = some p ∧ p.upTo <+: source.toList ∧
      p.outcome? = some ((ofString i source).outcome n) ∧
      (p.upTo.length < shared.length → ∀ m ≤ n,
        (ofString j other).outcome m = (ofString i source).outcome m ∧
          ((ofString j other).after (m + 1)).startLine =
            ((ofString i source).after (m + 1)).startLine ∧
          ((ofString j other).after (m + 1)).reader.line =
            ((ofString i source).after (m + 1)).reader.line) := by
  obtain ⟨p, last⟩ := exists_getElem?_tokens i source n going
  obtain ⟨behind, takes⟩ := exists_takes_after i last
  refine ⟨p, last, ⟨behind, takes.text.symm⟩, takes.outcome, fun inside m hm => ?_⟩
  obtain ⟨q, ours, theirs, before⟩ := tokens_of_shared here there last inside m hm
  obtain ⟨back, first⟩ := exists_takes_after i ours
  obtain ⟨rest, second⟩ := exists_takes_after j theirs
  have next : back.head? = rest.head? := by
    obtain ⟨c, x, y, split, splitOther⟩ := exists_common_next here there ⟨back, first.text.symm⟩
      (Nat.lt_of_le_of_lt before.length_le inside)
    rw [List.append_cancel_left (first.text.symm.trans split),
      List.append_cancel_left (second.text.symm.trans splitOther)]
    rfl
  exact first.agree second next

/-- A text that ends with the blank behind a number, and one that goes on with an open comment. -/
theorem one_character_ahead_blank :
    (ofString 1 "x/*é\n*/12 ").outcome 1 = .ok (.integer 12) ∧
      ((ofString 1 "x/*é\n*/12 ").after 2).startLine = 2 := by
  have word : (ofString 0 "x/*é\n*/12 /*").outcome 0 = .ok (.word (.ofLexeme "x")) := by
    decide +kernel
  have number : (ofString 0 "x/*é\n*/12 /*").outcome 1 = .ok (.integer 12) := by decide +kernel
  have line : ((ofString 0 "x/*é\n*/12 /*").after 2).startLine = 2 := by decide +kernel
  have going : ∀ m ≤ 1, ∀ line,
      (ofString 0 "x/*é\n*/12 /*").outcome m ≠ .error (.endOfInput line) := by
    intro m hm line ends
    rcases Nat.le_one_iff_eq_zero_or_eq_one.mp hm with rfl | rfl
    · cases word.symm.trans ends
    · cases number.symm.trans ends
  obtain ⟨p, last, _, _, same⟩ := one_character_ahead 0 1 "x/*é\n*/12 /*" "x/*é\n*/12 "
    "x/*é\n*/12 ".toList (by decide) (by decide) 1 going
  have second : (Grammar.tokens "x/*é\n*/12 /*".toList)[1]? =
      some ⟨"x/*é\n*/".toList, .integer, "12".toList⟩ := by decide +kernel
  obtain rfl := Option.some.inj (second.symm.trans last)
  obtain ⟨value, start, _⟩ := same (by decide) 1 (Nat.le_refl 1)
  exact ⟨value.trans number, start.trans line⟩

end Tokenizer

end TokenListing
