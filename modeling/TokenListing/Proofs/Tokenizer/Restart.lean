import TokenListing.Proofs.Tokenizer.Calls

set_option autoImplicit false

/-!
Going on behind a token. Whatever a tokenizer has read, its further steps come to what a new one
comes to in the rest of the text, but for the lines and the bytes of the part that was read.
-/

namespace TokenListing

open Grammar Text

/-- The same outcome, so many lines and bytes further on. -/
inductive Moved (lines bytes : Nat) :
    Except Fault (Token Word) → Except Fault (Token Word) → Prop where
  | token (token : Token Word) : Moved lines bytes (.ok token) (.ok token)
  | endOfInput {l m : UInt32} (line : m.toNat = l.toNat + lines) :
      Moved lines bytes (.error (.endOfInput l)) (.error (.endOfInput m))
  | tooLarge {literal : String} {l m : UInt32} {offset : Nat} {source : NamedText}
      (line : m.toNat = l.toNat + lines) :
      Moved lines bytes (.error (.tooLarge literal l offset source))
        (.error (.tooLarge literal m (offset + bytes) source))

theorem toNat_lineAfter_append {pre cs : List Char} (few : (pre ++ cs).count '\n' < UInt32.size - 1) :
    (lineAfter (pre ++ cs)).toNat = (lineAfter cs).toNat + pre.count '\n' := by
  rw [toNat_lineAfter few]
  rw [List.count_append] at few ⊢
  rw [toNat_lineAfter (by omega)]
  omega

theorem Grammar.Rule.notMem_of_isToken {k : Kind} {text rest : List Char} (h : Rule k text rest)
    (token : k.isToken = true) : '\n' ∉ text := by
  have noDigit : ('\n').isDigit = false := by decide
  have noLetter : isLetter '\n' = false := isLetter_eq_false_of_isBlank rfl
  intro inside
  cases h with
  | integer nonempty all maximal => simpa [noDigit] using all '\n' inside
  | word letter all maximal =>
    rcases List.mem_cons.mp inside with rfl | inside
    · simp [noLetter] at letter
    · simpa [continuesWord, noDigit, noLetter] using all '\n' inside
  | symbol noBlank noDigit noLetter noComment =>
    obtain rfl := List.mem_singleton.mp inside
    simp [isBlank] at noBlank
  | _ => simp [Kind.isToken] at token

theorem Grammar.Segment.moved_outcome? {s : Segment} {pre front : List Char}
    {a b : Except Fault (Token Word)} (few : (pre ++ front).count '\n' < UInt32.size - 1)
    (here : (Placed.mk front s).outcome? = some a)
    (there : (Placed.mk (pre ++ front) s).outcome? = some b) :
    Moved (pre.count '\n') (byteLength pre) a b := by
  obtain ⟨token, spelled, rfl⟩ := Option.map_eq_some_iff.mp here
  obtain ⟨other, again, rfl⟩ := Option.map_eq_some_iff.mp there
  obtain rfl : token = other := Option.some.inj (spelled.symm.trans again)
  dsimp only
  split
  · rw [byteLength_append, Nat.add_comm]
    exact .tooLarge (toNat_lineAfter_append few)
  · exact .token token

namespace Tokenizer

/-- One tokenizer stands in a text where the other stands in the text without `pre` in front. -/
structure Beyond (pre front back : List Char) (t u : Tokenizer) : Prop where
  few : (pre ++ (front ++ back)).count '\n' < UInt32.size - 1
  stands : t.reader.At (pre ++ front) back
  fresh : u.reader.At front back
  known : t.vocabulary.WellFormed
  knownFresh : u.vocabulary.WellFormed
  startLine : t.startLine.toNat = u.startLine.toNat + pre.count '\n'

/-- Both tokenizers step over the same gap, to the same token or to the end of the text. -/
theorem Beyond.step {pre front back : List Char} {t u : Tokenizer}
    (beyond : Beyond pre front back t u) :
    Moved (pre.count '\n') (byteLength pre) u.step.value t.step.value ∧
      ∃ front back, Beyond pre front back t.step.next u.step.next := by
  obtain ⟨l, rfl, cuts⟩ := exists_cuts back
  obtain ⟨few, stands, fresh, known, knownFresh, startLine⟩ := beyond
  rcases gap_or_token l with none | ⟨gap, s, more, rfl, blank, token⟩
  · obtain ⟨value, r, passed, next, split, here⟩ := step_over_rest stands cuts none
    obtain ⟨valueFresh, v, passedFresh, nextFresh, splitFresh, there⟩ :=
      step_over_rest fresh cuts none
    obtain rfl : passed = passedFresh := List.append_cancel_right (split.trans splitFresh.symm)
    rw [value, valueFresh, next, nextFresh]
    rw [List.append_assoc] at here ⊢
    refine ⟨.endOfInput (toNat_lineAfter_append few), front ++ passed, leftOver l, ?_, here, there,
      known, knownFresh, startLine⟩
    rwa [List.append_assoc front, split]
  · obtain ⟨value, line, here⟩ := step_over_gap known stands cuts blank token
    obtain ⟨valueFresh, lineFresh, there⟩ := step_over_gap knownFresh fresh cuts blank token
    rw [List.append_assoc pre] at value line here
    have fewer : (pre ++ (front ++ textOf gap)).count '\n' < UInt32.size - 1 := by
      simp only [textOf_append, List.count_append] at few ⊢
      omega
    refine ⟨s.moved_outcome? fewer valueFresh value, front ++ textOf gap ++ s.text, textOf more,
      by simpa using few, by rwa [List.append_assoc pre] at here, there, wellFormed_step known,
      wellFormed_step knownFresh, ?_⟩
    rw [line, lineFresh, toNat_lineAfter_append fewer]

theorem Beyond.after {pre front back : List Char} {t u : Tokenizer}
    (beyond : Beyond pre front back t u) (m : Nat) :
    ∃ front back, Beyond pre front back (t.after m) (u.after m) := by
  induction m with
  | zero => exact ⟨front, back, beyond⟩
  | succ m ih =>
    obtain ⟨front, back, beyond⟩ := ih
    exact beyond.step.2

/-- Behind its `n`-th token, or behind an integer that is too large, a tokenizer goes on like one that
starts there. -/
theorem restarts_behind (i j : Nat) (source : String) (n : Nat)
    (few : source.toList.count '\n' < UInt32.size - 1)
    (going : ∀ m ≤ n, ∀ line, (ofString i source).outcome m ≠ .error (.endOfInput line)) :
    ∃ p back, (Grammar.tokens source.toList)[n]? = some p ∧ source.toList = p.upTo ++ back ∧
      p.outcome? = some ((ofString i source).outcome n) ∧
      ∀ m, Moved (p.upTo.count '\n') (byteLength p.upTo)
          ((ofString j (String.ofList back)).outcome m) ((ofString i source).outcome (n + 1 + m)) ∧
        ((ofString i source).after (n + 1 + m)).startLine.toNat =
          ((ofString j (String.ofList back)).after m).startLine.toNat + p.upTo.count '\n' := by
  obtain ⟨done, more, split, past⟩ :=
    exists_past_after i source n fun m hm => going m (Nat.le_of_lt hm)
  obtain ⟨gap, s, rest, rfl, blank, token, value, line, next⟩ := past.step (going n (Nat.le_refl n))
  have text : source.toList = textOf (done ++ gap) ++ s.text ++ textOf rest := by
    rw [← (cuts_segments source.toList).textOf_eq, split]
    simp
  rw [text] at few
  have noFeed : '\n' ∉ s.text := past.cuts.of_append.cons_inv.1.notMem_of_isToken token
  have start : (lineAfter (textOf (done ++ gap))).toNat =
      1 + (textOf (done ++ gap) ++ s.text).count '\n' := by
    simp only [List.count_append, List.count_eq_zero_of_not_mem noFeed] at few ⊢
    rw [toNat_lineAfter (by omega), Nat.add_zero]
  have beyond : Beyond (textOf (done ++ gap) ++ s.text) [] (textOf rest)
      ((ofString i source).after (n + 1)) (ofString j (String.ofList (textOf rest))) := by
    refine ⟨few, ?_, ?_, next.known, Vocabulary.wellFormed_fresh j, ?_⟩
    · have stands : ((ofString i source).after (n + 1)).reader.At _ _ := next.stands
      simpa using stands
    · have fresh := Reader.idles_ofString (String.ofList (textOf rest))
      rw [String.toList_ofList] at fresh
      exact .idling fresh
    · exact (congrArg UInt32.toNat line).trans start
  have index : (Grammar.tokens source.toList)[n]? = some ⟨textOf (done ++ gap), s⟩ := by
    rw [← past.count]
    exact getElem?_tokens split blank token
  refine ⟨⟨textOf (done ++ gap), s⟩, textOf rest, index, text, value, fun m => ?_⟩
  obtain ⟨front, back, beyond⟩ := beyond.after m
  rw [outcome_add, after_add _ (n + 1) m]
  exact ⟨beyond.step.1, beyond.startLine⟩

/-- Behind a word and a literal that is too large, on its line and on the next one. -/
theorem restarts_behind_tooLarge :
    Moved 1 13 ((ofString 1 "x\ny").outcome 0) ((ofString 0 "é\n4294967296x\ny").outcome 2) ∧
      Moved 1 13 ((ofString 1 "x\ny").outcome 1) ((ofString 0 "é\n4294967296x\ny").outcome 3) := by
  have word : (ofString 0 "é\n4294967296x\ny").outcome 0 = .ok (.word (.ofLexeme "é")) := by
    decide +kernel
  have large : (ofString 0 "é\n4294967296x\ny").outcome 1 =
      .error (.tooLarge "4294967296" 2 3 .placeholder) := by decide +kernel
  have going : ∀ m ≤ 1, ∀ line,
      (ofString 0 "é\n4294967296x\ny").outcome m ≠ .error (.endOfInput line) := by
    intro m hm line ends
    rcases Nat.le_one_iff_eq_zero_or_eq_one.mp hm with rfl | rfl
    · cases word.symm.trans ends
    · cases large.symm.trans ends
  obtain ⟨p, back, here, split, _, later⟩ :=
    restarts_behind 0 1 "é\n4294967296x\ny" 1 (by decide) going
  have second : (Grammar.tokens "é\n4294967296x\ny".toList)[1]? =
      some ⟨"é\n".toList, .integer, "4294967296".toList⟩ := by decide +kernel
  obtain rfl := Option.some.inj (here.symm.trans second)
  have text : Placed.upTo ⟨"é\n".toList, .integer, "4294967296".toList⟩ ++ "x\ny".toList =
      "é\n4294967296x\ny".toList := by decide
  obtain rfl : "x\ny".toList = back := List.append_cancel_left (text.trans split)
  exact ⟨(later 0).1, (later 1).1⟩

end Tokenizer

end TokenListing
