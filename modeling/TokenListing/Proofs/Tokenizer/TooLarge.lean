import TokenListing.Proofs.Tokenizer.Exhaustion
import TokenListing.Proofs.Tokenizer.Iteration
import TokenListing.Proofs.Tokenizer.Rows

set_option autoImplicit false

/-!
Integers that are too large. However such a fault is come to, its label marks one integer segment of
the text from its first byte to its last, and still does so in the text that is attached to it.
-/

namespace TokenListing

open Grammar Text

/-- The bytes of a text that a label marks. -/
def Label.cut (l : Label) (text : String) : ByteArray :=
  text.toByteArray.extract l.offset (l.offset + l.length)

theorem Label.cut_eq {text middle : String} {front back : List Char} {l : Label}
    (split : text.toList = front ++ middle.toList ++ back) (offset : l.offset = byteLength front)
    (length : l.length = middle.utf8ByteSize) : l.cut text = middle.toByteArray := by
  have same : text = String.ofList front ++ (middle ++ String.ofList back) := by
    rw [← String.toList_inj]
    simp [split]
  have before : l.offset = (String.ofList front).toByteArray.size := by
    rw [String.size_toByteArray, utf8ByteSize_ofList, offset]
  have inside : l.length = middle.toByteArray.size := by
    rw [String.size_toByteArray, length]
  rw [Label.cut, same, String.toByteArray_append, String.toByteArray_append, before, inside]
  have start := ByteArray.extract_append_size_add (a := (String.ofList front).toByteArray)
    (b := middle.toByteArray ++ (String.ofList back).toByteArray) (i := 0)
    (j := middle.toByteArray.size)
  rw [Nat.add_zero] at start
  rw [start, ByteArray.extract_append_eq_left rfl]

namespace Grammar

/-- No number goes on from one segment to the next. -/
theorem Rule.isDigit_eq_false {k : Kind} {text rest : List Char} (h : Rule k text rest) {c d : Char}
    (last : text.getLast? = some c) (next : rest.head? = some d) (digit : d.isDigit = true) :
    c.isDigit = false := by
  cases h with
  | blank blank =>
    obtain rfl : _ = c := by simpa using last
    exact isDigit_eq_false_of_isBlank blank
  | lineComment inside =>
    obtain rfl : '\n' = c := by simpa [List.getLast?_cons] using last
    decide
  | @blockComment body _ closed inside =>
    obtain ⟨inner, hi⟩ := closed
    have slash : ('*' :: body).getLast? = some '/' := by
      rw [← hi]
      simp [closer]
    obtain rfl : '/' = c := by
      rw [List.getLast?_cons_cons, slash] at last
      exact Option.some.inj last
    decide
  | integer nonempty all maximal => simp [maximal d next] at digit
  | word letter all maximal => simpa [continuesWord, digit] using maximal d next
  | symbol noBlank noDigit noLetter noComment =>
    obtain rfl : _ = c := by simpa using last
    exact noDigit
  | _ => simp at next

theorem Cuts.isDigit_eq_false {before more : List Segment} {s : Segment} {c : Char}
    (h : Cuts (textOf (before ++ s :: more)) (before ++ s :: more)) (integer : s.kind = .integer)
    (last : (textOf before).getLast? = some c) : c.isDigit = false := by
  rcases List.eq_nil_or_concat before with rfl | ⟨init, g, rfl⟩
  · simp at last
  · rw [List.concat_eq_append] at h last
    rw [List.append_assoc, List.singleton_append] at h
    obtain ⟨rule, behind⟩ := h.of_append.cons_inv
    have here : g.text.getLast? = some c := by
      rw [textOf_append, textOf_cons, textOf_nil, List.append_nil, List.getLast?_append,
        List.getLast?_eq_some_getLast rule.text_ne_nil, Option.some_or] at last
      rw [List.getLast?_eq_some_getLast rule.text_ne_nil, last]
    have digits := behind.cons_inv.1
    rw [integer] at digits
    cases digits with
    | integer nonempty all maximal =>
      obtain ⟨d, rest, text⟩ := List.exists_cons_of_ne_nil nonempty
      refine rule.isDigit_eq_false here (d := d) ?_ (all d (by simp [text]))
      simp [text]

end Grammar

namespace Tokenizer

section

variable {i : Nat} {source : String} {n : Nat} {line : UInt32} {fault : Fault}

theorem isEnd_behind_end
    (going : ∀ m < n, ∀ l, (ofString i source).outcome m ≠ .error (.endOfInput l))
    (ends : (ofString i source).outcome n = .error (.endOfInput line)) {m : Nat}
    (failed : (ofString i source).outcome (n + 1 + m) = .error fault) : fault.isEnd = true := by
  -- At most one character is left behind the first end, and alone it spells no fault.
  by_cases left : EndsOpen source.toList ∧ ∃ c, source.toList.getLast? = some c ∧ isBlank c = false
  · obtain ⟨opens, c, last, noBlank⟩ := left
    obtain ⟨value, _, rest⟩ := takes_left_over going ends opens last noBlank
    cases m with
    | zero => cases value.symm.trans failed
    | succ m =>
      have same : n + 1 + (m + 1) = n + 2 + m := by omega
      rw [same] at failed
      cases (rest m).symm.trans failed
      rfl
  · cases (stays_at_end going ends left m).symm.trans failed
    rfl

/-- Up to a fault that is not the end of the text no step comes to the end. -/
theorem going_of_failed (failed : (ofString i source).outcome n = .error fault)
    (noEnd : fault.isEnd = false) :
    ∀ m ≤ n, ∀ l, (ofString i source).outcome m ≠ .error (.endOfInput l) := by
  intro m
  induction m using Nat.strong_induction_on with
  | _ m ih =>
    intro hm l ends
    have going : ∀ k < m, ∀ l, (ofString i source).outcome k ≠ .error (.endOfInput l) :=
      fun k hk => ih k hk (Nat.le_trans (Nat.le_of_lt hk) hm)
    rcases Nat.eq_or_lt_of_le hm with rfl | before
    · cases ends.symm.trans failed
      cases noEnd
    · obtain ⟨k, rfl⟩ := Nat.exists_eq_add_of_lt before
      rw [Nat.add_right_comm] at failed
      rw [isEnd_behind_end going ends failed] at noEnd
      cases noEnd

theorem exists_placed_of_failed (failed : (ofString i source).outcome n = .error fault)
    (noEnd : fault.isEnd = false) :
    ∃ p ∈ placed [] (segments source.toList), p.outcome? = some (.error fault) := by
  have going := going_of_failed failed noEnd
  obtain ⟨done, more, split, past⟩ :=
    exists_past_after i source n fun m hm => going m (Nat.le_of_lt hm)
  obtain ⟨gap, s, rest, rfl, _, _, value, _⟩ := past.step (going n (Nat.le_refl n))
  refine ⟨⟨textOf (done ++ gap), s⟩, ?_, value.trans (congrArg some failed)⟩
  exact mem_placed_iff.mpr ⟨done ++ gap, rest, by rw [split, List.append_assoc], rfl⟩

end

/-- Where a fault of a text comes from: a step or a round of iteration, whatever the calls were before
it, or the rows or the tokens of the text. -/
inductive Arises (i : Nat) (source : String) (fault : Fault) : Prop where
  | step {t : Tokenizer} (reached : (ofString i source).Reaches t)
      (outcome : t.step.outcome = .error fault)
  | draw {t : Tokenizer} (reached : (ofString i source).Reaches t)
      (item : t.draw.item = some (.error fault))
  | rows (result : rows source = .error fault)
  | tokens (result : tokens source = .error fault)

theorem outcome_of_draw {t : Tokenizer} {fault : Fault} (item : t.draw.item = some (.error fault)) :
    t.step.outcome = .error fault := by
  unfold Tokenizer.draw at item
  split at item
  · cases item
  · dsimp only at item
    split at item
    · cases item
    · next other outcome =>
      split at item
      · cases item
      · cases item
        exact outcome

theorem exists_placed_of_rows {source : String} {fault : Fault}
    (result : TokenListing.rows source = .error fault) :
    ∃ p ∈ placed [] (segments source.toList), p.outcome? = some (.error fault) := by
  have listed := plain_rows source
  rw [result] at listed
  exact exists_of_listing_error listed.symm

theorem exists_placed_of_step {i : Nat} {source : String} {fault : Fault} {t : Tokenizer}
    (reached : (ofString i source).Reaches t) (outcome : t.step.outcome = .error fault)
    (noEnd : fault.isEnd = false) :
    ∃ p ∈ placed [] (segments source.toList), p.outcome? = some (.error fault) := by
  obtain ⟨n, alike⟩ := reached.exists_alike (Vocabulary.wellFormed_fresh i)
  have failed : (ofString i source).outcome n = .error fault := by
    rw [Tokenizer.outcome, alike.step.1, Step.value, outcome]
    rfl
  exact exists_placed_of_failed failed noEnd

theorem Arises.exists_placed {i : Nat} {source : String} {fault : Fault}
    (arises : Arises i source fault) (noEnd : fault.isEnd = false) :
    ∃ p ∈ placed [] (segments source.toList), p.outcome? = some (.error fault) := by
  cases arises with
  | step reached outcome => exact exists_placed_of_step reached outcome noEnd
  | draw reached item => exact exists_placed_of_step reached (outcome_of_draw item) noEnd
  | rows result => exact exists_placed_of_rows result
  | tokens result =>
    rw [tokens_eq_rows] at result
    exact exists_placed_of_rows (map_eq_error_iff.mp result)

end Tokenizer

/-- A label marks an integer literal of a text that is too large: all of its digits, and nothing that
belongs to a comment or to a word. -/
structure Label.Marks (l : Label) (source literal : String) (line : UInt32) : Prop where
  within : l.offset + l.length ≤ source.utf8ByteSize
  cut : l.cut source = literal.toByteArray
  digits : ∀ c ∈ literal.toList, c.isDigit = true
  large : maxInteger < Decimal.value literal.toList
  alone : ∃ front back, source.toList = front ++ literal.toList ++ back ∧
    byteLength front = l.offset ∧ line.toNat = 1 + front.count '\n' ∧
    (∀ c ∈ front.getLast?, c.isDigit = false) ∧ ∀ c ∈ back.head?, c.isDigit = false
  apart : ∀ p ∈ placed [] (segments source.toList),
    p.segment.kind = .word ∨ (∃ kind closed, p.segment.kind = .comment kind closed) →
      byteLength p.upTo ≤ l.offset ∨ l.offset + l.length ≤ byteLength p.front

/-- An integer segment that is too large takes all the digits that stand together. -/
theorem Grammar.exists_digits_of_tooLarge {cs : List Char} {p : Placed}
    (hp : p ∈ placed [] (segments cs)) (tooLarge : p.segment.isTooLarge = true) :
    ∃ back, cs = p.front ++ p.segment.text ++ back ∧ p.segment.text ≠ [] ∧
      (∀ c ∈ p.segment.text, c.isDigit = true) ∧ (∀ c ∈ back.head?, c.isDigit = false) ∧
      ∀ c ∈ p.front.getLast?, c.isDigit = false := by
  obtain ⟨before, more, split, front⟩ := mem_placed_iff.mp hp
  rw [List.nil_append] at front
  have cuts := cuts_of_segments_eq split
  have integer : p.segment.kind = .integer := (by simpa [Segment.isTooLarge] using tooLarge : _ ∧ _).1
  refine ⟨textOf more, ?_, ?_⟩
  · rw [← (cuts_segments cs).textOf_eq, split, front]
    simp
  · have rule := cuts.of_append.cons_inv.1
    rw [integer] at rule
    cases rule with
    | integer nonempty all maximal =>
      exact ⟨nonempty, all, maximal, fun c hc => cuts.isDigit_eq_false integer (front ▸ hc)⟩

theorem Label.marks_of_placed {source : String} (few : source.toList.count '\n' < UInt32.size - 1)
    {p : Placed} (hp : p ∈ placed [] (segments source.toList)) (tooLarge : p.segment.isTooLarge = true)
    {l : Label} (offset : l.offset = byteLength p.front) (length : l.length = byteLength p.segment.text) :
    l.Marks source (String.ofList p.segment.text) (lineAfter p.front) := by
  obtain ⟨back, text, _, digits, behind, before⟩ := exists_digits_of_tooLarge hp tooLarge
  obtain ⟨integer, large⟩ : p.segment.kind = .integer ∧ maxInteger < Decimal.value p.segment.text := by
    simpa [Segment.isTooLarge] using tooLarge
  have literal : (String.ofList p.segment.text).toList = p.segment.text := String.toList_ofList
  exact {
    within := by
      rw [← byteLength_toList, text, offset, length]
      simp
    cut := Label.cut_eq (by rwa [literal]) offset (by rw [length, utf8ByteSize_ofList])
    digits := by rwa [literal]
    large := by rwa [literal]
    alone := by
      rw [List.append_assoc] at text
      exact ⟨p.front, back, by rwa [literal, List.append_assoc], offset.symm,
        toNat_lineAfter_of_append text few, before, behind⟩
    -- Every segment is apart from every other, and no integer is a word or a comment.
    apart := by
      intro q hq other
      have differ : q ≠ p := by
        rintro rfl
        rcases other with word | ⟨kind, closed, comment⟩
        · cases integer.symm.trans word
        · cases integer.symm.trans comment
      rw [offset, length, ← byteLength_append]
      exact apart_of_ne hq hp differ }

namespace Tokenizer

/-- Whatever calls lead to an integer that is too large, its label marks the literal, and it goes on to
do so when the text is attached. -/
theorem tooLarge_marks_literal (i : Nat) (source : String)
    (few : source.toList.count '\n' < UInt32.size - 1) {fault : Fault} {literal : String}
    {line : UInt32} {offset : Nat} {shown : NamedText}
    (tooLarge : fault = .tooLarge literal line offset shown) (arises : Arises i source fault) :
    ∃ label, fault.label? = some label ∧ label.offset = offset ∧
      label.length = literal.utf8ByteSize ∧ label.Marks source literal line ∧
      ∀ name, fault.attach ⟨name, source⟩ = .tooLarge literal line offset ⟨name, source⟩ ∧
        (fault.attach ⟨name, source⟩).code = fault.code ∧
        (fault.attach ⟨name, source⟩).help? = fault.help? ∧
        (fault.attach ⟨name, source⟩).label? = some label ∧
        ∃ text, (fault.attach ⟨name, source⟩).source? = some text ∧
          label.cut text.content = literal.toByteArray := by
  subst tooLarge
  obtain ⟨p, hp, outcome⟩ := arises.exists_placed rfl
  obtain ⟨large, same⟩ := Segment.eq_tooLarge_of_outcomeOn? outcome
  cases same
  have marks := Label.marks_of_placed few hp large
    (l := ⟨"here", byteLength p.front, (String.ofList p.segment.text).utf8ByteSize⟩) rfl
    (utf8ByteSize_ofList _)
  exact ⟨_, rfl, rfl, rfl, marks, fun name => ⟨rfl, rfl, rfl, rfl, _, rfl, marks.cut⟩⟩

/-- Behind another one, a word with digits and a comment full of them. -/
theorem tooLarge_marks_literal_zeros :
    Label.Marks ⟨"here", 34, 11⟩ "9999999999é9/*9999999999*/é9\né;02147483648x" "02147483648" 2 := by
  have third : ((ofString 0 "9999999999é9/*9999999999*/é9\né;02147483648x").after 5).step.outcome =
      .error (.tooLarge "02147483648" 2 34 .placeholder) := by decide +kernel
  have reached : (ofString 0 "9999999999é9/*9999999999*/é9\né;02147483648x").Reaches
      ((ofString 0 "9999999999é9/*9999999999*/é9\né;02147483648x").after 5) :=
    .step (.step (.step (.step (.step .refl))))
  obtain ⟨label, here, _, _, marks, _⟩ :=
    tooLarge_marks_literal 0 _ (by decide) rfl (.step reached third)
  cases here
  exact marks

end Tokenizer

end TokenListing
