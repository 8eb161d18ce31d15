import Mathlib.Data.Finset.Card
import Mathlib.Data.Finset.Dedup
import TokenListing.Vocabulary

set_option autoImplicit false

/-!
Vocabularies that interning can come to. Their entries have one spelling each, the kind that belongs
to it, and the slot in which they are as their identity; the reserved words come first. Interning
keeps all that, so that an entry is as well told by its spelling as by its identity.
-/

namespace TokenListing.Vocabulary

structure WellFormed (v : Vocabulary) : Prop where
  reserved : (fresh v.number).entries <+: v.entries
  kinds : ∀ e ∈ v.entries, e.word.kind = .ofLexeme e.word.lexeme
  slots : ∀ (i : Nat) (e : Entry), v.entries[i]? = some e → e.id = ⟨v.number, i⟩
  spellings : (v.entries.map (·.word.lexeme)).Nodup

theorem wellFormed_fresh (number : Nat) : (fresh number).WellFormed where
  reserved := List.prefix_refl _
  kinds := by simp [fresh, WordKind.ofLexeme]
  slots := by
    intro i e h
    match i with
    | 0 | 1 =>
      cases h
      rfl
    | i + 2 => simp [fresh] at h
  spellings := by simp [fresh]

theorem find?_eq_none_iff {v : Vocabulary} {lexeme : String} :
    v.find? lexeme = none ↔ ∀ e ∈ v.entries, e.word.lexeme ≠ lexeme := by
  simp [find?]

theorem mem_of_find? {v : Vocabulary} {lexeme : String} {e : Entry}
    (h : v.find? lexeme = some e) : e ∈ v.entries :=
  List.mem_of_find?_eq_some h

@[simp] theorem number_intern (v : Vocabulary) (lexeme : String) :
    (v.intern lexeme).2.number = v.number := by
  cases h : v.find? lexeme with
  | some e => rw [intern_of_find? h]
  | none => rw [intern_of_find?_none h]

theorem mem_intern (v : Vocabulary) (lexeme : String) :
    (v.intern lexeme).1 ∈ (v.intern lexeme).2.entries :=
  mem_of_find? (v.find?_intern_self lexeme)

theorem lexeme_intern (v : Vocabulary) (lexeme : String) :
    (v.intern lexeme).1.word.lexeme = lexeme :=
  lexeme_of_find? (v.find?_intern_self lexeme)

/-- What is in a vocabulary after interning was there before or is what was interned. -/
theorem mem_entries_intern_iff {v : Vocabulary} {lexeme : String} {e : Entry} :
    e ∈ (v.intern lexeme).2.entries ↔ e ∈ v.entries ∨ e = (v.intern lexeme).1 := by
  cases h : v.find? lexeme with
  | some found =>
    rw [intern_of_find? h]
    constructor
    · exact Or.inl
    · rintro (he | rfl)
      · exact he
      · exact mem_of_find? h
  | none =>
    rw [intern_of_find?_none h]
    simp

namespace WellFormed

variable {v : Vocabulary} (h : v.WellFormed)

include h

theorem word_eq_of_mem {e : Entry} (he : e ∈ v.entries) : e.word = .ofLexeme e.word.lexeme := by
  rw [Word.ofLexeme, ← h.kinds e he]

theorem find?_of_mem {e : Entry} (he : e ∈ v.entries) : v.find? e.word.lexeme = some e := by
  obtain ⟨before, behind, split⟩ := List.append_of_mem he
  refine List.find?_eq_some_iff_append.mpr ⟨by simp, before, behind, split, ?_⟩
  intro other ho
  have spellings := h.spellings
  rw [split, List.map_append, List.map_cons, List.nodup_append] at spellings
  have differ := spellings.2.2 _ (List.mem_map_of_mem ho) _ List.mem_cons_self
  simpa using differ

theorem find?_eq_some_iff {lexeme : String} {e : Entry} :
    v.find? lexeme = some e ↔ e ∈ v.entries ∧ e.word.lexeme = lexeme := by
  constructor
  · exact fun found => ⟨mem_of_find? found, lexeme_of_find? found⟩
  · rintro ⟨he, rfl⟩
    exact h.find?_of_mem he

/-- Besides the reserved words there are as many entries as there are other spellings. -/
theorem size_eq {others : Finset String} (apart : "true" ∉ others ∧ "false" ∉ others)
    (spelled : ∀ lexeme, (∃ e ∈ v.entries, e.word.lexeme = lexeme) ↔
      lexeme = "true" ∨ lexeme = "false" ∨ lexeme ∈ others) : v.size = 2 + others.card := by
  have spellings : (v.entries.map (·.word.lexeme)).toFinset = insert "true" (insert "false" others) := by
    ext lexeme
    simp [spelled]
  calc v.size = (v.entries.map (·.word.lexeme)).toFinset.card := by
        rw [List.toFinset_card_of_nodup h.spellings, List.length_map, size]
    _ = 2 + others.card := by
        rw [spellings, Finset.card_insert_of_notMem (by simp [apart]),
          Finset.card_insert_of_notMem apart.2]
        omega

theorem eq_of_lexeme {a b : Entry} (ha : a ∈ v.entries) (hb : b ∈ v.entries)
    (same : a.word.lexeme = b.word.lexeme) : a = b := by
  have found := h.find?_of_mem ha
  rw [same, h.find?_of_mem hb] at found
  exact (Option.some.inj found).symm

theorem id_eq_of_mem {e : Entry} (he : e ∈ v.entries) :
    ∃ i, v.entries[i]? = some e ∧ e.id = ⟨v.number, i⟩ := by
  obtain ⟨i, hi⟩ := List.mem_iff_getElem?.mp he
  exact ⟨i, hi, h.slots i e hi⟩

theorem eq_of_id {a b : Entry} (ha : a ∈ v.entries) (hb : b ∈ v.entries) (same : a.id = b.id) :
    a = b := by
  obtain ⟨i, hi, ia⟩ := h.id_eq_of_mem ha
  obtain ⟨j, hj, jb⟩ := h.id_eq_of_mem hb
  obtain rfl : i = j := by simpa [ia, jb] using same
  exact Option.some.inj (hi.symm.trans hj)

/-- No new identifier is spelled like a reserved word. -/
theorem ne_of_absent {lexeme : String} (absent : ∀ e ∈ v.entries, e.word.lexeme ≠ lexeme) :
    lexeme ≠ "true" ∧ lexeme ≠ "false" := by
  constructor
  · rintro rfl
    exact absent _ (h.reserved.mem (List.mem_cons_self)) rfl
  · rintro rfl
    exact absent _ (h.reserved.mem (List.mem_cons_of_mem _ List.mem_cons_self)) rfl

theorem intern (lexeme : String) : (v.intern lexeme).2.WellFormed := by
  cases found : v.find? lexeme with
  | some e =>
    rw [intern_of_find? found]
    exact h
  | none =>
    rw [intern_of_find?_none found]
    have absent := find?_eq_none_iff.mp found
    refine ⟨h.reserved.trans (List.prefix_append _ _), ?_, ?_, ?_⟩
    · intro e he
      rcases List.mem_append.mp he with he | he
      · exact h.kinds e he
      · obtain rfl := List.mem_singleton.mp he
        simp [newEntry, WordKind.ofLexeme, h.ne_of_absent absent]
    · intro i e he
      rcases Nat.lt_trichotomy i v.entries.length with hi | rfl | hi
      · rw [List.getElem?_append_left hi] at he
        exact h.slots i e he
      · rw [List.getElem?_concat_length] at he
        cases he
        rfl
      · rw [List.getElem?_eq_none (by simp; omega)] at he
        cases he
    · rw [List.map_append, List.nodup_append]
      refine ⟨h.spellings, by simp, ?_⟩
      intro a ha b hb
      obtain ⟨e, he, rfl⟩ := List.mem_map.mp ha
      obtain rfl : b = lexeme := by simpa [newEntry] using hb
      exact absent e he

theorem word_intern (lexeme : String) : (v.intern lexeme).1.word = .ofLexeme lexeme := by
  have word := (h.intern lexeme).word_eq_of_mem (v.mem_intern lexeme)
  rwa [lexeme_intern] at word

end WellFormed

end TokenListing.Vocabulary
