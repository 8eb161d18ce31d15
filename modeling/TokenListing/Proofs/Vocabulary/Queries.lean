import Mathlib.Data.List.Induction
import TokenListing.Proofs.Vocabulary

set_option autoImplicit false

/-!
Vocabularies that are asked for entries. A query interns a spelling or looks for it, and the answers
are kept from the first on. Whatever the spellings are, and whenever they are asked for, each of them
has one entry, and what there is no entry for has never been interned.
-/

namespace TokenListing.Vocabulary

inductive Query where
  | intern (lexeme : String)
  | find (lexeme : String)
  deriving DecidableEq, Repr

def Query.lexeme : Query → String
  | .intern lexeme | .find lexeme => lexeme

/-- The spelling that a query leaves in the vocabulary. -/
def Query.interned? : Query → Option String
  | .intern lexeme => some lexeme
  | .find _ => none

/-- The answer to a query, and the vocabulary behind it. -/
def ask (v : Vocabulary) : Query → Option Entry × Vocabulary
  | .intern lexeme => (some (v.intern lexeme).1, (v.intern lexeme).2)
  | .find lexeme => (v.find? lexeme, v)

/-- A vocabulary and what it has been asked, each query with its answer. -/
structure Inquiry where
  vocabulary : Vocabulary
  answers : List (Query × Option Entry)
  deriving DecidableEq, Repr

namespace Inquiry

def start (v : Vocabulary) : Inquiry := ⟨v, []⟩

def ask (i : Inquiry) (q : Query) : Inquiry :=
  ⟨(i.vocabulary.ask q).2, i.answers ++ [(q, (i.vocabulary.ask q).1)]⟩

def askAll (i : Inquiry) (queries : List Query) : Inquiry := queries.foldl ask i

@[simp] theorem answers_ask (i : Inquiry) (q : Query) :
    (i.ask q).answers = i.answers ++ [(q, (i.vocabulary.ask q).1)] := rfl

theorem askAll_concat (i : Inquiry) (queries : List Query) (q : Query) :
    i.askAll (queries ++ [q]) = (i.askAll queries).ask q := by
  simp [askAll]

/-- What every query keeps: the entries that were answered are there, under the spellings that were
asked for, and there are no others but those of interned spellings and of the reserved words. -/
structure Sound (i : Inquiry) (queries : List Query) : Prop where
  asked : i.answers.map Prod.fst = queries
  wellFormed : i.vocabulary.WellFormed
  answered : ∀ q e, (q, some e) ∈ i.answers → e ∈ i.vocabulary.entries ∧ e.word.lexeme = q.lexeme
  spelled : ∀ lexeme, (∃ e ∈ i.vocabulary.entries, e.word.lexeme = lexeme) ↔
    lexeme = "true" ∨ lexeme = "false" ∨ .intern lexeme ∈ queries

theorem sound_start (number : Nat) : (start (fresh number)).Sound [] where
  asked := rfl
  wellFormed := wellFormed_fresh number
  answered := by simp [start]
  spelled lexeme := by simp [start, fresh, eq_comm]

variable {i : Inquiry} {queries : List Query}

theorem Sound.intern (sound : i.Sound queries) (lexeme : String) :
    (i.ask (.intern lexeme)).Sound (queries ++ [.intern lexeme]) where
  asked := by simp [sound.asked]
  wellFormed := sound.wellFormed.intern lexeme
  answered q e h := by
    rcases List.mem_append.mp h with old | new
    · obtain ⟨known, spelling⟩ := sound.answered q e old
      exact ⟨mem_entries_intern_iff.mpr (.inl known), spelling⟩
    · obtain ⟨rfl, rfl⟩ : q = .intern lexeme ∧ e = (i.vocabulary.intern lexeme).1 := by
        simpa [Vocabulary.ask] using new
      exact ⟨mem_intern _ _, lexeme_intern _ _⟩
  spelled other := by
    have grown : (∃ e ∈ (i.vocabulary.intern lexeme).2.entries, e.word.lexeme = other) ↔
        (∃ e ∈ i.vocabulary.entries, e.word.lexeme = other) ∨ lexeme = other := by
      simp only [mem_entries_intern_iff, or_and_right, exists_or, exists_eq_left, lexeme_intern]
    refine grown.trans ?_
    rw [sound.spelled]
    simp [or_assoc, eq_comm]

theorem Sound.find (sound : i.Sound queries) (lexeme : String) :
    (i.ask (.find lexeme)).Sound (queries ++ [.find lexeme]) where
  asked := by simp [sound.asked]
  wellFormed := sound.wellFormed
  answered q e h := by
    rcases List.mem_append.mp h with old | new
    · exact sound.answered q e old
    · obtain ⟨rfl, found⟩ : q = .find lexeme ∧ i.vocabulary.find? lexeme = some e := by
        simpa [Vocabulary.ask, eq_comm] using new
      exact ⟨mem_of_find? found, lexeme_of_find? found⟩
  spelled other := by
    have same : .intern other ∈ queries ++ [.find lexeme] ↔ .intern other ∈ queries := by simp
    rw [same]
    exact sound.spelled other

theorem Sound.ask (sound : i.Sound queries) (q : Query) : (i.ask q).Sound (queries ++ [q]) := by
  cases q with
  | intern lexeme => exact sound.intern lexeme
  | find lexeme => exact sound.find lexeme

theorem Sound.askAll (sound : i.Sound queries) (more : List Query) :
    (i.askAll more).Sound (queries ++ more) := by
  induction more using List.reverseRecOn with
  | nil => simpa [Inquiry.askAll] using sound
  | append_singleton more q ih =>
    rw [askAll_concat, ← List.append_assoc]
    exact ih.ask q

/-- The spellings that were interned, without the reserved words. -/
def identifiers (queries : List Query) : Finset String :=
  (queries.filterMap Query.interned?).toFinset \ {"true", "false"}

theorem mem_identifiers {queries : List Query} {lexeme : String} :
    lexeme ∈ identifiers queries ↔
      .intern lexeme ∈ queries ∧ lexeme ≠ "true" ∧ lexeme ≠ "false" := by
  have asked : ∀ q : Query, q.interned? = some lexeme ↔ q = .intern lexeme := by
    rintro (_ | _) <;> simp [Query.interned?]
  simp [identifiers, asked]

/-- How spellings and entries go together in the answers to queries, and what comes of one more. -/
structure Told (i : Inquiry) (queries : List Query) : Prop where
  asked : i.answers.map Prod.fst = queries
  word : ∀ q e, (q, some e) ∈ i.answers → e.word = .ofLexeme q.lexeme
  same : ∀ q r a b, (q, some a) ∈ i.answers → (r, some b) ∈ i.answers →
    (a.id = b.id ↔ q.lexeme = r.lexeme) ∧ (a = b ↔ q.lexeme = r.lexeme)
  interned : ∀ lexeme, ∃ e, (i.ask (.intern lexeme)).answers = i.answers ++ [(.intern lexeme, some e)]
  looked : ∀ lexeme, ∃ answer,
    i.ask (.find lexeme) = ⟨i.vocabulary, i.answers ++ [(.find lexeme, answer)]⟩ ∧
      (answer = none ↔ lexeme ≠ "true" ∧ lexeme ≠ "false" ∧ .intern lexeme ∉ queries)
  size : i.vocabulary.size = 2 + (identifiers queries).card
  grows : ∀ more, i.vocabulary.size ≤ (i.askAll more).vocabulary.size
  nonempty : i.vocabulary.isEmpty = false

theorem Sound.word_of_answer (sound : i.Sound queries) {q : Query} {e : Entry}
    (h : (q, some e) ∈ i.answers) : e.word = .ofLexeme q.lexeme := by
  obtain ⟨known, spelling⟩ := sound.answered q e h
  rw [← spelling]
  exact sound.wellFormed.word_eq_of_mem known

theorem Sound.find?_eq_none_iff (sound : i.Sound queries) {lexeme : String} :
    i.vocabulary.find? lexeme = none ↔
      lexeme ≠ "true" ∧ lexeme ≠ "false" ∧ .intern lexeme ∉ queries := by
  rw [Vocabulary.find?_eq_none_iff]
  have spelled := not_congr (sound.spelled lexeme)
  simpa [not_or] using spelled

theorem Sound.size_eq (sound : i.Sound queries) :
    i.vocabulary.size = 2 + (identifiers queries).card := by
  refine sound.wellFormed.size_eq (by simp [mem_identifiers]) fun lexeme => ?_
  rw [sound.spelled, mem_identifiers]
  tauto

theorem Sound.told (sound : i.Sound queries) : i.Told queries where
  asked := sound.asked
  word _ _ := sound.word_of_answer
  same q r a b ha hb := by
    obtain ⟨knownA, spelledA⟩ := sound.answered q a ha
    obtain ⟨knownB, spelledB⟩ := sound.answered r b hb
    rw [← spelledA, ← spelledB]
    refine ⟨⟨fun same => ?_, fun same => ?_⟩, ⟨fun same => ?_, fun same => ?_⟩⟩
    · rw [sound.wellFormed.eq_of_id knownA knownB same]
    · rw [sound.wellFormed.eq_of_lexeme knownA knownB same]
    · rw [same]
    · exact sound.wellFormed.eq_of_lexeme knownA knownB same
  interned lexeme := ⟨_, rfl⟩
  looked lexeme := ⟨_, rfl, sound.find?_eq_none_iff⟩
  size := sound.size_eq
  grows more := by
    rw [sound.size_eq, (sound.askAll more).size_eq]
    refine Nat.add_le_add_left (Finset.card_le_card fun lexeme => ?_) 2
    simp only [mem_identifiers, List.mem_append]
    exact fun ⟨old, apart⟩ => ⟨.inl old, apart⟩
  nonempty := by
    have size := sound.size_eq
    rw [Vocabulary.isEmpty, List.isEmpty_eq_false_iff]
    rintro none
    rw [Vocabulary.size, none, List.length_nil] at size
    omega

/-- Whatever a new vocabulary is asked, each spelling has one entry and no two have the same. -/
theorem answers_told (number : Nat) (queries : List Query) :
    ((start (fresh number)).askAll queries).Told queries ∧
      ((start default).askAll queries).Told queries :=
  ⟨((sound_start number).askAll queries).told, ((sound_start 0).askAll queries).told⟩

end Inquiry

end TokenListing.Vocabulary
