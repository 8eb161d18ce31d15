import TokenListing.Proofs.Session.History

set_option autoImplicit false

/-!
Words and entries in a session. However its tokenizers are called, words of one tokenizer are one entry
exactly where they are spelled alike, words of two tokenizers never are, and a vocabulary holds the
reserved words and what its tokenizer gave.
-/

namespace TokenListing.History

/-- What every call keeps: the vocabularies are well formed, numbered as their tokenizers are, and hold
the reserved words and the words that were given. -/
structure Sound (h : History) (count : Nat) : Prop where
  length : h.session.tokenizers.length = count
  tokens : h.given.map Prod.snd = h.session.tokens
  wellFormed : ∀ (k : Nat) (t : Tokenizer), h.session.tokenizers[k]? = some t →
    t.vocabulary.WellFormed ∧ t.vocabulary.number = k
  given : ∀ k token, (k, token) ∈ h.given → k < count
  entries : ∀ (k : Nat) (t : Tokenizer), h.session.tokenizers[k]? = some t → ∀ e,
    e ∈ t.vocabulary.entries ↔ e ∈ (Vocabulary.fresh k).entries ∨ (k, .word e) ∈ h.given

theorem sound_start (sources : List String) : (start sources).Sound sources.length := by
  have fresh : ∀ (k : Nat) (t : Tokenizer), (start sources).session.tokenizers[k]? = some t →
      t.vocabulary = .fresh k := by
    intro k t ht
    rw [start, Session.ofSources, List.getElem?_mapIdx] at ht
    obtain ⟨source, _, rfl⟩ := Option.map_eq_some_iff.mp ht
    rfl
  refine ⟨by simp [start, Session.ofSources], rfl, fun k t ht => ?_, by simp [start],
    fun k t ht e => ?_⟩
  · rw [fresh k t ht]
    exact ⟨Vocabulary.wellFormed_fresh k, rfl⟩
  · simp [fresh k t ht, start]

theorem Sound.play {h : History} {count : Nat} (sound : h.Sound count) (c : Call) :
    (h.play c).Sound count := by
  rcases h.play_cases c with ⟨_, same⟩ | ⟨t, next, new, ht, tokenizers, tokens, given, gives⟩
  · rwa [same]
  · have here : c.tokenizer < h.session.tokenizers.length := (List.getElem?_eq_some_iff.mp ht).1
    obtain ⟨known, number⟩ := sound.wellFormed _ t ht
    obtain ⟨known', number'⟩ := gives.wellFormed known
    -- Only the tokenizer that was called has changed.
    have changed : ∀ (k : Nat) (u : Tokenizer), (h.play c).session.tokenizers[k]? = some u →
        (k = c.tokenizer ∧ u = next) ∨ (k ≠ c.tokenizer ∧ h.session.tokenizers[k]? = some u) := by
      intro k u hu
      rw [tokenizers] at hu
      by_cases hk : c.tokenizer = k
      · subst hk
        rw [List.getElem?_set_self here] at hu
        exact .inl ⟨rfl, (Option.some.inj hu).symm⟩
      · rw [List.getElem?_set_ne hk] at hu
        exact .inr ⟨Ne.symm hk, hu⟩
    refine ⟨by simp [tokenizers, sound.length], ?_, ?_, ?_, ?_⟩
    · simp [tokens, given, sound.tokens, Function.comp_def]
    · intro k u hu
      rcases changed k u hu with ⟨rfl, rfl⟩ | ⟨_, old⟩
      · exact ⟨known', number'.trans number⟩
      · exact sound.wellFormed k u old
    · intro k token hm
      rw [given, List.mem_append] at hm
      rcases hm with hm | hm
      · exact sound.given k token hm
      · obtain ⟨_, _, same⟩ := List.mem_map.mp hm
        cases same
        rwa [← sound.length]
    · intro k u hu e
      rw [given, List.mem_append]
      rcases changed k u hu with ⟨rfl, rfl⟩ | ⟨other, old⟩
      · rw [gives.mem_entries_iff, sound.entries _ t ht, or_assoc]
        simp
      · have none : (k, Token.word e) ∉ new.map (c.tokenizer, ·) := by simp [Ne.symm other]
        rw [sound.entries k u old, or_iff_left none]

theorem sound_ofCalls (sources : List String) (calls : List Call) :
    (ofCalls sources calls).Sound sources.length :=
  calls.foldlRecOn play (motive := fun h => h.Sound sources.length) (sound_start sources)
    fun _ sound c _ => sound.play c

theorem find?_play {h : History} {k : Nat} {lexeme : String} {e : Entry}
    (found : h.session.find? k lexeme = some e) (c : Call) :
    (h.play c).session.find? k lexeme = some e := by
  rcases h.play_cases c with ⟨_, same⟩ | ⟨t, next, new, ht, tokenizers, _, _, gives⟩
  · rwa [same]
  · obtain ⟨u, hu, found⟩ := Option.bind_eq_some_iff.mp found
    rw [Session.find?, tokenizers]
    by_cases hk : c.tokenizer = k
    · subst hk
      obtain rfl : t = u := Option.some.inj (ht.symm.trans hu)
      rw [List.getElem?_set_self (List.getElem?_eq_some_iff.mp ht).1]
      rcases gives with ⟨same, _⟩ | ⟨other, _, grown⟩
      · simpa [same] using found
      · simpa [grown] using Vocabulary.find?_intern_of_find? found
    · rw [List.getElem?_set_ne hk, hu]
      exact found

theorem find?_foldl_play {h : History} {k : Nat} {lexeme : String} {e : Entry}
    (found : h.session.find? k lexeme = some e) (calls : List Call) :
    (calls.foldl play h).session.find? k lexeme = some e :=
  calls.foldlRecOn play (motive := fun h => h.session.find? k lexeme = some e) found
    fun _ found c _ => find?_play found c

/-- The entry of a token that is a word of tokenizer `k`. -/
def wordOf (k : Nat) : Nat × Token Entry → Option Entry
  | (j, .word e) => if j = k then some e else none
  | _ => none

def identifiers (h : History) (k : Nat) : Finset String :=
  ((h.given.filterMap (wordOf k)).map (·.word.lexeme)).toFinset \ {"true", "false"}

theorem wordOf_eq_some_iff {k : Nat} {p : Nat × Token Entry} {e : Entry} :
    wordOf k p = some e ↔ p = (k, .word e) := by
  obtain ⟨j, token⟩ := p
  cases token <;> simp [wordOf]

theorem mem_identifiers {h : History} {k : Nat} {lexeme : String} :
    lexeme ∈ h.identifiers k ↔
      (∃ e, (k, .word e) ∈ h.given ∧ e.word.lexeme = lexeme) ∧
        lexeme ≠ "true" ∧ lexeme ≠ "false" := by
  simp [identifiers, List.mem_filterMap, wordOf_eq_some_iff]

/-- How words are told apart in a history with so many tokenizers. -/
structure Told (h : History) (count : Nat) : Prop where
  given : h.given.map Prod.snd = h.session.tokens
  shared : ∀ k a b, (k, .word a) ∈ h.given → (k, .word b) ∈ h.given →
    ((Token.word a).sharesEntry (.word b) = true ↔ a.word.lexeme = b.word.lexeme) ∧
      (a.word.lexeme = b.word.lexeme ↔ (Token.word a).plain = (Token.word b).plain)
  apart : ∀ j k a b, j ≠ k → (j, .word a) ∈ h.given → (k, .word b) ∈ h.given →
    (Token.word a).sharesEntry (.word b) = false
  kinds : ∀ k a, (k, .word a) ∈ h.given →
    (a.word.kind = .trueWord ↔ a.word.lexeme = "true") ∧
      (a.word.kind = .falseWord ↔ a.word.lexeme = "false") ∧
      (a.word.kind = .identifier ↔ a.word.lexeme ≠ "true" ∧ a.word.lexeme ≠ "false")
  found : ∀ k < count, ∀ lexeme, (∃ e, h.session.find? k lexeme = some e) ↔
    lexeme = "true" ∨ lexeme = "false" ∨ ∃ a, (k, .word a) ∈ h.given ∧ a.word.lexeme = lexeme
  carried : ∀ k a, (k, .word a) ∈ h.given → h.session.find? k a.word.lexeme = some a
  sizes : ∀ k < count, h.session.tokenizers[k]?.map (·.vocabulary.size) =
    some (2 + (h.identifiers k).card)

theorem Sound.exists_vocabulary {h : History} {count k : Nat} (sound : h.Sound count)
    (hk : k < count) : ∃ t, h.session.tokenizers[k]? = some t := by
  rw [← sound.length] at hk
  exact ⟨_, List.getElem?_eq_getElem hk⟩

theorem Sound.mem_of_given {h : History} {count k : Nat} {e : Entry} (sound : h.Sound count)
    (given : (k, .word e) ∈ h.given) :
    ∃ t, h.session.tokenizers[k]? = some t ∧ t.vocabulary.WellFormed ∧ t.vocabulary.number = k ∧
      e ∈ t.vocabulary.entries := by
  obtain ⟨t, ht⟩ := sound.exists_vocabulary (sound.given k _ given)
  obtain ⟨known, number⟩ := sound.wellFormed k t ht
  exact ⟨t, ht, known, number, (sound.entries k t ht e).mpr (.inr given)⟩

theorem Sound.exists_lexeme_iff {h : History} {count k : Nat} {t : Tokenizer} (sound : h.Sound count)
    (ht : h.session.tokenizers[k]? = some t) (lexeme : String) :
    (∃ e, e ∈ t.vocabulary.entries ∧ e.word.lexeme = lexeme) ↔
      lexeme = "true" ∨ lexeme = "false" ∨ ∃ a, (k, .word a) ∈ h.given ∧ a.word.lexeme = lexeme := by
  simp only [sound.entries k t ht, or_and_right, exists_or, Vocabulary.fresh, List.mem_cons,
    List.not_mem_nil, or_false, exists_eq_left, or_assoc]
  simp only [eq_comm]

theorem Sound.told {h : History} {count : Nat} (sound : h.Sound count) : h.Told count where
  given := sound.tokens
  shared k a b ha hb := by
    obtain ⟨t, ht, known, _, ma⟩ := sound.mem_of_given ha
    have mb := (sound.entries k t ht b).mpr (.inr hb)
    refine ⟨⟨fun same => ?_, fun same => ?_⟩, fun same => ?_, fun same => ?_⟩
    · rw [known.eq_of_id ma mb (eq_of_beq same)]
    · rw [known.eq_of_lexeme ma mb same]
      simp [Token.sharesEntry]
    · rw [known.eq_of_lexeme ma mb same]
    · have words : a.word = b.word := by simpa [Token.plain] using same
      rw [words]
  apart j k a b differ ha hb := by
    obtain ⟨t, _, knownA, numberA, ma⟩ := sound.mem_of_given ha
    obtain ⟨u, _, knownB, numberB, mb⟩ := sound.mem_of_given hb
    obtain ⟨_, _, ia⟩ := knownA.id_eq_of_mem ma
    obtain ⟨_, _, ib⟩ := knownB.id_eq_of_mem mb
    simp [Token.sharesEntry, ia, ib, numberA, numberB, differ]
  kinds k a ha := by
    obtain ⟨t, _, known, _, ma⟩ := sound.mem_of_given ha
    rw [known.kinds a ma, WordKind.ofLexeme]
    split
    · next yes => simp [yes]
    · split
      · next no => simp [no]
      · next other => simp_all
  found k hk lexeme := by
    obtain ⟨t, ht⟩ := sound.exists_vocabulary hk
    rw [← sound.exists_lexeme_iff ht]
    have known := (sound.wellFormed k t ht).1
    simp only [Session.find?, ht, Option.bind_some, known.find?_eq_some_iff]
  carried k a ha := by
    obtain ⟨t, ht, known, _, ma⟩ := sound.mem_of_given ha
    simpa [Session.find?, ht] using known.find?_of_mem ma
  sizes k hk := by
    obtain ⟨t, ht⟩ := sound.exists_vocabulary hk
    have size : t.vocabulary.size = 2 + (h.identifiers k).card := by
      refine (sound.wellFormed k t ht).1.size_eq (by simp [mem_identifiers]) fun lexeme => ?_
      rw [sound.exists_lexeme_iff ht, mem_identifiers]
      tauto
    rw [ht, Option.map_some, size]

/-- Only one token is given for an entry, though it may be given again and again. -/
theorem Sound.eq_of_sharesEntry {h : History} {count : Nat} {t u : Token Entry}
    (sound : h.Sound count) (ht : t ∈ h.session.tokens) (hu : u ∈ h.session.tokens)
    (shares : t.sharesEntry u = true) : t = u := by
  rw [← sound.tokens] at ht hu
  obtain ⟨⟨j, t⟩, givenT, rfl⟩ := List.mem_map.mp ht
  obtain ⟨⟨k, u⟩, givenU, rfl⟩ := List.mem_map.mp hu
  cases t with
  | word a =>
    cases u with
    | word b =>
      by_cases same : j = k
      · subst same
        have lexemes := ((sound.told.shared j a b givenT givenU).1).mp shares
        obtain ⟨v, hv, known, _, ma⟩ := sound.mem_of_given givenT
        rw [known.eq_of_lexeme ma ((sound.entries j v hv b).mpr (.inr givenU)) lexemes]
      · cases (sound.told.apart j k a b same givenT givenU).symm.trans shares
    | _ => cases shares
  | _ => cases shares

/-- In any order of calls the words are told by their spelling, and what is found stays found. -/
theorem words_told (sources : List String) (calls : List Call) :
    (ofCalls sources calls).Told sources.length ∧
      ∀ more k lexeme e, (ofCalls sources calls).session.find? k lexeme = some e →
        (ofCalls sources (calls ++ more)).session.find? k lexeme = some e := by
  refine ⟨(sound_ofCalls sources calls).told, fun more k lexeme e found => ?_⟩
  rw [ofCalls, List.foldl_append]
  exact find?_foldl_play found more

end TokenListing.History
