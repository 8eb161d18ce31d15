import TokenListing.Proofs.Tokenizer.Concat
import TokenListing.Proofs.Tokenizer.Spelling

set_option autoImplicit false

/-!
Blanks in place of a gap. A segment that spells no token may be replaced by any blanks: the tokens stay
what they are, those in front stay where they are, and those behind go down or up by as many lines as
there are more or fewer line feeds.
-/

namespace TokenListing

open Grammar Text

namespace Grammar

/-- Where a place of a text is when `w` stands in it for `g`, which has `pre` in front. -/
def Placed.relocate (pre g w : List Char) (p : Placed) : Placed :=
  if p.front.length < pre.length then p
  else ⟨pre ++ w ++ p.front.drop (pre ++ g).length, p.segment⟩

@[simp] theorem Placed.segment_relocate (pre g w : List Char) (p : Placed) :
    (p.relocate pre g w).segment = p.segment := by
  unfold relocate
  split <;> rfl

theorem Placed.relocate_behind (pre g w : List Char) (p : Placed) :
    (p.behind (pre ++ g)).relocate pre g w = p.behind (pre ++ w) := by
  have beyond : ¬((p.behind (pre ++ g)).front.length < pre.length) := by
    simp only [behind, List.length_append]
    omega
  rw [relocate, if_neg beyond]
  simp [behind]

theorem Rule.exists_token? {k : Kind} {text rest : List Char} (h : Rule k text rest)
    (token : k.isToken = true) : ∃ t, (Segment.mk k text).token? = some t := by
  cases h with
  | integer | word | symbol => exact ⟨_, rfl⟩
  | _ => simp [Kind.isToken] at token

theorem exists_token?_of_mem_tokens {cs : List Char} {p : Placed} (h : p ∈ tokens cs) :
    ∃ t, p.segment.token? = some t := by
  obtain ⟨hp, token⟩ := List.mem_filter.mp h
  obtain ⟨before, more, split, _⟩ := mem_placed_iff.mp hp
  exact (cuts_of_segments_eq split).of_append.cons_inv.1.exists_token? token

/-- The segments in front of another start in its front. -/
theorem length_front_lt {l : List Segment} {s : Segment} {more : List Segment}
    (cuts : Cuts (textOf (l ++ s :: more)) (l ++ s :: more)) {p : Placed} (h : p ∈ placed [] l) :
    p.front.length < (textOf l).length := by
  obtain ⟨before, behind, rfl, front⟩ := mem_placed_iff.mp h
  rw [List.append_assoc, List.cons_append] at cuts
  have nonempty := List.length_pos_iff.mpr cuts.of_append.cons_inv.1.text_ne_nil
  rw [List.nil_append] at front
  simp only [front, textOf_append, textOf_cons, List.length_append]
  omega

section

variable {cs w : List Char} {l m : List Segment} {g : Segment} (split : segments cs = l ++ g :: m)
  (nonempty : w ≠ []) (blank : ∀ c ∈ w, isBlank c = true)

include split nonempty blank

theorem segments_replace : segments (textOf l ++ w ++ textOf m) = l ++ (blanks w ++ m) := by
  have cuts := cuts_of_segments_eq split
  have behind : Cuts (w ++ textOf m) (blanks w ++ m) :=
    cuts_blanks blank cuts.of_append.cons_inv.2
  have starts : ∀ c ∈ (w ++ textOf m).head?, isBlank c = true ∨ c ∈ (textOf (g :: m)).head? := by
    intro c hc
    obtain ⟨d, rest, rfl⟩ := List.exists_cons_of_ne_nil nonempty
    obtain rfl : d = c := by simpa using hc
    exact .inl (blank d List.mem_cons_self)
  rw [List.append_assoc]
  exact (cuts.replace_behind (fun s hs => cuts.isOpen_eq_false hs) starts behind).segments_eq

/-- The tokens of the one text are those of the other, each where it goes to. -/
theorem tokens_replace (gap : g.kind.isToken = false) :
    tokens (textOf l ++ w ++ textOf m) =
      (tokens cs).map (Placed.relocate (textOf l) g.text w) := by
  have none : (placed (textOf l) (blanks w)).filter (·.segment.kind.isToken) = [] := by
    rw [List.filter_eq_nil_iff]
    intro p hp
    obtain ⟨c, _, same⟩ := List.mem_map.mp (mem_of_mem_placed hp)
    simp [← same, Kind.isToken]
  have text : textOf (blanks w) = w := by simp [textOf, blanks, List.flatMap_map]
  have before : ((placed [] l).filter (·.segment.kind.isToken)).map
      (Placed.relocate (textOf l) g.text w) = (placed [] l).filter (·.segment.kind.isToken) := by
    refine (List.map_congr_left fun p hp => ?_).trans (List.map_id _)
    have inFront := length_front_lt (cuts_of_segments_eq split) (List.mem_filter.mp hp).1
    rw [Placed.relocate, if_pos inFront]
    rfl
  have behind : ((placed (textOf l ++ g.text) m).filter (·.segment.kind.isToken)).map
      (Placed.relocate (textOf l) g.text w) =
        (placed (textOf l ++ w) m).filter (·.segment.kind.isToken) := by
    have there := placed_behind (textOf l ++ g.text) [] m
    have here := placed_behind (textOf l ++ w) [] m
    rw [List.append_nil] at there here
    rw [there, here, List.filter_map, List.filter_map, List.map_map]
    exact List.map_congr_left fun p _ => p.relocate_behind (textOf l) g.text w
  have ours : (placed (textOf l) (g :: m)).filter (·.segment.kind.isToken) =
      (placed (textOf l ++ g.text) m).filter (·.segment.kind.isToken) := by
    simp [placed, gap]
  rw [tokens, tokens, segments_replace split nonempty blank, split]
  simp only [placed_append, List.filter_append, List.map_append, List.nil_append, ours, none, text,
    before, behind]

end

/-- A token starts in the text in front of a gap, or behind the gap. -/
theorem starts_before_or_behind {cs : List Char} {l m : List Segment} {g : Segment}
    (split : segments cs = l ++ g :: m) (gap : g.kind.isToken = false) {p : Placed}
    (hp : p ∈ tokens cs) :
    p.front.length < (textOf l).length ∨
      ∃ front, p.front = textOf l ++ g.text ++ front ∧ front <+: textOf m := by
  rw [tokens, split, placed_append, List.nil_append, placed] at hp
  obtain ⟨hp, token⟩ := List.mem_filter.mp hp
  rcases List.mem_append.mp hp with hp | hp
  · exact .inl (length_front_lt (cuts_of_segments_eq split) hp)
  · rcases List.mem_cons.mp hp with rfl | hp
    · simp [gap] at token
    · obtain ⟨before, more, rfl, front⟩ := mem_placed_iff.mp hp
      refine .inr ⟨textOf before, front, ?_⟩
      rw [textOf_append]
      exact List.prefix_append _ _

/-- How the line of what starts at a place of `pre ++ g ++ back` goes over into its line in the text
with `w` for `g`. -/
structure Relined (pre g w back : List Char) (p : Placed) (line other : UInt32) : Prop where
  before : p.front.length < pre.length → other = line
  behind : pre.length ≤ p.front.length →
    other + UInt32.ofNat (g.count '\n') = line + UInt32.ofNat (w.count '\n')
  counted : pre.length ≤ p.front.length → (pre ++ g ++ back).count '\n' < UInt32.size - 1 →
    (pre ++ w ++ back).count '\n' < UInt32.size - 1 →
      other.toNat + g.count '\n' = line.toNat + w.count '\n'

theorem relined_relocate {cs w : List Char} {l m : List Segment} {g : Segment}
    (split : segments cs = l ++ g :: m) (gap : g.kind.isToken = false) {p : Placed}
    (hp : p ∈ tokens cs) :
    Relined (textOf l) g.text w (textOf m) p (lineAfter p.front)
      (lineAfter (p.relocate (textOf l) g.text w).front) := by
  rcases starts_before_or_behind split gap hp with before | ⟨front, text, within⟩
  · have later : ¬(textOf l).length ≤ p.front.length := Nat.not_le.mpr before
    refine ⟨fun _ => ?_, fun h => absurd h later, fun h => absurd h later⟩
    rw [Placed.relocate, if_pos before]
  · have later : ¬p.front.length < (textOf l).length := by
      simp only [text, List.length_append]
      omega
    have moved : (p.relocate (textOf l) g.text w).front = textOf l ++ w ++ front := by
      rw [Placed.relocate, if_neg later, text, List.drop_left]
    have le := within.sublist.count_le '\n'
    rw [moved, text]
    refine ⟨fun h => absurd h later, fun _ => ?_, fun _ few fewer => ?_⟩
    · simp only [lineAfter, ← UInt32.ofNat_add, List.count_append]
      congr 1
      omega
    · simp only [List.count_append] at few fewer
      rw [toNat_lineAfter (by simp only [List.count_append]; omega),
        toNat_lineAfter (by simp only [List.count_append]; omega)]
      simp only [List.count_append]
      omega

/-- Only tokens have rows. -/
theorem listing_filter_isToken (ps : List Placed) :
    listing (ps.filter (·.segment.kind.isToken)) = listing ps := by
  induction ps with
  | nil => rfl
  | cons p more ih =>
    by_cases token : p.segment.kind.isToken = true
    · rw [List.filter_cons, if_pos token]
      simp only [listing, ih]
    · rw [List.filter_cons, if_neg token, ih,
        listing_cons_of_gap more (Bool.eq_false_iff.mpr token)]

end Grammar

theorem plain_rows_tokens (source : String) :
    (rows source).map (List.map Row.plain) = listing (Grammar.tokens source.toList) := by
  rw [plain_rows, Grammar.tokens, listing_filter_isToken]

namespace Grammar

theorem fits_of_listing_ok {ps : List Placed} {rows : List (Row Word)} (h : listing ps = .ok rows) :
    ∀ p ∈ ps, p.segment.isTooLarge = false := by
  cases first : ps.find? (·.segment.isTooLarge) with
  | none => simpa using first
  | some p => cases h.symm.trans (listing_of_tooLarge first)

/-- Where every place spells a token the rows are those of the places, one by one. -/
theorem exists_place_of_listing_ok {ps : List Placed} {rows : List (Row Word)}
    (spelled : ∀ p ∈ ps, ∃ t, p.segment.token? = some t) (h : listing ps = .ok rows) {k : Nat}
    {r : Row Word} (hr : rows[k]? = some r) :
    ∃ p, ps[k]? = some p ∧ p.segment.token? = some r.token ∧ r.line = lineAfter p.front := by
  rw [listing_of_fits (fits_of_listing_ok h), Except.ok.injEq] at h
  subst h
  induction ps generalizing k with
  | nil => simp at hr
  | cons p more ih =>
    obtain ⟨⟨t, here⟩, later⟩ := List.forall_mem_cons.mp spelled
    rw [List.filterMap_cons_some (by rw [here]; rfl)] at hr
    cases k with
    | zero =>
      obtain rfl := Option.some.inj hr
      exact ⟨p, rfl, here, rfl⟩
    | succ k => exact ih later hr

section

variable {f : Placed → Placed} (keeps : ∀ p, (f p).segment = p.segment) {ps : List Placed}

include keeps

/-- Where the places are is no matter for the tokens of a listing. -/
theorem listing_map_ok {rows : List (Row Word)} (h : listing ps = .ok rows) :
    ∃ others, listing (ps.map f) = .ok others ∧ others.map Row.token = rows.map Row.token := by
  have fits := fits_of_listing_ok h
  rw [listing_of_fits fits, Except.ok.injEq] at h
  have fitting : ∀ p ∈ ps.map f, p.segment.isTooLarge = false := by
    simpa [keeps] using fits
  refine ⟨_, listing_of_fits fitting, ?_⟩
  rw [← h, List.filterMap_map, List.map_filterMap, List.map_filterMap]
  refine List.filterMap_congr fun p _ => ?_
  simp [keeps, Function.comp_def]

theorem listing_map_error {fault : Fault} (h : listing ps = .error fault) :
    ∃ p ∈ ps, p.segment.isTooLarge = true ∧
      fault = .tooLarge (String.ofList p.segment.text) (lineAfter p.front) (byteLength p.front)
        .placeholder ∧
      listing (ps.map f) = .error (.tooLarge (String.ofList p.segment.text) (lineAfter (f p).front)
        (byteLength (f p).front) .placeholder) := by
  cases first : ps.find? (·.segment.isTooLarge) with
  | none =>
    have fits : ∀ p ∈ ps, p.segment.isTooLarge = false := by simpa using first
    cases h.symm.trans (listing_of_fits fits)
  | some p =>
    have there : (ps.map f).find? (·.segment.isTooLarge) = some (f p) := by
      rw [List.find?_map]
      simp only [Function.comp_def, keeps, first, Option.map_some]
    have moved := listing_of_tooLarge there
    rw [keeps] at moved
    rw [listing_of_tooLarge first, Except.error.injEq] at h
    exact ⟨p, List.mem_of_find?_eq_some first, by simpa using List.find?_some first, h.symm, moved⟩

end

end Grammar

theorem exists_place_of_row {source : String} {found : List (Row Entry)} (h : rows source = .ok found)
    {k : Nat} {r : Row Entry} (hr : found[k]? = some r) :
    ∃ p, (Grammar.tokens source.toList)[k]? = some p ∧ p.segment.token? = some r.token.plain ∧
      r.line = lineAfter p.front := by
  have listed := plain_rows_tokens source
  rw [h] at listed
  have plain : (found.map Row.plain)[k]? = some r.plain := by rw [List.getElem?_map, hr]; rfl
  exact exists_place_of_listing_ok (fun p hp => exists_token?_of_mem_tokens hp) listed.symm plain

/-- A gap may be replaced by blanks: the tokens of a text are those of the other, on their lines as far
as they are in front of the gap, and otherwise as many lines further down as there are line feeds more
in the blanks than in the gap. If the text has an integer that is too large, the other fails by the
same literal. -/
theorem blanks_replace_gap (source other : String) (l m : List Segment) (g : Segment) (w : List Char)
    (split : segments source.toList = l ++ g :: m) (gap : g.kind.isToken = false)
    (nonempty : w ≠ []) (blank : ∀ c ∈ w, isBlank c = true)
    (text : other.toList = textOf l ++ w ++ textOf m) :
    (∀ found, rows source = .ok found →
        ∃ shown, rows other = .ok shown ∧
          (tokens other).map (List.map Token.plain) = .ok (found.map (·.token.plain)) ∧
          (tokens source).map (List.map Token.plain) = .ok (found.map (·.token.plain)) ∧
          shown.map (·.token.plain) = found.map (·.token.plain) ∧
          ∀ (k : Nat) (r s : Row Entry), found[k]? = some r → shown[k]? = some s →
            ∃ p, (Grammar.tokens source.toList)[k]? = some p ∧
              p.segment.token? = some r.token.plain ∧ r.line = lineAfter p.front ∧
              Relined (textOf l) g.text w (textOf m) p r.line s.line) ∧
      ∀ fault, rows source = .error fault →
        ∃ p ∈ Grammar.tokens source.toList, ∃ literal line offset moved further attached,
          fault = .tooLarge literal line offset attached ∧ tokens source = .error fault ∧
          rows other = .error (.tooLarge literal moved further attached) ∧
          tokens other = .error (.tooLarge literal moved further attached) ∧
          literal.toList = p.segment.text ∧ offset = byteLength p.front ∧
          line = lineAfter p.front ∧ Relined (textOf l) g.text w (textOf m) p line moved := by
  have here := plain_rows_tokens source
  have there := plain_rows_tokens other
  have places := tokens_replace split nonempty blank gap
  rw [← text] at places
  have keeps := Placed.segment_relocate (textOf l) g.text w
  rw [places] at there
  refine ⟨fun found h => ?_, fun fault h => ?_⟩
  · rw [h] at here
    obtain ⟨listed, list, same⟩ := listing_map_ok keeps here.symm
    rw [list] at there
    obtain ⟨shown, result, rfl⟩ := map_eq_ok_iff.mp there
    have values : shown.map (·.token.plain) = found.map (·.token.plain) := by
      simpa [Row.plain, Function.comp_def] using same
    refine ⟨shown, result, ?_, ?_, values, fun k r s hr hs => ?_⟩
    · rw [tokens_eq_rows, result, ← values]
      simp [Except.map, Function.comp_def]
    · rw [tokens_eq_rows, h]
      simp [Except.map, Function.comp_def]
    · obtain ⟨p, index, token, line⟩ := exists_place_of_row h hr
      obtain ⟨q, moved, _, further⟩ := exists_place_of_row result hs
      rw [places, List.getElem?_map, index] at moved
      obtain rfl := Option.some.inj moved
      refine ⟨p, index, token, line, ?_⟩
      rw [line, further]
      exact relined_relocate split gap (List.mem_of_getElem? index)
  · rw [h] at here
    obtain ⟨p, hp, _, rfl, failed⟩ := listing_map_error keeps here.symm
    have result := map_eq_error_iff.mp (there.trans failed)
    refine ⟨p, hp, _, _, _, _, _, _, rfl, ?_, result, ?_, String.toList_ofList, rfl, rfl,
      relined_relocate split gap hp⟩
    · rw [tokens_eq_rows, h]
      rfl
    · rw [tokens_eq_rows, result]
      rfl

/-- A line feed between two tokens that only a comment of three lines held apart. -/
theorem blanks_replace_gap_comment :
    ∃ shown, rows "12\nb" = .ok shown ∧
      shown.map (·.token.plain) = [.integer 12, .word (.ofLexeme "b")] ∧
      ∀ s, shown[1]? = some s → s.line.toNat + 2 = 3 + 1 := by
  have listed : rows "12/*\n\n*/b" = .ok [⟨1, .integer 12⟩, ⟨3, .word ⟨.ofLexeme "b", ⟨0, 2⟩⟩⟩] := by
    decide +kernel
  have split : segments "12/*\n\n*/b".toList =
      [⟨.integer, "12".toList⟩] ++ ⟨.comment .block true, "/*\n\n*/".toList⟩ ::
        [⟨.word, "b".toList⟩] := by decide +kernel
  obtain ⟨shown, result, _, _, values, lines⟩ :=
    (blanks_replace_gap "12/*\n\n*/b" "12\nb" _ _ _ ['\n'] split (by decide) (by decide)
      (by simp [isBlank]) (by decide)).1 _ listed
  refine ⟨shown, result, values, fun s hs => ?_⟩
  obtain ⟨p, index, _, _, relined⟩ := lines 1 _ s rfl hs
  have second : (Grammar.tokens "12/*\n\n*/b".toList)[1]? =
      some ⟨"12/*\n\n*/".toList, .word, "b".toList⟩ := by decide +kernel
  obtain rfl := Option.some.inj (second.symm.trans index)
  exact relined.counted (by decide) (by decide) (by decide)

end TokenListing
