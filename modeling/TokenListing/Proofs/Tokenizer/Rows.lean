import Mathlib.Data.List.Basic
import TokenListing.Proofs.Tokenizer.Calls

set_option autoImplicit false

/-!
Rows and the grammar. The rows of a text are the tokens that its segments spell, each with the line on
which its segment starts, unless one of them is an integer that is too large: the first of these is
the fault.
-/

namespace TokenListing

open Grammar Text Trace

def Grammar.listing : List Placed → Except Fault (List (Row Word))
  | [] => .ok []
  | p :: more =>
    match p.outcome? with
    | none => listing more
    | some (.ok token) => (listing more).map (⟨lineAfter p.front, token⟩ :: ·)
    | some (.error fault) => .error fault

def Run.plain (r : Run) : Except Fault (List (Row Word)) := r.result.map (List.map Row.plain)

theorem Grammar.listing_of_fits {ps : List Placed} (fits : ∀ p ∈ ps, p.segment.isTooLarge = false) :
    listing ps = .ok (ps.filterMap fun p => p.segment.token?.map (⟨lineAfter p.front, ·⟩)) := by
  induction ps with
  | nil => rfl
  | cons p more ih =>
    obtain ⟨here, later⟩ := List.forall_mem_cons.mp fits
    cases spelled : p.segment.token? with
    | none => simp [listing, Placed.outcome?, Segment.outcomeOn?, spelled, ih later]
    | some token =>
      simp [listing, Placed.outcome?, Segment.outcomeOn?, spelled, here, ih later, Except.map]

theorem Grammar.Segment.token?_of_isTooLarge {s : Segment} (h : s.isTooLarge = true) :
    ∃ token, s.token? = some token := by
  obtain ⟨kind, text⟩ := s
  have integer : kind = .integer := by
    rw [Segment.isTooLarge, Bool.and_eq_true] at h
    exact eq_of_beq h.1
  subst integer
  exact ⟨_, rfl⟩

theorem Grammar.listing_of_tooLarge {ps : List Placed} {p : Placed}
    (h : ps.find? (·.segment.isTooLarge) = some p) :
    listing ps = .error (.tooLarge (String.ofList p.segment.text) (lineAfter p.front)
      (byteLength p.front) .placeholder) := by
  induction ps with
  | nil => cases h
  | cons q more ih =>
    by_cases here : q.segment.isTooLarge = true
    · obtain rfl : q = p := by simpa [here] using h
      obtain ⟨token, spelled⟩ := Segment.token?_of_isTooLarge here
      simp [listing, Placed.outcome?, Segment.outcomeOn?, spelled, here]
    · have later := ih (by simpa [here] using h)
      cases spelled : q.segment.token? with
      | none => simp [listing, Placed.outcome?, Segment.outcomeOn?, spelled, later]
      | some token =>
        simp [listing, Placed.outcome?, Segment.outcomeOn?, spelled, here, later, Except.map]

theorem Grammar.Segment.eq_tooLarge_of_outcomeOn? {s : Segment} {line : UInt32} {front : List Char}
    {fault : Fault} (h : s.outcomeOn? line front = some (.error fault)) :
    s.isTooLarge = true ∧
      fault = .tooLarge (String.ofList s.text) line (byteLength front) .placeholder := by
  obtain ⟨token, _, outcome⟩ := Option.map_eq_some_iff.mp h
  split at outcome
  · next large => exact ⟨large, (Except.error.inj outcome).symm⟩
  · cases outcome

/-- Each row of a listing is one of its segments' own. -/
theorem Grammar.exists_of_listing_ok {ps : List Placed} {rows : List (Row Word)}
    (h : listing ps = .ok rows) {r : Row Word} (hr : r ∈ rows) :
    ∃ p ∈ ps, p.outcome? = some (.ok r.token) ∧ r.line = lineAfter p.front := by
  induction ps generalizing rows with
  | nil =>
    obtain rfl := Except.ok.inj h
    cases hr
  | cons p more ih =>
    cases outcome : p.outcome? with
    | none =>
      obtain ⟨q, hq, found⟩ := ih (by simpa [listing, outcome] using h) hr
      exact ⟨q, List.mem_cons_of_mem p hq, found⟩
    | some value =>
      cases value with
      | error fault => simp [listing, outcome] at h
      | ok token =>
        simp only [listing, outcome] at h
        obtain ⟨later, rest, rfl⟩ := map_eq_ok_iff.mp h
        rcases List.mem_cons.mp hr with rfl | hr
        · exact ⟨p, List.mem_cons_self, outcome, rfl⟩
        · obtain ⟨q, hq, found⟩ := ih rest hr
          exact ⟨q, List.mem_cons_of_mem p hq, found⟩

/-- A listing fails by a fault of one of its segments. -/
theorem Grammar.exists_of_listing_error {ps : List Placed} {fault : Fault}
    (h : listing ps = .error fault) : ∃ p ∈ ps, p.outcome? = some (.error fault) := by
  induction ps with
  | nil => cases h
  | cons p more ih =>
    have later : listing more = .error fault → ∃ q ∈ p :: more, q.outcome? = some (.error fault) := by
      intro failed
      obtain ⟨q, hq, outcome⟩ := ih failed
      exact ⟨q, List.mem_cons_of_mem p hq, outcome⟩
    cases outcome : p.outcome? with
    | none => exact later (by simpa [listing, outcome] using h)
    | some value =>
      cases value with
      | ok token =>
        simp only [listing, outcome] at h
        exact later (map_eq_error_iff.mp h)
      | error other =>
        simp only [listing, outcome, Except.error.injEq] at h
        exact ⟨p, List.mem_cons_self, by rw [outcome, h]⟩

theorem Grammar.listing_append (ps qs : List Placed) :
    listing (ps ++ qs) = (listing ps).bind fun rows => (listing qs).map (rows ++ ·) := by
  induction ps with
  | nil => cases h : listing qs <;> simp [listing, h, Except.bind, Except.map]
  | cons p more ih =>
    cases outcome : p.outcome? with
    | none => simp only [List.cons_append, listing, outcome, ih]
    | some value =>
      cases value with
      | error fault => simp only [List.cons_append, listing, outcome, Except.bind]
      | ok token =>
        simp only [List.cons_append, listing, outcome, ih]
        cases listing more with
        | error fault => rfl
        | ok rows => cases listing qs <;> rfl

/-- A segment that spells no token has no row. -/
theorem Grammar.listing_cons_of_gap {p : Placed} (more : List Placed)
    (gap : p.segment.kind.isToken = false) : listing (p :: more) = listing more := by
  simp [listing, Placed.outcome?, Segment.outcomeOn?_eq_none gap]

theorem Grammar.listing_append_of_gap {gap : List Segment}
    (blank : ∀ g ∈ gap, g.kind.isToken = false) (front : List Char) (ps : List Placed) :
    listing (placed front gap ++ ps) = listing ps := by
  induction gap generalizing front with
  | nil => rfl
  | cons g gap ih =>
    obtain ⟨here, later⟩ := List.forall_mem_cons.mp blank
    rw [placed, List.cons_append, listing_cons_of_gap _ here, ih later]

namespace Tokenizer

theorem plain_run_of_ok {t : Tokenizer} {token : Token Word} (value : t.step.value = .ok token) :
    t.run.plain = t.step.next.run.plain.map (⟨t.step.next.startLine, token⟩ :: ·) := by
  obtain ⟨found, outcome, rfl⟩ := map_eq_ok_iff.mp value
  rw [run_of_ok outcome]
  simp only [Run.plain, Run.result]
  split <;> rfl

theorem plain_run_of_error {t : Tokenizer} {fault : Fault} (value : t.step.value = .error fault) :
    t.run.plain = if fault.isEnd then .ok [] else .error fault := by
  rw [run_of_error (map_eq_error_iff.mp value)]
  simp only [Run.plain, Run.result]
  split <;> rfl

theorem plain_run {t : Tokenizer} {front : List Char} {l : List Segment}
    (known : t.vocabulary.WellFormed) (h : t.reader.At front (textOf l)) (cuts : Cuts (textOf l) l) :
    t.run.plain = listing (placed front l) := by
  -- A step of the run takes a gap and the token behind it.
  induction size : l.length using Nat.strong_induction_on generalizing t front l with
  | _ n ih =>
    rcases gap_or_token l with blank | ⟨gap, s, more, rfl, blank, token⟩
    · have none := listing_append_of_gap blank front []
      rw [List.append_nil] at none
      rw [plain_run_of_error (step_over_rest h cuts blank).1, none]
      rfl
    · obtain ⟨outcome, line, next⟩ := step_over_gap known h cuts blank token
      have shorter : more.length < n := by
        rw [← size, List.length_append, List.length_cons]
        omega
      rw [placed_append, listing_append_of_gap blank, placed, listing]
      cases value : t.step.value with
      | ok found =>
        rw [value] at outcome
        rw [plain_run_of_ok value, line, outcome,
          ih _ shorter (wellFormed_step known) next cuts.of_append.cons_inv.2 rfl]
      | error fault =>
        rw [value] at outcome
        rw [plain_run_of_error value, Segment.isEnd_of_outcomeOn? outcome, outcome]
        rfl

end Tokenizer

theorem plain_rows (source : String) :
    (rows source).map (List.map Row.plain) = listing (placed [] (segments source.toList)) := by
  have cuts := cuts_segments source.toList
  have text := cuts.textOf_eq
  refine Tokenizer.plain_run (Vocabulary.wellFormed_fresh 0) ?_ (by rwa [text])
  rw [text]
  exact .idling (Reader.idles_ofString source)

/-- The rows of a text are what the grammar prescribes: its one cut into segments lists them, or it
names the first integer that is too large. -/
theorem rows_follow_grammar (source : String) (few : source.toList.count '\n' < UInt32.size - 1) :
    (∀ l, Cuts source.toList l ↔ l = segments source.toList) ∧
      ((∀ s ∈ segments source.toList, s.isTooLarge = false) →
        ∃ listed, rows source = .ok listed ∧
          listed.map (fun r => (r.line.toNat, r.token.plain)) =
            (placed [] (segments source.toList)).filterMap fun p =>
              p.segment.token?.map (p.line, ·)) ∧
      ∀ p, (placed [] (segments source.toList)).find? (·.segment.isTooLarge) = some p →
        ∃ fault line, rows source = .error fault ∧ line.toNat = p.line ∧
          fault = .tooLarge (String.ofList p.segment.text) line (byteLength p.front) .placeholder ∧
          fault.label? = some ⟨"here", byteLength p.front, byteLength p.segment.text⟩ := by
  have found := plain_rows source
  have text : textOf (segments source.toList) = source.toList := (cuts_segments _).textOf_eq
  have exact_line : ∀ p ∈ placed [] (segments source.toList), (lineAfter p.front).toNat = p.line := by
    intro p hp
    have le := count_front_le hp '\n'
    rw [List.nil_append, text] at le
    exact toNat_lineAfter (Nat.lt_of_le_of_lt le few)
  refine ⟨fun l => cuts_iff, fun fits => ?_, fun p large => ?_⟩
  · rw [listing_of_fits fun p hp => fits p.segment (mem_of_mem_placed hp)] at found
    cases result : rows source with
    | error fault => simp [result, Except.map] at found
    | ok listed =>
      rw [result] at found
      have shown := Except.ok.inj found
      refine ⟨listed, rfl, ?_⟩
      have split : listed.map (fun r => (r.line.toNat, r.token.plain)) =
          (listed.map Row.plain).map fun r => (r.line.toNat, r.token) := by
        simp [Row.plain]
      rw [split, shown, List.map_filterMap]
      refine List.filterMap_congr fun p hp => ?_
      cases p.segment.token? with
      | none => rfl
      | some token => simp [exact_line p hp]
  · rw [listing_of_tooLarge large] at found
    cases result : rows source with
    | error fault =>
      rw [result] at found
      obtain rfl := Except.error.inj found
      refine ⟨_, lineAfter p.front, rfl, exact_line p (List.mem_of_find?_eq_some large), rfl, ?_⟩
      rw [Fault.label?, utf8ByteSize_ofList]
    | ok listed => simp [result, Except.map] at found

/-- Comments that overlap and tokens that touch. -/
theorem rows_follow_grammar_touching :
    ∃ listed, rows "a/*/12ab//*\n/" = .ok listed ∧
      listed.map (fun r => (r.line.toNat, r.token.plain)) =
        [(1, .word (.ofLexeme "a")), (1, .integer 12), (1, .word (.ofLexeme "ab")),
          (2, .symbol '/')] := by
  obtain ⟨listed, found, shown⟩ :=
    (rows_follow_grammar "a/*/12ab//*\n/" (by decide)).2.1 (by decide +kernel)
  exact ⟨listed, found, shown.trans (by decide +kernel)⟩

end TokenListing
