import TokenListing.Reader.Basic
import TokenListing.Text.Bytes

set_option autoImplicit false

/-!
Where in a text a reader stands. A reader either holds the first of the characters that are left, or
idles in front of them with a blank that is used up. Reading, runs and searches are described by the
text in front and the text that is left, whichever of the two the reader does.
-/

namespace TokenListing

open Text

/-- The line that a reader is on when it has read a text from the first line on. -/
def lineAfter (cs : List Char) : UInt32 := UInt32.ofNat (1 + cs.count '\n')

theorem lineAfter_concat (cs : List Char) (c : Char) :
    lineAfter (cs ++ [c]) = if c = '\n' then lineAfter cs + 1 else lineAfter cs := by
  unfold lineAfter
  split
  · next h => simp [h, ← Nat.add_assoc, UInt32.ofNat_add]
  · next h => simp [h]

theorem lineAfter_append (cs more : List Char) :
    lineAfter (cs ++ more) = lineAfter cs + UInt32.ofNat (more.count '\n') := by
  rw [lineAfter, lineAfter, ← UInt32.ofNat_add, List.count_append, Nat.add_assoc]

theorem toNat_lineAfter {cs : List Char} (few : cs.count '\n' < UInt32.size - 1) :
    (lineAfter cs).toNat = 1 + cs.count '\n' :=
  UInt32.toNat_ofNat_of_lt (by omega)

theorem toNat_lineAfter_of_append {cs read rest : List Char} (split : cs = read ++ rest)
    (few : cs.count '\n' < UInt32.size - 1) : (lineAfter read).toNat = 1 + read.count '\n' := by
  refine toNat_lineAfter (Nat.lt_of_le_of_lt ?_ few)
  simp [split]

namespace Reader

/-- The pending character is the first of those that are left. -/
structure Holds (r : Reader) (front back : List Char) : Prop where
  text : r.pending :: r.unread = back
  start : r.start = byteLength front
  stop : r.stop = byteLength (front ++ [r.pending])
  line : r.line = lineAfter (front ++ [r.pending])

/-- Nothing is pending but a blank in front of what is left. -/
structure Idles (r : Reader) (front back : List Char) : Prop where
  text : r.unread = back
  blank : isBlank r.pending = true
  stop : r.stop = byteLength front
  line : r.line = lineAfter front

inductive At (r : Reader) (front back : List Char) : Prop where
  | holding (h : r.Holds front back)
  | idling (h : r.Idles front back)

theorem idles_ofString (source : String) : (ofString source).Idles [] source.toList :=
  ⟨rfl, rfl, rfl, rfl⟩

theorem Holds.pending_eq {r : Reader} {front rest : List Char} {c : Char}
    (h : r.Holds front (c :: rest)) : r.pending = c :=
  (List.cons.inj h.text).1

theorem Holds.unread_eq {r : Reader} {front rest : List Char} {c : Char}
    (h : r.Holds front (c :: rest)) : r.unread = rest :=
  (List.cons.inj h.text).2

theorem Holds.line_eq {r : Reader} {front rest : List Char} {c : Char} (h : r.Holds front (c :: rest))
    (noFeed : c ≠ '\n') : r.line = lineAfter front := by
  obtain rfl := h.pending_eq
  rw [h.line, lineAfter_concat, if_neg noFeed]

/-- A blank that is held may as well be counted as used up. -/
theorem Holds.idles {r : Reader} {front rest : List Char} {c : Char}
    (h : r.Holds front (c :: rest)) (blank : isBlank c = true) : r.Idles (front ++ [c]) rest := by
  obtain rfl := h.pending_eq
  exact ⟨h.unread_eq, blank, h.stop, h.line⟩

theorem holds_take {r : Reader} {front rest : List Char} {c : Char} (stop : r.stop = byteLength front)
    (line : r.line = lineAfter front) : (r.take c rest).Holds front (c :: rest) where
  text := rfl
  start := stop
  stop := by simp [take, stop]
  line := by simp [take, lineAfter_concat, line]

theorem Idles.holds_take {r : Reader} {front rest : List Char} {c : Char}
    (h : r.Idles front (c :: rest)) : (r.take c rest).Holds front (c :: rest) :=
  Reader.holds_take h.stop h.line

theorem Holds.holds_take {r : Reader} {front rest : List Char} {c d : Char}
    (h : r.Holds front (c :: d :: rest)) : (r.take d rest).Holds (front ++ [c]) (d :: rest) := by
  obtain rfl := h.pending_eq
  exact Reader.holds_take h.stop h.line

theorem Holds.idles_clear {r : Reader} {front rest : List Char} {c : Char}
    (h : r.Holds front (c :: rest)) : r.clear.Idles (front ++ [c]) rest := by
  obtain rfl := h.pending_eq
  exact ⟨h.unread_eq, rfl, h.stop, h.line⟩

theorem Holds.step_cons {r : Reader} {front rest : List Char} {c d : Char}
    (h : r.Holds front (c :: d :: rest)) : r.step.Holds (front ++ [c]) (d :: rest) := by
  rw [Reader.step_cons h.unread_eq]
  exact h.holds_take

theorem Holds.step_at {r : Reader} {front rest : List Char} {c : Char}
    (h : r.Holds front (c :: rest)) : r.step.At (front ++ [c]) rest := by
  cases rest with
  | nil =>
    rw [step_nil h.unread_eq]
    exact .idling h.idles_clear
  | cons d rest => exact .holding h.step_cons

theorem Holds.steps_at {r : Reader} {front run rest : List Char} (nonempty : run ≠ [])
    (h : r.Holds front (run ++ rest)) : (r.steps run.length).At (front ++ run) rest := by
  induction run generalizing r front with
  | nil => contradiction
  | cons c run ih =>
    cases run with
    | nil => exact h.step_at
    | cons d run =>
      have next : r.step.Holds (front ++ [c]) (d :: run ++ rest) := h.step_cons
      have done := ih (List.cons_ne_nil d run) next
      rwa [List.append_assoc] at done

theorem Holds.takeRun {p : Char → Bool} {r : Reader} {front run rest : List Char}
    (h : r.Holds front (run ++ rest)) (nonempty : run ≠ [])
    (taken : (run ++ rest).takeWhile p = run) :
    (r.takeRun p).1 = run ∧ (r.takeRun p).2.At (front ++ run) rest := by
  have hrun : (r.takeRun p).1 = run := by rw [Reader.takeRun, h.text, taken]
  refine ⟨hrun, ?_⟩
  have hsteps : (r.takeRun p).2 = r.steps (r.takeRun p).1.length := rfl
  rw [hsteps, hrun]
  exact h.steps_at nonempty

/-- A search goes over the characters at which its condition fails. -/
theorem Holds.seek_passes {p : Reader → Bool} {r : Reader} {front passed back : List Char}
    (h : r.Holds front (passed ++ back)) (more : back ≠ [])
    (fails : ∀ (s : Reader) (pre post : List Char) (c : Char), passed = pre ++ c :: post →
      s.Holds (front ++ pre) (c :: (post ++ back)) → p s = false) :
    ∃ s : Reader, s.Holds (front ++ passed) back ∧ r.seek p = s.seek p := by
  induction passed generalizing r front with
  | nil => exact ⟨r, by simpa using h, rfl⟩
  | cons c passed ih =>
    obtain ⟨d, rest, hd⟩ := List.exists_cons_of_ne_nil
      (List.append_ne_nil_of_right_ne_nil passed more)
    have here : p r = false := fails r [] passed c rfl (by simpa using h)
    have next : (r.take d rest).Holds (front ++ [c]) (passed ++ back) := by
      rw [List.cons_append, hd] at h
      rw [hd]
      exact h.holds_take
    obtain ⟨s, hs, same⟩ := ih next fun s pre post e split held =>
      fails s (c :: pre) post e (by rw [split, List.cons_append]) (by simpa using held)
    refine ⟨s, by simpa using hs, ?_⟩
    rw [seek_of_cons here (h.unread_eq.trans hd), same]

theorem Holds.seek_stops {p : Reader → Bool} {r : Reader} {front passed back : List Char}
    (h : r.Holds front (passed ++ back)) (more : back ≠ [])
    (fails : ∀ (s : Reader) (pre post : List Char) (c : Char), passed = pre ++ c :: post →
      s.Holds (front ++ pre) (c :: (post ++ back)) → p s = false)
    (holds : ∀ s : Reader, s.Holds (front ++ passed) back → p s = true) :
    ∃ s : Reader, s.Holds (front ++ passed) back ∧ r.seek p = (true, s) := by
  obtain ⟨s, hs, same⟩ := h.seek_passes more fails
  exact ⟨s, hs, same.trans (seek_of_true (holds s hs))⟩

/-- A search whose condition fails everywhere stops at the last character. -/
theorem Holds.seek_ends {p : Reader → Bool} {r : Reader} {front passed : List Char} {last : Char}
    (h : r.Holds front (passed ++ [last]))
    (fails : ∀ (s : Reader) (pre post : List Char) (c : Char), passed ++ [last] = pre ++ c :: post →
      s.Holds (front ++ pre) (c :: post) → p s = false) :
    ∃ s : Reader, s.Holds (front ++ passed) [last] ∧ r.seek p = (false, s) := by
  obtain ⟨s, hs, same⟩ := h.seek_passes (List.cons_ne_nil last []) fun s pre post c split held =>
    fails s pre (post ++ [last]) c (by simp [split]) held
  have here : p s = false := fails s passed [] last rfl hs
  exact ⟨s, hs, same.trans (seek_of_nil here hs.unread_eq)⟩

end Reader

end TokenListing
