import TokenListing.Text.Pieces
import TokenListing.Trace.Directive

set_option autoImplicit false

/-!
Filters of the log. A filter is a list of directives, written with commas in between. Of the
directives that concern a record the most specific decides, and of equal ones the last; a record
that none concerns is dropped.
-/

namespace TokenListing.Trace

structure Filter where
  directives : List Directive
  deriving DecidableEq, Repr

namespace Filter

/-- The filter with one threshold for all records. -/
def ofThreshold (threshold : Threshold) : Filter := ⟨[⟨none, .every, threshold⟩]⟩

/-- The last of the most specific directives. -/
def strongest? : List Directive → Option Directive
  | [] => none
  | d :: ds =>
    match strongest? ds with
    | none => some d
    | some e => if d.outranks e then some d else some e

/-- The directive that decides on a record. -/
def deciding? (f : Filter) (r : Record) : Option Directive :=
  strongest? (f.directives.filter (·.concerns r))

def admits (f : Filter) (r : Record) : Bool :=
  match f.deciding? r with
  | some d => d.threshold.admits r.level
  | none => false

/-- Pieces without a character count for nothing, and without any directive only errors pass. The
first piece with a flaw decides what is wrong with the text. -/
def ofText (text : String) : Except Directive.Flaw Filter := do
  match ← ((Text.pieces ',' text.toList).filter (· ≠ [])).mapM Directive.ofText with
  | [] => return ofThreshold (.upTo .error)
  | directives => return ⟨directives⟩

theorem mem_of_strongest? {ds : List Directive} {d : Directive} (h : strongest? ds = some d) :
    d ∈ ds := by
  induction ds generalizing d with
  | nil => simp [strongest?] at h
  | cons e ds ih =>
    unfold strongest? at h
    split at h
    · simp_all
    · rename_i best found
      split at h
      · simp_all
      · have inRest := ih found
        simp_all

/-- What decides on a record is a directive of the filter that concerns it. -/
theorem concerns_of_deciding? {f : Filter} {r : Record} {d : Directive}
    (h : f.deciding? r = some d) : d ∈ f.directives ∧ d.concerns r = true :=
  List.mem_filter.1 (mem_of_strongest? h)

@[simp] theorem admits_ofThreshold (threshold : Threshold) (r : Record) :
    (ofThreshold threshold).admits r = threshold.admits r.level := rfl

end Filter

/-- The records that a filter lets through, in order. -/
def admitted (filter : Filter) (records : List Record) : List Record :=
  records.filter filter.admits

@[simp] theorem admitted_off (records : List Record) :
    admitted (.ofThreshold .off) records = [] := by
  simp [admitted]

@[simp] theorem admitted_trace (records : List Record) :
    admitted (.ofThreshold (.upTo .trace)) records = records := by
  simp [admitted]

end TokenListing.Trace
