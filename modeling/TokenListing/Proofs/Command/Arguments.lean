import TokenListing.Command.Arguments

set_option autoImplicit false

/-!
The flag for the log. Arguments that do not set the flag are read in the same way when it has been set
in front of them, and come to the same options but for it.
-/

namespace TokenListing.Command

theorem bind_eq_ok_iff {ε α β : Type} {x : Except ε α} {f : α → Except ε β} {b : β} :
    x >>= f = .ok b ↔ ∃ a, x = .ok a ∧ f a = .ok b := by
  cases x <;> simp [bind, Except.bind]

namespace Settings

def louder (s : Settings) : Settings := { s with verbose := true }

/-- A reader of arguments that goes on in the same way when the flag is set before, as long as it does
not set the flag itself. -/
structure Indifferent (read : Settings → Except Refusal Settings) : Prop where
  louder : ∀ {s t : Settings}, read s = .ok t → t.verbose = false →
    read s.louder = .ok t.louder ∧ s.verbose = false

theorem Indifferent.bind {first second : Settings → Except Refusal Settings}
    (one : Indifferent first) (two : Indifferent second) :
    Indifferent fun s => first s >>= second where
  louder read quiet := by
    obtain ⟨between, here, there⟩ := bind_eq_ok_iff.mp read
    obtain ⟨later, still⟩ := two.louder there quiet
    obtain ⟨sooner, start⟩ := one.louder here still
    exact ⟨bind_eq_ok_iff.mpr ⟨_, sooner, later⟩, start⟩

theorem indifferent_ok {change : Settings → Settings} (loud : ∀ s, change s.louder = (change s).louder)
    (keeps : ∀ s, (change s).verbose = s.verbose) : Indifferent fun s => .ok (change s) where
  louder {s t} read quiet := by
    obtain rfl := Except.ok.inj read
    exact ⟨congrArg _ (loud s), (keeps s).symm.trans quiet⟩

theorem indifferent_error (refusal : Refusal) : Indifferent fun _ => .error refusal where
  louder read := by cases read

/-- What is read in one of two ways is read in the same way by louder settings. -/
theorem Indifferent.ite {p : Settings → Prop} [DecidablePred p]
    {first second : Settings → Except Refusal Settings} (same : ∀ s, p s.louder ↔ p s)
    (one : Indifferent first) (two : Indifferent second) :
    Indifferent fun s => if p s then first s else second s where
  louder {s t} read quiet := by
    by_cases here : p s
    · rw [if_pos here] at read
      rw [if_pos ((same s).mpr here)]
      exact one.louder read quiet
    · rw [if_neg here] at read
      rw [if_neg (mt (same s).mp here)]
      exact two.louder read quiet

theorem indifferent_setFormat (value : String) : Indifferent (·.setFormat value) :=
  .ite (fun _ => Iff.rfl) (indifferent_error _) <|
    .ite (fun _ => Iff.rfl) (indifferent_error _) <|
      .ite (fun _ => Iff.rfl) (indifferent_ok (fun _ => rfl) fun _ => rfl) <|
        .ite (fun _ => Iff.rfl) (indifferent_ok (fun _ => rfl) fun _ => rfl) (indifferent_error _)

theorem indifferent_check : Indifferent check where
  louder {s t} read quiet := by
    obtain ⟨file?, format?, verbose, unchecked, pathsOnly⟩ := s
    cases unchecked with
    | nothing =>
      obtain rfl := Except.ok.inj read
      exact ⟨rfl, quiet⟩
    | format value? =>
      cases value? with
      | none => cases read
      | some value => exact (indifferent_setFormat value).louder read quiet
    | file path =>
      have named : Indifferent fun s => if path = "" then
          .error (.misuse (.missingValue fileParameter))
        else .ok { s with file? := some path, unchecked := .nothing } :=
        .ite (fun _ => Iff.rfl) (indifferent_error _) (indifferent_ok (fun _ => rfl) fun _ => rfl)
      exact named.louder read quiet

/-- The flag cannot be set twice, but what comes to settings without it did not set it. -/
theorem indifferent_setVerbose : Indifferent setVerbose where
  louder read quiet := by
    obtain ⟨checked, _, set⟩ := bind_eq_ok_iff.mp read
    split at set
    · cases set
    · obtain rfl := Except.ok.inj set
      cases quiet

theorem indifferent_askHelp : Indifferent askHelp where
  louder read _ := by
    obtain ⟨_, _, asked⟩ := bind_eq_ok_iff.mp read
    cases asked

theorem addPath_eq (s : Settings) (path : String) :
    s.addPath path = if s.hasFile then .error (.misuse (.unexpectedArgument path))
      else s.check >>= fun t => .ok { t with unchecked := .file path } := by
  unfold addPath
  cases s.hasFile <;> rfl

theorem indifferent_addPath (path : String) : Indifferent (·.addPath path) := by
  simp only [addPath_eq]
  exact .ite (fun _ => Iff.rfl) (indifferent_error _)
    (indifferent_check.bind (indifferent_ok (fun _ => rfl) fun _ => rfl))

theorem indifferent_addLetters (letters : List Char) : Indifferent (·.addLetters letters) := by
  induction letters with
  | nil =>
    have unchanged : Indifferent fun s => .ok (id s) := indifferent_ok (fun _ => rfl) fun _ => rfl
    exact unchanged
  | cons c rest ih =>
    by_cases flag : c = 'v'
    · subst flag
      exact indifferent_setVerbose.bind ih
    · by_cases help : c = 'h'
      · subst help
        exact indifferent_askHelp.bind ih
      · simp only [addLetters]
        exact indifferent_error _

theorem indifferent_addOption (name : String) (value? : Option String) :
    Indifferent (·.addOption name value?) := by
  unfold addOption
  split
  · exact indifferent_check.bind (indifferent_setFormat _)
  · exact indifferent_check.bind (indifferent_ok (fun _ => rfl) fun _ => rfl)
  · exact indifferent_setVerbose
  · exact indifferent_askHelp
  · exact indifferent_error _
  · exact indifferent_error _
  · exact indifferent_error _

theorem addPlain_eq (s : Settings) (argument : String) :
    s.addPlain argument = if s.unchecked = .format none ∧ s.pathsOnly = false then
      .ok { s with unchecked := .format (some argument) } else s.addPath argument := by
  unfold addPlain
  split
  · next lacks options => rw [if_pos ⟨lacks, options⟩]
  · next other => rw [if_neg fun both => other both.1 both.2]

theorem indifferent_addPlain (argument : String) : Indifferent (·.addPlain argument) := by
  simp only [addPlain_eq]
  exact .ite (fun _ => Iff.rfl) (indifferent_ok (fun _ => rfl) fun _ => rfl)
    (indifferent_addPath argument)

theorem indifferent_add (argument : String) : Indifferent (·.add argument) := by
  unfold add
  refine .ite (fun _ => Iff.rfl) (indifferent_addPlain argument) ?_
  split
  · exact indifferent_ok (fun _ => rfl) fun _ => rfl
  · exact indifferent_addOption _ _
  · exact indifferent_addLetters _
  · exact indifferent_addPlain argument

theorem indifferent_addAll (arguments : List String) : Indifferent (·.addAll arguments) := by
  induction arguments with
  | nil => exact indifferent_check
  | cons argument rest ih => exact (indifferent_add argument).bind ih

/-- The flag in either spelling. -/
def IsFlag (argument : String) : Prop := argument = "-v" ∨ argument = "--verbose"

theorem add_flag {flag : String} (isFlag : IsFlag flag) : initial.add flag = .ok initial.louder := by
  rcases isFlag with rfl | rfl <;> rfl

end Settings

open Settings

/-- Arguments that do not ask for the log by themselves come to the same options behind the flag. -/
theorem ofArguments_flag {flag : String} (isFlag : IsFlag flag) {arguments : List String}
    {options : Options} (parses : Options.ofArguments arguments = .ok options)
    (quiet : options.verbose = false) :
    Options.ofArguments (flag :: arguments) = .ok { options with verbose := true } := by
  unfold Options.ofArguments at parses ⊢
  cases read : initial.addAll arguments with
  | error refusal =>
    rw [read] at parses
    cases parses
  | ok settings =>
    rw [read] at parses
    obtain rfl := Except.ok.inj parses
    have louder : initial.louder.addAll arguments = .ok settings.louder :=
      ((indifferent_addAll arguments).louder read quiet).1
    have whole : initial.addAll (flag :: arguments) = .ok settings.louder :=
      bind_eq_ok_iff.mpr ⟨_, add_flag isFlag, louder⟩
    rw [whole]
    rfl

end TokenListing.Command
