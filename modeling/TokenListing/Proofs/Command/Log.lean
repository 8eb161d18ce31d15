import TokenListing.Proofs.Command.Arguments
import TokenListing.Proofs.Command.Ending

set_option autoImplicit false

/-!
The log apart from the run. A threshold for the log, set by its name or asked for by the flag, picks
from the records of a run those that are severe enough, and has no part in how the run ends.
-/

namespace TokenListing

namespace Trace

def Level.setting : Level → String
  | .error => "error"
  | .warn => "warn"
  | .info => "info"
  | .debug => "debug"
  | .trace => "trace"

/-- The name by which a threshold is set. -/
def Threshold.setting : Threshold → String
  | .off => "off"
  | .upTo level => level.setting

theorem Filter.ofText_setting (threshold : Threshold) :
    Filter.ofText threshold.setting = .ok (.ofThreshold threshold) := by
  cases threshold with
  | off => rfl
  | upTo level => cases level <;> rfl

end Trace

namespace Command

open Settings Trace

/-- The same surroundings with a threshold set by its name, or none. -/
def Environment.withThreshold (env : Environment) (threshold? : Option Threshold) : Environment :=
  { env with setting? := threshold?.map Threshold.setting }

/-- A threshold that is set comes before the one that the flag asks for. -/
def inForce (threshold? : Option Threshold) (verbose : Bool) : Threshold :=
  threshold?.getD (.upTo (if verbose then .debug else .warn))

variable (env : Environment) (threshold? : Option Threshold) (options : Options)

theorem filter?_withThreshold : (env.withThreshold threshold?).filter? options =
    some (.ofThreshold (inForce threshold? options.verbose)) := by
  cases threshold? with
  | none => rfl
  | some threshold =>
    simp only [Environment.filter?, Environment.withThreshold, Option.map_some,
      Filter.ofText_setting]
    rfl

theorem steady_withThreshold : (env.withThreshold threshold?).Steady := by
  intro text set flawed
  obtain ⟨threshold, _, rfl⟩ := Option.map_eq_some_iff.mp set
  rw [Filter.ofText_setting] at flawed
  cases flawed

def logged (threshold : Threshold) (name : String) : Except ReadError String → List Record
  | .error _ => []
  | .ok source => (records name source).filter (threshold.admits ·.level)

theorem runOptions_withThreshold : runOptions (env.withThreshold threshold?) options =
    ⟨settle options.origin options.format (decode (env.content options)),
      logged (inForce threshold? options.verbose) options.origin.name
        (decode (env.content options))⟩ := by
  have source : (env.withThreshold threshold?).source options =
      (options.origin, decode (env.content options)) :=
    Environment.source_eq (env.withThreshold threshold?) options
  rw [runOptions, filter?_withThreshold, source]
  cases decode (env.content options) <;> rfl

theorem runOptions_of_not_steady {env : Environment} (flawed : ¬env.Steady) (options : Options) :
    runOptions env options = ⟨.brokenOff, []⟩ := by
  obtain ⟨text, set, inside⟩ : ∃ text, env.setting? = some text ∧
      Filter.ofText text = .error .insideCharacter := by
    simpa [Environment.Steady] using flawed
  have unreadable : env.filter? options = none := by
    rw [Environment.filter?, set, Option.map_some, inside]
  rw [runOptions, unreadable]

/-- Whether a run is broken off is up to the setting alone. -/
theorem ending_runOptions_verbose (verbose : Bool) :
    (runOptions env { options with verbose := verbose }).ending = (runOptions env options).ending := by
  by_cases steady : env.Steady
  · rw [ending_runOptions steady, ending_runOptions steady]
    rfl
  · rw [runOptions_of_not_steady steady, runOptions_of_not_steady steady]

theorem log_eq_nil_of_unread (unread : ∀ source : String, env.content options ≠ .ok source.toByteArray) :
    (runOptions env options).log = [] := by
  have failed : ∃ error, decode (env.content options) = .error error := by
    cases found : env.content options with
    | error error => exact ⟨_, rfl⟩
    | ok bytes =>
      have noText : String.fromUTF8? bytes = none :=
        fromUTF8?_eq_none_iff.mpr fun source same => unread source (by rw [found, same])
      exact ⟨.notText, by rw [decode, noText]⟩
  obtain ⟨error, failed⟩ := failed
  rw [runOptions]
  cases env.filter? options with
  | none => rfl
  | some filter =>
    rw [env.source_eq, failed]

def asksForLog (arguments : List String) : Bool :=
  match Options.ofArguments arguments with
  | .ok options => options.verbose
  | .error _ => false

theorem log_run_withThreshold (arguments : List String) :
    (run (env.withThreshold threshold?) arguments).log =
      (run (env.withThreshold (some (.upTo .trace))) arguments).log.filter
        ((inForce threshold? (asksForLog arguments)).admits ·.level) := by
  cases parses : Options.ofArguments arguments with
  | error refusal => cases refusal <;> simp [run, parses]
  | ok options =>
    rw [run_of_parses parses, run_of_parses parses, runOptions_withThreshold,
      runOptions_withThreshold, asksForLog, parses]
    cases decode (env.content options) with
    | error error => rfl
    | ok source => simp [logged, inForce]

theorem ending_run_withThreshold (other? : Option Threshold) (arguments : List String) :
    (run (env.withThreshold threshold?) arguments).ending =
      (run (env.withThreshold other?) arguments).ending := by
  cases parses : Options.ofArguments arguments with
  | error refusal => cases refusal <;> simp [run, parses]
  | ok options =>
    rw [ending_run parses (steady_withThreshold env threshold?),
      ending_run parses (steady_withThreshold env other?)]
    rfl

/-- The log of a run is no part of it. Which threshold is set does not count for how the run ends, nor
does the flag, and where a threshold is set the flag does not count at all. -/
structure Apart (env : Environment) (arguments : List String) : Prop where
  setting : ∀ one two : Option Threshold,
    (run (env.withThreshold one) arguments).ending = (run (env.withThreshold two) arguments).ending
  flag : ∀ {flag : String} {options : Options}, IsFlag flag →
    Options.ofArguments arguments = .ok options → options.verbose = false →
    (run env (flag :: arguments)).ending = (run env arguments).ending
  overruled : ∀ {flag : String} {options : Options} (threshold : Threshold), IsFlag flag →
    Options.ofArguments arguments = .ok options → options.verbose = false →
    run (env.withThreshold (some threshold)) (flag :: arguments) =
      run (env.withThreshold (some threshold)) arguments
  filtered : ∀ threshold? : Option Threshold,
    (run (env.withThreshold threshold?) arguments).log =
      (run (env.withThreshold (some (.upTo .trace))) arguments).log.filter
        ((inForce threshold? (asksForLog arguments)).admits ·.level)
  unread : ∀ {options : Options}, Options.ofArguments arguments = .ok options →
    (∀ source : String, env.content options ≠ .ok source.toByteArray) →
    (run env arguments).log = []

/-- Whatever is found and whatever the arguments are, the log is apart from the run. -/
theorem log_apart (arguments : List String) : Apart env arguments where
  setting one two := ending_run_withThreshold env one two arguments
  flag isFlag parses quiet := by
    rw [run_of_parses (ofArguments_flag isFlag parses quiet), run_of_parses parses]
    exact ending_runOptions_verbose env _ true
  overruled threshold isFlag parses quiet := by
    rw [run_of_parses (ofArguments_flag isFlag parses quiet), run_of_parses parses,
      runOptions_withThreshold, runOptions_withThreshold]
    rfl
  filtered threshold? := log_run_withThreshold env threshold? arguments
  unread parses unread := by
    rw [run_of_parses parses]
    exact log_eq_nil_of_unread env _ unread

/-- The flag lets through what is told of words and comments, and not the tokens. -/
example : (run ⟨fun _ => .error .notFound, "a // b".toByteArray, none⟩ ["-v"]).log.map Record.line =
    ["DEBUG scanning name=<stdin> bytes=6", "DEBUG interning identifier lexeme=\"a\"",
      "DEBUG skipping line comment line=1"] := by
  decide +kernel

end Command

end TokenListing
