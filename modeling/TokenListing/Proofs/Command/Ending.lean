import TokenListing.Command.Run

set_option autoImplicit false

/-!
How runs end. What a run finds where its arguments tell it to look decides how it ends, together with
the format: by the bytes alone it is settled whether there is a listing and what a location says
behind the name.
-/

namespace TokenListing

open Text

theorem fromUTF8?_eq_some_iff {bytes : ByteArray} {source : String} :
    String.fromUTF8? bytes = some source ↔ source.toByteArray = bytes := by
  unfold String.fromUTF8?
  constructor
  · intro h
    split at h
    · cases h
      rfl
    · cases h
  · rintro rfl
    rw [dif_pos source.isValidUTF8]
    rfl

theorem fromUTF8?_eq_none_iff {bytes : ByteArray} :
    String.fromUTF8? bytes = none ↔ ∀ source : String, source.toByteArray ≠ bytes := by
  rw [Option.eq_none_iff_forall_ne_some]
  exact forall_congr' fun source => not_congr fromUTF8?_eq_some_iff

def Format.printed : Format → List (Row Word) → String
  | .text, rows => Listing.text rows
  | .json, rows => Listing.json rows ++ "\n"

/-- What a location says behind the name of the text. -/
def Text.Place.behindName (p : Place) : String :=
  ":" ++ String.ofList (Decimal.ofNat p.line) ++ ":" ++ String.ofList (Decimal.ofNat p.column)

/-- A text whose rows cannot be listed has a place to look at, whatever its name is. -/
theorem exists_location?_of_rows {source : String} {fault : Fault} (failed : rows source = .error fault) :
    ∃ place : Place, ∀ name,
      (fault.attach ⟨name, source⟩).location? = some (name ++ place.behindName) := by
  unfold rows Run.result at failed
  split at failed
  · cases failed
  · next noEnd =>
    obtain rfl := Except.error.inj failed
    cases here : (Tokenizer.ofString 0 source).run.fault with
    | endOfInput line => simp [here, Fault.isEnd] at noEnd
    | tooLarge literal line offset text =>
      refine ⟨placeOf source offset, fun name => ?_⟩
      simp [Fault.attach, Fault.location?, Place.behindName, String.append_assoc]

namespace Command

open Trace

def Options.origin (options : Options) : Origin :=
  match options.file? with
  | some path => .file path
  | none => .input

/-- What is found where the options tell to look. -/
def Environment.content (env : Environment) (options : Options) : Except SystemError ByteArray :=
  match options.file? with
  | some path => env.read path
  | none => .ok env.input

/-- No run is broken off by the setting for the log. -/
def Environment.Steady (env : Environment) : Prop :=
  ∀ text, env.setting? = some text → Filter.ofText text ≠ .error .insideCharacter

theorem Environment.Steady.exists_filter {env : Environment} (steady : env.Steady) (options : Options) :
    ∃ filter, env.filter? options = some filter := by
  unfold Environment.filter?
  cases setting : env.setting? with
  | none => exact ⟨_, rfl⟩
  | some text =>
    have fits := steady text setting
    cases read : Filter.ofText text with
    | ok filter => exact ⟨filter, by simp [read]⟩
    | error flaw =>
      cases flaw with
      | malformed => exact ⟨_, by rw [Option.map_some, read]⟩
      | insideCharacter => exact absurd read fits

def decode : Except SystemError ByteArray → Except ReadError String
  | .error error => .error (.system error)
  | .ok bytes =>
    match String.fromUTF8? bytes with
    | some source => .ok source
    | none => .error .notText

theorem Environment.source_eq (env : Environment) (options : Options) :
    env.source options = (options.origin, decode (env.content options)) := by
  unfold Environment.source Environment.content Options.origin decode
  cases options.file? with
  | none =>
    dsimp only
    cases String.fromUTF8? env.input <;> rfl
  | some path =>
    dsimp only
    cases env.read path with
    | error error => rfl
    | ok bytes =>
      dsimp only
      cases String.fromUTF8? bytes <;> rfl

def settle (origin : Origin) (format : Format) : Except ReadError String → Ending
  | .error error => .unread origin error
  | .ok source => list format origin.name source

variable {env : Environment} {arguments : List String} {options : Options}

theorem ending_runOptions (steady : env.Steady) (options : Options) :
    (runOptions env options).ending =
      settle options.origin options.format (decode (env.content options)) := by
  obtain ⟨filter, readable⟩ := steady.exists_filter options
  simp only [runOptions, readable, env.source_eq]
  cases decode (env.content options) <;> rfl

theorem run_of_parses (parses : Options.ofArguments arguments = .ok options) :
    run env arguments = runOptions env options := by
  simp only [run, parses]

theorem ending_run (parses : Options.ofArguments arguments = .ok options) (steady : env.Steady) :
    (run env arguments).ending =
      settle options.origin options.format (decode (env.content options)) := by
  rw [run_of_parses parses, ending_runOptions steady]

def readFailure (origin : Origin) (cause : String) : String :=
  "Error: " ++
    (match origin with
      | .input => "read source from stdin"
      | .file path => "read source file '" ++ path ++ "'") ++
    "\n\nCaused by:\n    " ++ cause ++ "\n"

structure Fails (ending : Ending) (failure : String) (location? : Option String) : Prop where
  exitCode : ending.exitCode = 1
  output : ending.output = ""
  failure : ending.failure? = some failure
  location : ending.location? = location?

structure Succeeds (ending : Ending) (output : String) : Prop where
  exitCode : ending.exitCode = 0
  output : ending.output = output
  failure : ending.failure? = none
  location : ending.location? = none

/-- How a run ends that finds `content` at `origin`. -/
structure Ends (origin : Origin) (format : Format) (content : Except SystemError ByteArray)
    (ending : Ending) : Prop where
  unread : ∀ error, content = .error error → Fails ending (readFailure origin error.text) none
  undecoded : ∀ bytes, content = .ok bytes → (∀ source : String, source.toByteArray ≠ bytes) →
    Fails ending (readFailure origin "stream did not contain valid UTF-8") none
  decoded : ∀ source : String, content = .ok source.toByteArray →
    (ending.exitCode = 0 ↔ ∃ listed, rows source = .ok listed) ∧
    (∀ listed, rows source = .ok listed →
      Succeeds ending (format.printed (listed.map Row.plain))) ∧
    ∀ fault, rows source = .error fault →
      ∃ place : Place, Fails ending "Error: scan failed\n" (some (origin.name ++ place.behindName))

theorem fails_unread (origin : Origin) (error : ReadError) :
    Fails (.unread origin error) (readFailure origin error.text) none :=
  ⟨rfl, rfl, by cases origin <;> rfl, rfl⟩

theorem succeeds_list {source : String} {listed : List (Row Entry)} (format : Format) (name : String)
    (done : rows source = .ok listed) :
    Succeeds (list format name source) (format.printed (listed.map Row.plain)) := by
  unfold list
  rw [done]
  cases format <;> exact ⟨rfl, rfl, rfl, rfl⟩

/-- The place does not depend on the format or the name. -/
theorem exists_fails_list {source : String} {fault : Fault} (failed : rows source = .error fault) :
    ∃ place : Place, ∀ format name,
      Fails (list format name source) "Error: scan failed\n" (some (name ++ place.behindName)) := by
  obtain ⟨place, location⟩ := exists_location?_of_rows failed
  refine ⟨place, fun format name => ?_⟩
  unfold list
  rw [failed]
  exact ⟨rfl, rfl, rfl, location name⟩

theorem ends_settle (origin : Origin) (format : Format) (content : Except SystemError ByteArray) :
    Ends origin format content (settle origin format (decode content)) where
  unread error found := by
    rw [found]
    exact fails_unread origin (.system error)
  undecoded bytes found noText := by
    rw [found, decode, fromUTF8?_eq_none_iff.mpr noText]
    exact fails_unread origin .notText
  decoded source found := by
    have settled : settle origin format (decode content) = list format origin.name source := by
      rw [found, decode, fromUTF8?_eq_some_iff.mpr rfl]
      rfl
    rw [settled]
    refine ⟨?_, fun listed done => succeeds_list format origin.name done, fun fault failed => ?_⟩
    · cases outcome : rows source with
      | ok listed => exact iff_of_true (succeeds_list format origin.name outcome).exitCode ⟨_, rfl⟩
      | error fault =>
        obtain ⟨place, fails⟩ := exists_fails_list outcome
        have code := (fails format origin.name).exitCode
        simp [code]
    · obtain ⟨place, fails⟩ := exists_fails_list failed
      exact ⟨place, fails format origin.name⟩

/-- What two runs share that find the same, wherever each finds it. -/
structure Agree (options other : Options) (one two : Ending) : Prop where
  exitCode : one.exitCode = two.exitCode
  output : options.format = other.format → one.output = two.output
  location : ∃ place? : Option Place,
    one.location? = place?.map (options.origin.name ++ ·.behindName) ∧
      two.location? = place?.map (other.origin.name ++ ·.behindName)

theorem agree_settle (options other : Options) (content : Except SystemError ByteArray) :
    Agree options other (settle options.origin options.format (decode content))
      (settle other.origin other.format (decode content)) := by
  cases decode content with
  | error error => exact ⟨rfl, fun _ => rfl, none, rfl, rfl⟩
  | ok source =>
    cases outcome : rows source with
    | ok listed =>
      have one := succeeds_list options.format options.origin.name outcome
      have two := succeeds_list other.format other.origin.name outcome
      refine ⟨one.exitCode.trans two.exitCode.symm, fun same => ?_, none, one.location, two.location⟩
      rw [settle, settle, one.output, two.output, same]
    | error fault =>
      obtain ⟨place, fails⟩ := exists_fails_list outcome
      have one := fails options.format options.origin.name
      have two := fails other.format other.origin.name
      exact ⟨one.exitCode.trans two.exitCode.symm, fun _ => one.output.trans two.output.symm,
        some place, one.location, two.location⟩

/-- A run ends by what it finds, and runs that find the same end alike but for names and formats. -/
theorem run_ends (parses : Options.ofArguments arguments = .ok options) (steady : env.Steady) :
    Ends options.origin options.format (env.content options) (run env arguments).ending ∧
      ∀ {around : Environment} {others : List String} {other : Options},
        Options.ofArguments others = .ok other → around.Steady →
        around.content other = env.content options →
        Agree options other (run env arguments).ending (run around others).ending := by
  rw [ending_run parses steady]
  refine ⟨ends_settle _ _ _, fun parsed calm same => ?_⟩
  rw [ending_run parsed calm, same]
  exact agree_settle _ _ _

/-- The same text at every path and on standard input. -/
def Environment.everywhere (source : String) : Environment :=
  ⟨fun _ => .ok source.toByteArray, source.toByteArray, none⟩

/-- A file as an object listing and standard input as lines, with an integer that is too large. -/
theorem run_ends_tooLarge :
    Ends (.file "a") .json (.ok "b 4294967296".toByteArray)
        (run (.everywhere "b 4294967296") ["--format=json", "a"]).ending ∧
      Agree ⟨some "a", .json, false⟩ ⟨none, .text, true⟩
        (run (.everywhere "b 4294967296") ["--format=json", "a"]).ending
        (run (.everywhere "b 4294967296") ["-v"]).ending ∧
      (run (.everywhere "b 4294967296") ["-v"]).ending.location? = some "<stdin>:1:3" := by
  have steady : (Environment.everywhere "b 4294967296").Steady := fun text set => by cases set
  have parses : Options.ofArguments ["--format=json", "a"] = .ok ⟨some "a", .json, false⟩ := rfl
  have parsed : Options.ofArguments ["-v"] = .ok ⟨none, .text, true⟩ := rfl
  obtain ⟨ends, agree⟩ := run_ends parses steady
  exact ⟨ends, agree parsed steady rfl, by decide +kernel⟩

end Command

end TokenListing
