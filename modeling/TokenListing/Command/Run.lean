import TokenListing.Command.Arguments
import TokenListing.Command.FileTree
import TokenListing.Text.Place
import TokenListing.Trace.Filter
import TokenListing.Tokenizer.Run

set_option autoImplicit false

/-!
The command as a function of its arguments and of what it finds around it. A run that starts reads
its source whole, cuts it into rows and ends with a listing or a fault; what it logs is a matter of
its own and has no part in how it ends. Only a setting for the log that would be cut inside a
character ends a run before it starts.
-/

namespace TokenListing

open Text

/-- Where a fault is to be looked for: the name of the text, the line and the column. -/
def Fault.location? : Fault → Option String
  | .endOfInput _ => none
  | .tooLarge _ _ offset source =>
    let place := placeOf source.content offset
    some (source.name ++ ":" ++ String.ofList (Decimal.ofNat place.line) ++ ":" ++
      String.ofList (Decimal.ofNat place.column))

namespace Command

open Trace

/-- What a run finds: files, standard input, and a setting for the log if there is one. -/
structure Environment where
  read : String → Except SystemError ByteArray
  input : ByteArray
  setting? : Option String

inductive Origin where
  | input
  | file (path : String)
  deriving DecidableEq, Repr

def Origin.name : Origin → String
  | .input => "<stdin>"
  | .file path => path

inductive ReadError where
  | system (error : SystemError)
  | notText
  deriving DecidableEq, Repr

def ReadError.text : ReadError → String
  | .system error => error.text
  | .notText => "stream did not contain valid UTF-8"

/-- How a run ends. One that is broken off tells nothing. -/
inductive Ending where
  | help
  | misused (error : UsageError)
  | brokenOff
  | unread (origin : Origin) (error : ReadError)
  | faulty (fault : Fault)
  | listed (listing : String)
  deriving DecidableEq, Repr

def helpLines : List String :=
  ["Dump the tokens of a source file",
   "",
   "Usage: lexis [OPTIONS] [FILE]",
   "",
   "Arguments:",
   "  [FILE]  Source file to scan (reads stdin when omitted)",
   "",
   "Options:",
   "      --format <FORMAT>  Token listing format [default: text] [possible values: text, json]",
   "  -v, --verbose          Log scanner activity to stderr",
   "  -h, --help             Print help"]

def helpText : String := String.join (helpLines.map (· ++ "\n"))

/-- A text up to its first line end. A carriage return ends a line only together with a line feed. -/
def firstLine : List Char → List Char
  | [] => []
  | '\r' :: '\n' :: _ => []
  | c :: cs => if c = '\n' then [] else c :: firstLine cs

theorem newline_notMem_firstLine (cs : List Char) : '\n' ∉ firstLine cs := by
  fun_induction firstLine cs with
  | case1 => simp
  | case2 => simp
  | case3 => simp
  | case4 c cs _ other ih => simp [ih, Ne.symm other]

namespace Ending

def exitCode : Ending → UInt32
  | .help => 0
  | .misused _ => 2
  | .brokenOff => 101
  | .unread .. => 1
  | .faulty _ => 1
  | .listed _ => 0

def output : Ending → String
  | .help => helpText
  | .listed listing => listing
  | _ => ""

/-- The message of a run that failed. One about the arguments is cut to its first line. -/
def failure? : Ending → Option String
  | .help => none
  | .misused error =>
    some (String.ofList (firstLine ("error: " ++ error.message).toList))
  | .brokenOff => none
  | .unread origin error =>
    let what := match origin with
      | .input => "read source from stdin"
      | .file path => "read source file '" ++ path ++ "'"
    some ("Error: " ++ what ++ "\n\nCaused by:\n    " ++ error.text ++ "\n")
  | .faulty _ => some "Error: scan failed\n"
  | .listed _ => none

def location? : Ending → Option String
  | .faulty fault => fault.location?
  | _ => none

end Ending

/-- How a run ends and the records that it logs. -/
structure Outcome where
  ending : Ending
  log : List Record
  deriving DecidableEq, Repr

/-- The source of a run and where it comes from. -/
def Environment.source (env : Environment) (options : Options) : Origin × Except ReadError String :=
  let (origin, content) : Origin × Except SystemError ByteArray :=
    match options.file? with
    | some path => (.file path, env.read path)
    | none => (.input, .ok env.input)
  match content with
  | .error error => (origin, .error (.system error))
  | .ok bytes =>
    match String.fromUTF8? bytes with
    | some text => (origin, .ok text)
    | none => (origin, .error .notText)

/-- A setting that can be read comes before what the arguments ask for. There is no filter for one
that would be cut inside a character. -/
def Environment.filter? (env : Environment) (options : Options) : Option Filter :=
  match env.setting?.map Filter.ofText with
  | some (.ok filter) => some filter
  | some (.error .insideCharacter) => none
  | _ => some (.ofThreshold (.upTo (if options.verbose then .debug else .warn)))

/-- The record of a source that is about to be cut into tokens. -/
def startRecord (name source : String) : Record :=
  ⟨.debug, "lexis", "scanning",
    [⟨"name", .text name⟩, ⟨"bytes", .number source.utf8ByteSize⟩]⟩

/-- All that a run on a source can log. -/
def records (name source : String) : List Record :=
  startRecord name source :: (Tokenizer.ofString 0 source).run.events.map Event.record

/-- The listing of a source, or its fault shown in the source. -/
def list (format : Format) (name source : String) : Ending :=
  match rows source with
  | .error fault => .faulty (fault.attach ⟨name, source⟩)
  | .ok rows =>
    match format with
    | .text => .listed (Listing.text (rows.map Row.plain))
    | .json => .listed (Listing.json (rows.map Row.plain) ++ "\n")

def runOptions (env : Environment) (options : Options) : Outcome :=
  match env.filter? options with
  | none => ⟨.brokenOff, []⟩
  | some filter =>
    match env.source options with
    | (origin, .error error) => ⟨.unread origin error, []⟩
    | (origin, .ok source) =>
      ⟨list options.format origin.name source, admitted filter (records origin.name source)⟩

def run (env : Environment) (arguments : List String) : Outcome :=
  match Options.ofArguments arguments with
  | .error .help => ⟨.help, []⟩
  | .error (.misuse error) => ⟨.misused error, []⟩
  | .ok options => runOptions env options

end Command

end TokenListing
