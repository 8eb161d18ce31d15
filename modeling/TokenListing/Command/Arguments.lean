import TokenListing.Listing
import TokenListing.Text.Controls

set_option autoImplicit false

/-!
The command's arguments. Arguments are taken from the left, and a value is checked only when it is
complete: a format that stands behind its option, and a path, when the next option, the next path or
the end of the arguments is met. So of two mistakes the one that is complete first is reported. An
argument that no option goes by is a mistake at once.
-/

namespace TokenListing.Command

structure Options where
  file? : Option String
  format : Format
  verbose : Bool
  deriving DecidableEq, Repr

inductive UsageError where
  | unexpectedArgument (argument : String)
  | unexpectedValue (option : String) (value : String)
  | repeated (option : String)
  | missingValue (parameter : String)
  | invalidFormat (value : String)
  deriving DecidableEq, Repr

def formatParameter : String := "--format <FORMAT>"

def fileParameter : String := "[FILE]"

/-- An argument as a message shows it: quoted, without its control functions. -/
def quoted (argument : String) : String :=
  "'" ++ String.ofList (Text.Controls.strip argument.toList) ++ "'"

def UsageError.message : UsageError → String
  | .unexpectedArgument argument => "unexpected argument " ++ quoted argument ++ " found"
  | .unexpectedValue option value =>
    "unexpected value " ++ quoted value ++ " for '" ++ option ++
      "' found; no more were expected"
  | .repeated option => "the argument '" ++ option ++ "' cannot be used multiple times"
  | .missingValue parameter =>
    "a value is required for '" ++ parameter ++ "' but none was supplied"
  | .invalidFormat value => "invalid value " ++ quoted value ++ " for '" ++ formatParameter ++ "'"

/-- Why arguments do not lead to a run. -/
inductive Refusal where
  | help
  | misuse (error : UsageError)
  deriving DecidableEq, Repr

/-- A value that has been met and not been checked. -/
inductive Unchecked where
  | nothing
  | format (value? : Option String)
  | file (path : String)
  deriving DecidableEq, Repr

/-- What the arguments so far have set. -/
structure Settings where
  file? : Option String
  format? : Option Format
  verbose : Bool
  unchecked : Unchecked
  /-- Behind `--` every argument is a path. -/
  pathsOnly : Bool
  deriving DecidableEq, Repr

namespace Settings

def initial : Settings := ⟨none, none, false, .nothing, false⟩

/-- A format can be given once, by one of its two names. -/
def setFormat (s : Settings) (value : String) : Except Refusal Settings :=
  if s.format?.isSome then .error (.misuse (.repeated formatParameter))
  else if value = "" then .error (.misuse (.missingValue formatParameter))
  else if value = "text" then .ok { s with format? := some .text }
  else if value = "json" then .ok { s with format? := some .json }
  else .error (.misuse (.invalidFormat value))

/-- Checks the value that has been met last. -/
def check (s : Settings) : Except Refusal Settings :=
  let rest := { s with unchecked := .nothing }
  match s.unchecked with
  | .nothing => .ok rest
  | .format none => .error (.misuse (.missingValue formatParameter))
  | .format (some value) => rest.setFormat value
  | .file path =>
    if path = "" then .error (.misuse (.missingValue fileParameter))
    else .ok { rest with file? := some path }

def hasFile (s : Settings) : Bool :=
  match s.unchecked with
  | .file _ => true
  | _ => s.file?.isSome

def setVerbose (s : Settings) : Except Refusal Settings := do
  let s ← s.check
  if s.verbose then throw (.misuse (.repeated "--verbose"))
  return { s with verbose := true }

def askHelp (s : Settings) : Except Refusal Settings := do
  let _ ← s.check
  throw .help

def addPath (s : Settings) (path : String) : Except Refusal Settings := do
  if s.hasFile then throw (.misuse (.unexpectedArgument path))
  let s ← s.check
  return { s with unchecked := .file path }

/-- The one-letter options behind one hyphen. -/
def addLetters (s : Settings) : List Char → Except Refusal Settings
  | [] => .ok s
  | 'v' :: rest => do (← s.setVerbose).addLetters rest
  | 'h' :: rest => do (← s.askHelp).addLetters rest
  | c :: _ => .error (.misuse (.unexpectedArgument (String.ofList ['-', c])))

/-- An option spelled out behind two hyphens, with the value behind an equals sign. -/
def addOption (s : Settings) (name : String) (value? : Option String) :
    Except Refusal Settings :=
  match name, value? with
  | "format", some value => do (← s.check).setFormat value
  | "format", none => do
    let s ← s.check
    return { s with unchecked := .format none }
  | "verbose", none => s.setVerbose
  | "help", none => s.askHelp
  | "verbose", some value => .error (.misuse (.unexpectedValue "--verbose" value))
  | "help", some value => .error (.misuse (.unexpectedValue "--help" value))
  | _, _ => .error (.misuse (.unexpectedArgument ("--" ++ name)))

/-- A text cut at its first equals sign. -/
def splitValue (cs : List Char) : String × Option String :=
  match cs.dropWhile (· != '=') with
  | [] => (String.ofList cs, none)
  | _ :: value => (String.ofList (cs.takeWhile (· != '=')), some (String.ofList value))

/-- An argument that does not look like an option: the value of a format option that still lacks
one, or else a path. -/
def addPlain (s : Settings) (argument : String) : Except Refusal Settings :=
  match s.unchecked, s.pathsOnly with
  | .format none, false => .ok { s with unchecked := .format (some argument) }
  | _, _ => s.addPath argument

def add (s : Settings) (argument : String) : Except Refusal Settings :=
  if s.pathsOnly then s.addPlain argument
  else
    match argument.toList with
    | ['-', '-'] => .ok { s with pathsOnly := true }
    | '-' :: '-' :: option => s.addOption (splitValue option).1 (splitValue option).2
    | '-' :: c :: letters => s.addLetters (c :: letters)
    | _ => s.addPlain argument

def addAll (s : Settings) : List String → Except Refusal Settings
  | [] => s.check
  | argument :: rest => do (← s.add argument).addAll rest

/-- What is not set is read from standard input and listed as text. -/
def options (s : Settings) : Options := ⟨s.file?, s.format?.getD .text, s.verbose⟩

end Settings

def Options.ofArguments (arguments : List String) : Except Refusal Options :=
  (Settings.initial.addAll arguments).map Settings.options

end TokenListing.Command
