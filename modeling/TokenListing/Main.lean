import TokenListing.Command.Run

set_option autoImplicit false

/-!
The program: reads what the run needs, and writes what it comes to. The log and every failure go to
standard error, a listing and the help text to standard output.
-/

namespace TokenListing.Command

/-- The number of a system error, which may come negated. -/
def isErrorNumber (code number : UInt32) : Bool :=
  code == number || code == 0 - number

def SystemError.ofIOError : IO.Error → SystemError
  | .noFileOrDirectory .. => .notFound
  | .permissionDenied .. => .other "Permission denied (os error 13)"
  | .inappropriateType _ code text =>
    if isErrorNumber code 20 then .notDirectory
    else if isErrorNumber code 21 then .isDirectory
    else .other text
  | .invalidArgument file? code text =>
    if isErrorNumber code 36 then .nameTooLong
    else .other (toString (IO.Error.invalidArgument file? code text))
  | error => .other (toString error)

def readFile (path : String) : IO (Except SystemError ByteArray) :=
  try
    return .ok (← IO.FS.readBinFile path)
  catch error =>
    return .error (.ofIOError error)

partial def readAll (stream : IO.FS.Stream) (before : ByteArray) : IO ByteArray := do
  let more ← stream.read 65536
  if more.isEmpty then return before else readAll stream (before ++ more)

/-- The file or the standard input that the arguments ask for, and the setting for the log. -/
def observe (arguments : List String) : IO Environment := do
  let setting? ← IO.getEnv "RUST_LOG"
  match Options.ofArguments arguments with
  | .error _ => return ⟨fun _ => .error .notFound, ByteArray.empty, setting?⟩
  | .ok options =>
    match options.file? with
    | some path =>
      let content ← readFile path
      return ⟨fun _ => content, ByteArray.empty, setting?⟩
    | none =>
      let input ← readAll (← IO.getStdin) ByteArray.empty
      return ⟨fun _ => .error .notFound, input, setting?⟩

end TokenListing.Command

open TokenListing in
def main (arguments : List String) : IO UInt32 := do
  let outcome := Command.run (← Command.observe arguments) arguments
  for record in outcome.log do
    IO.eprintln record.line
  IO.print outcome.ending.output
  if let some location := outcome.ending.location? then
    IO.eprintln location
  if let some failure := outcome.ending.failure? then
    IO.eprint (if failure.endsWith "\n" then failure else failure ++ "\n")
  return outcome.ending.exitCode
