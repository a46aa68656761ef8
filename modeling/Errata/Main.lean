import Errata.CommandLine.Program

/-!
# The program on a computer

The computer as a host: the outermost layer, which asks the system and decides nothing.
-/

namespace Errata.Computer

/-- Why the system refuses an operation. -/
def refusal : IO.Error → Files.Refusal
  | .noFileOrDirectory .. => .missing
  | .alreadyExists .. => .existing
  | .inappropriateType _ code words | .resourceExhausted _ code words
  | .permissionDenied _ code words =>
    if code = 20 then .notDirectory
    else if code = 21 then .directory
    else if code = 13 then .denied
    else .other code.toNat words
  | e => .other 5 (toString e)

/-- Asks the system for an operation on a path. -/
def attempt {α : Type} (p : Path) (action : String → IO α) : BaseIO (Except Files.Fault α) := do
  let name := toString p
  if name.contains '\x00' then return .error .nullCharacter
  match ← EIO.toBaseIO (action name) with
  | .ok a => return .ok a
  | .error e => return .error (.refused (refusal e) p)

/-- Whether there is a directory at a path: only in a directory the directory itself is found. -/
def isDirectory (p : Path) : BaseIO Bool := do
  match ← attempt p fun name => IO.FS.createDir (name ++ "/.") with
  | .error (.refused .existing _) => return true
  | _ => return false

/-- Writes a text to a stream. A text that cannot be written is given up. -/
def writeTo (stream : IO.FS.Stream) (text : String) : BaseIO Unit := do
  let _ ← EIO.toBaseIO do
    stream.putStr text
    stream.flush

/-- Whether a variable of the environment is set. -/
def isSet (name : String) : BaseIO Bool := do
  return (← IO.getEnv name).isSome

instance : Host BaseIO where
  workingDirectory := do
    match ← EIO.toBaseIO IO.currentDir with
    | .ok directory => return Path.ofString directory.toString
    | .error _ => return { root := .slash }
  readFile p := attempt p fun name => return (← IO.FS.readBinFile name).toList
  writeFile p text := attempt p fun name =>
    IO.FS.writeBinFile name (Bytes.encode text.toList).toByteArray
  makeDirectory p := attempt p fun name => IO.FS.createDir name
  isFile p := do
    if ← isDirectory p then return false
    match ← attempt p fun name => IO.FS.Handle.mk name .read with
    | .ok _ | .error (.refused .denied _) => return true
    | .error _ => return false
  isDirectory := isDirectory
  write channel text := do
    match channel with
    | .output => writeTo (← IO.getStdout) text
    | .complaints => writeTo (← IO.getStderr) text
  terminal := do
    return {
      isTerminal := ← (← IO.getStderr).isTty
      noColor := ← isSet "NO_COLOR"
      noUnicode := ← isSet "NO_UNICODE"
      dumb := (← IO.getEnv "TERM") == some "dumb" }
  timed f := do
    let start ← IO.monoNanosNow
    match ← EIO.toBaseIO (IO.lazyPure f) with
    | .ok a => return (a, (← IO.monoNanosNow) - start)
    | .error _ => return (f (), 0)

/-- What is said when the program ends without an exit code. -/
def lastWords : CommandLine.Interruption → String
  | .settings why => why.message
  | .source (.file fault) => fault.message
  | .source (.encoding fault) => fault.reason
  | .source (.compiling _) => "a source cannot be compiled"

end Errata.Computer

/-- The program. -/
def main (words : List String) : IO UInt32 := do
  let ran : BaseIO _ := Errata.CommandLine.run ⟨"3.11", "1.3.1"⟩ words
  match ← ran with
  | .ok status => return UInt32.ofNat status
  | .error why =>
    IO.eprintln (Errata.Computer.lastWords why)
    return 1
