import Errata.Diagnostic.Report
import Errata.Files.Tree
import Errata.Text.Lines

/-!
# Hosts

A host is where a program runs: it has files, a working directory, two streams of text and a clock.
The program is written for any host. A session is a host that lives in memory, in which every text
has an encoding; a strict session is one in which some have none.

## Main definitions

* `Host`: what a program may ask of its host.
* `Files.readText`, `Files.makeDirectories`: operations made of those of the host.
* `Session`: a host that lives in memory.
* `Encodings`, `Strict`: the texts that have no encoding, and a host that cannot write them.
-/

namespace Errata

/-- A stream that a program writes to. -/
inductive Channel where
  /-- The results. -/
  | output
  /-- The complaints. -/
  | complaints
deriving DecidableEq, Repr

/-- What a program may ask of its host. -/
class Host (m : Type → Type) where
  /-- The working directory. -/
  workingDirectory : m Path
  /-- The content of a file. -/
  readFile : Path → m (Except Files.Fault (List UInt8))
  /-- Writes a text to a file whose directory exists. -/
  writeFile : Path → String → m (Except Files.Fault Unit)
  /-- Makes a directory in one that exists. -/
  makeDirectory : Path → m (Except Files.Fault Unit)
  /-- Whether there is a file at a path. -/
  isFile : Path → m Bool
  /-- Whether there is a directory at a path. -/
  isDirectory : Path → m Bool
  /-- Writes to a stream. -/
  write : Channel → String → m Unit
  /-- What is known of the stream of complaints. -/
  terminal : m Stream
  /-- The value of a computation, and how many nanoseconds it took. -/
  timed : {α : Type} → (Unit → α) → m (α × Nat)

namespace Files

variable {m : Type → Type} [Monad m] [Host m]

/-- Writes a line to a stream. -/
def writeLine (channel : Channel) (line : String) : m Unit :=
  Host.write channel (line ++ "\n")

/-- The text of a file. Each of its lines ends by a line feed alone. -/
def readText (p : Path) : m (Except TextFault String) := do
  match ← Host.readFile p with
  | .error fault => return .error (.file fault)
  | .ok bytes =>
    match Bytes.decode bytes with
    | .error fault => return .error (.encoding fault)
    | .ok chars => return .ok (String.ofList (universalNewlines chars))

/-- What is left of a refusal to make a directory: nothing if there is one already. -/
def unlessDirectory (p : Path) : Except Fault Unit → m (Except Fault Unit)
  | .ok () => return .ok ()
  | .error fault => do
    match fault with
    | .refused _ _ => return if ← Host.isDirectory p then .ok () else .error fault
    | .nullCharacter => return .error fault

/-- Makes a directory and up to `depth` directories above it that are missing. -/
def makeDirectoriesUpTo : Nat → Path → m (Except Fault Unit)
  | 0, p => do unlessDirectory p (← Host.makeDirectory p)
  | depth + 1, p => do
    match ← Host.makeDirectory p with
    | .ok () => return .ok ()
    | .error fault =>
      if fault.isMissing then
        match ← makeDirectoriesUpTo depth p.parent with
        | .error fault => return .error fault
        | .ok () => unlessDirectory p (← Host.makeDirectory p)
      else unlessDirectory p (.error fault)

/-- Makes a directory and all directories above it that are missing. -/
def makeDirectories (p : Path) : m (Except Fault Unit) :=
  makeDirectoriesUpTo p.parts.length p

end Files

/-! ### A host in memory -/

/-- A host that lives in memory. -/
structure Session where
  /-- The files. -/
  tree : FileTree := {}
  /-- The place of the working directory. -/
  directory : Place := []
  /-- What was written to the stream of results. -/
  output : String := ""
  /-- What was written to the stream of complaints. -/
  complaints : String := ""

namespace Session

/-- Changes the tree, unless the change is refused. -/
def change (f : FileTree → Place → Except Files.Fault FileTree) :
    StateM Session (Except Files.Fault Unit) := fun s =>
  match f s.tree s.directory with
  | .ok tree => (.ok (), { s with tree })
  | .error fault => (.error fault, s)

instance : Host (StateM Session) where
  workingDirectory := do return { root := .slash, parts := (← get).directory }
  readFile p := do return (← get).tree.read (← get).directory p
  writeFile p text := change fun t here => t.write here p (Bytes.encode text.toList)
  makeDirectory p := change fun t here => t.makeDirectory here p
  isFile p := do return (← get).tree.isFile (← get).directory p
  isDirectory p := do return (← get).tree.isDirectory (← get).directory p
  write channel text := modify fun s =>
    match channel with
    | .output => { s with output := s.output ++ text }
    | .complaints => { s with complaints := s.complaints ++ text }
  terminal := return {}
  timed f := return (f (), 0)

end Session

/-! ### A host that cannot encode every text

The name of a file is a row of bytes. If that is the encoding of no text, the name is known under
characters that have no encoding themselves, and no text with them can be written anywhere but to
the stream of complaints, which has a way of writing everything. The stream of results may have
encodings for few characters only.
-/

/-- Which texts have no encoding. -/
class Encodings where
  /-- Whether a text cannot be written to the stream of results. -/
  unprintable : String → Bool
  /-- Whether a text cannot be written to a file. -/
  unwritable : String → Bool

/-- Every text has an encoding. -/
instance (priority := low) Encodings.all : Encodings where
  unprintable _ := false
  unwritable _ := false

/-- A text that has no encoding. -/
structure Unencodable where
  /-- The text. -/
  text : String

/-- Computations of a session that end when a text is to be written that has no encoding. -/
abbrev Strict :=
  ExceptT Unencodable (StateM Session)

namespace Strict

/-- What a computation of a session does, none of which can fail for want of an encoding. -/
def ofSession {α : Type} (x : StateM Session α) : Strict α :=
  ExceptT.lift x

/-- Runs a computation. -/
def runIn {α : Type} (x : Strict α) (s : Session) : Except Unencodable α × Session :=
  x.run.run s

variable [Encodings]

instance : Host Strict where
  workingDirectory := ofSession Host.workingDirectory
  readFile p := ofSession (Host.readFile p)
  writeFile p text := do
    if Encodings.unwritable text then
      -- a file is opened, and what it held is gone, before the text is encoded
      match ← ofSession (Host.writeFile p "") with
      | .ok () => throw ⟨text⟩
      | .error fault => return .error fault
    else ofSession (Host.writeFile p text)
  makeDirectory p := ofSession (Host.makeDirectory p)
  isFile p := ofSession (Host.isFile p)
  isDirectory p := ofSession (Host.isDirectory p)
  write channel text := do
    if channel = .output && Encodings.unprintable text then throw ⟨text⟩
    else ofSession (Host.write channel text)
  terminal := ofSession Host.terminal
  timed f := ofSession (Host.timed f)

end Strict

end Errata
