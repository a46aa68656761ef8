import Errata.Compile
import Errata.Files.Host

/-!
# Modules in files

The module of a declaration file stands next to it, or in a directory of its own, under the name of
the file without its suffix and with `_errors.py` behind.

## Main definitions

* `outputPath`: where the module of a file stands.
* `Abort`: why a run comes to no end.
* `writeModule`: writes a module.
* `compileFile`: compiles a file and writes its module.
-/

namespace Errata

/-- Where the module of a file stands: next to it unless a directory is given. -/
def outputPath (source : Path) (directory : Option Path) : Path :=
  (directory.getD source.parent).child (source.stem ++ "_errors.py")

/-- Why compiling a file in its file comes to no end. -/
inductive Abort where
  /-- A file cannot be read or written. -/
  | file (fault : Files.Fault)
  /-- The bytes of a file are the encoding of no text. -/
  | encoding (fault : Bytes.Fault)
  /-- The text cannot be compiled. -/
  | compiling (fault : CompileFault)

/-- The fault of a text as the end of a run. -/
def Abort.ofTextFault : Files.TextFault → Abort
  | .file fault => .file fault
  | .encoding fault => .encoding fault

variable {m : Type → Type} [Monad m] [Host m]

/-- Writes a module, in a directory that is made if it is missing. -/
def writeModule (code : String) (out : Path) : m (Except Files.Fault Unit) := do
  match ← Files.makeDirectories out.parent with
  | .error fault => return .error fault
  | .ok () => Host.writeFile out code

/-- Compiles a file. The module is written if there is one and it is wanted. -/
def compileFile [Expression.Capacity]
    (options : CompileOptions) (source : Path) (out : Option Path) (wanted : Bool) :
    m (Except Abort Compilation) := do
  match ← Files.readText source with
  | .error fault => return .error (.ofTextFault fault)
  | .ok text =>
    match compile options text (toString source) with
    | .error fault => return .error (.compiling fault)
    | .ok c =>
      match c.code, wanted with
      | some code, true =>
        match ← writeModule code (out.getD (outputPath source none)) with
        | .error fault => return .error (.file fault)
        | .ok () => return .ok c
      | _, _ => return .ok c

end Errata
