import Errata.Descriptor.Basic
import Errata.Expression.Token

/-!
# Import statements

The imports of a file stand in its generated module, one statement a line. When the module is loaded
each line is cut into tokens like any other code. If the tokens are not those of a statement, the
module cannot be loaded. Keywords are no names in a statement, whatever the declaration file makes
of them.

## Main definitions

* `ImportStatement`: what an import statement says.
* `ImportStatement.boundNames`: the names it defines.
* `readImport`: reads the statement of an import.
-/

namespace Errata.Error

open Expression (Lexeme)

/-- What an import statement says. -/
inductive ImportStatement where
  /-- A module is imported, and may be given a new name. -/
  | wholeModule (path : List String) (newName : Option String)
  /-- Names are imported from a module, and each may be given a new name. The path starts at a
  package around the importing module if there are dots in front of it, which are its level. -/
  | fromModule (level : Nat) (path : List String) (names : List (String × Option String))
deriving DecidableEq, Repr

namespace ImportStatement

/-- The path of the module that is imported, or that names are imported from. -/
def path : ImportStatement → List String
  | wholeModule path _ => path
  | fromModule _ path _ => path

/-- How many dots stand in front of the path. -/
def level : ImportStatement → Nat
  | wholeModule _ _ => 0
  | fromModule level _ _ => level

/-- The words of a statement that have to be names. -/
def words : ImportStatement → List String
  | wholeModule path newName => path ++ newName.toList
  | fromModule _ path names => path ++ names.flatMap fun (name, newName) => name :: newName.toList

/-- The names that a statement defines: the first component of the path of a module, or the new
name, and each imported name, or its new name. -/
def boundNames : ImportStatement → List String
  | wholeModule path none => path.head?.toList
  | wholeModule _ (some newName) => [newName]
  | fromModule _ _ names => names.map fun (name, newName) => newName.getD name

end ImportStatement

/-! ### Reading -/

/-- Reads a path, and gives what follows it. -/
def readPath : List Lexeme → Option (List String × List Lexeme)
  | .name name :: .op "." :: rest =>
    (readPath rest).map fun (path, rest) => (name :: path, rest)
  | .name name :: rest => some ([name], rest)
  | _ => none

/-- Reads the dots in front of a path, and gives their number and what follows them. -/
def readDots : List Lexeme → Nat × List Lexeme
  | .op "." :: rest =>
    let (level, rest) := readDots rest
    (level + 1, rest)
  | .op "..." :: rest =>
    let (level, rest) := readDots rest
    (level + 3, rest)
  | rest => (0, rest)

/-- Reads where names are imported from, and gives its level, its path and what follows. There may
be no path behind dots. -/
def readOrigin (lexemes : List Lexeme) : Option (Nat × List String × List Lexeme) :=
  match readDots lexemes with
  | (level + 1, .keyword "import" :: rest) => some (level + 1, [], .keyword "import" :: rest)
  | (level, rest) => (readPath rest).map fun (path, rest) => (level, path, rest)

/-- Reads imported names with commas between them, up to the end. -/
def readNames : List Lexeme → Option (List (String × Option String))
  | [.name name, .atEnd] => some [(name, none)]
  | [.name name, .keyword "as", .name newName, .atEnd] => some [(name, some newName)]
  | .name name :: .op "," :: rest => (readNames rest).map ((name, none) :: ·)
  | .name name :: .keyword "as" :: .name newName :: .op "," :: rest =>
    (readNames rest).map ((name, some newName) :: ·)
  | _ => none

/-- Reads an import statement, in one of the forms in which a file can have it. -/
def readStatement : List Lexeme → Option ImportStatement
  | .keyword "import" :: rest =>
    match readPath rest with
    | some (path, [.atEnd]) => some (.wholeModule path none)
    | some (path, [.keyword "as", .name newName, .atEnd]) => some (.wholeModule path (some newName))
    | _ => none
  | .keyword "from" :: rest =>
    match readOrigin rest with
    | some (level, path, .keyword "import" :: rest) =>
      (readNames rest).map (.fromModule level path)
    | _ => none
  | _ => none

/-- Reads the statement of an import, or finds that it is none. -/
def readImport (i : Descriptor.Import) : Option ImportStatement :=
  readStatement ((Expression.tokens i.text.toList).map Expression.Token.lexeme)

end Errata.Error
