import Errata.Association
import Errata.Path
import Errata.Text.Encoding

/-!
# File trees

A file tree says what stands at each place. An operation on a path can be refused, and the bytes of
a file need not be the encoding of a text. Some files may not be opened at all, neither to be read
nor to be written; whatever is a directory may be searched and changed.

## Main definitions

* `Files.Refusal`: why an operation is refused, with its number and wording.
* `Files.Fault`, `Files.Fault.message`: a refused operation.
* `Files.TextFault`: why a file gives no text.
* `FileTree`, `FileTree.get?`, `FileTree.put`: what stands where.
* `FileTree.locate`: the place that a path leads to.
* `FileTree.read`, `FileTree.write`, `FileTree.makeDirectory`: operations on paths.
-/

/-! ## What can go wrong with files

An operation on a path can be refused, and the bytes of a file need not be the encoding of a text.
-/

namespace Errata.Files

/-- Why an operation on a path is refused. -/
inductive Refusal where
  /-- There is nothing at the path. -/
  | missing
  /-- There is something at the path already. -/
  | existing
  /-- The path leads through something that is no directory. -/
  | notDirectory
  /-- There is a directory at the path. -/
  | directory
  /-- What is at the path may not be opened. -/
  | denied
  /-- Any other reason, with its number and wording. -/
  | other (number : Nat) (words : String)
deriving DecidableEq, Repr

namespace Refusal

/-- The number of a reason. -/
def number : Refusal → Nat
  | missing => 2
  | existing => 17
  | notDirectory => 20
  | directory => 21
  | denied => 13
  | other number _ => number

/-- The wording of a reason. -/
def words : Refusal → String
  | missing => "No such file or directory"
  | existing => "File exists"
  | notDirectory => "Not a directory"
  | directory => "Is a directory"
  | denied => "Permission denied"
  | other _ words => words

end Refusal

/-- An operation that cannot be done. -/
inductive Fault where
  /-- The operation on the path is refused. -/
  | refused (why : Refusal) (path : Path)
  /-- The path holds a null character, so there is no such path. -/
  | nullCharacter
deriving DecidableEq, Repr

namespace Fault

/-- The wording of a fault. -/
def message : Fault → String
  | refused why path =>
    "[Errno " ++ toString why.number ++ "] " ++ why.words ++ ": " ++ quoted (toString path)
  | nullCharacter => "embedded null byte"

/-- Whether nothing was found at the path. -/
def isMissing : Fault → Bool
  | refused .missing _ => true
  | _ => false

end Fault

/-- Why a file gives no text. -/
inductive TextFault where
  /-- The file cannot be read. -/
  | file (fault : Fault)
  /-- Its bytes are the encoding of no text. -/
  | encoding (fault : Bytes.Fault)
deriving DecidableEq, Repr

/-- The wording of a fault of a text. -/
def TextFault.message : TextFault → String
  | file fault => fault.message
  | encoding fault => fault.reason

end Errata.Files

/-! ## File trees -/

namespace Errata

/-- A place in a file tree: the names that lead to it from the root. -/
abbrev Place := List String

/-- What stands at a place. -/
inductive Entry where
  /-- A file with its content. -/
  | file (content : List UInt8)
  /-- A directory. -/
  | directory
  /-- A file that may not be opened. -/
  | sealed
deriving DecidableEq, Repr

/-- Whether an entry is a file. -/
def Entry.isFile : Entry → Bool
  | file _ | sealed => true
  | directory => false

/-- What stands where. At the root there always is a directory. -/
structure FileTree where
  /-- The places apart from the root at which something stands, in the order of their making. -/
  entries : List (Place × Entry) := []

namespace FileTree

/-- What stands at a place. -/
def get? (t : FileTree) (place : Place) : Option Entry :=
  if place = [] then some .directory else t.entries.lookup place

/-- The tree with the entry at a place changed. -/
def put (t : FileTree) (place : Place) (entry : Entry) : FileTree where
  entries := setEntry place entry t.entries

/-- The files with their contents, apart from those that may not be opened. -/
def files (t : FileTree) : List (Place × List UInt8) :=
  t.entries.filterMap fun (place, entry) =>
    match entry with
    | .file content => some (place, content)
    | .directory | .sealed => none

/-- Whether a file stands at a place. -/
def holdsFile (t : FileTree) (place : Place) : Bool :=
  (t.get? place).any Entry.isFile

/-- Follows names from a place. -/
def follow (t : FileTree) (place : Place) : List String → Except Files.Refusal Place
  | [] => .ok place
  | name :: names =>
    match t.get? place with
    | some .directory => t.follow (if name = ".." then place.dropLast else place ++ [name]) names
    | some _ => .error .notDirectory
    | none => .error .missing

/-- The place that a path leads to from the directory at `here`. Something stands at every place on
the way, but not always at the end. -/
def locate (t : FileTree) (here : Place) (p : Path) : Except Files.Fault Place :=
  if p.parts.any fun name => name.toList.contains '\x00' then .error .nullCharacter
  else
    (t.follow (if p.root = .relative then here else []) p.parts).mapError (.refused · p)

/-- The content of the file at a path. -/
def read (t : FileTree) (here : Place) (p : Path) : Except Files.Fault (List UInt8) := do
  match t.get? (← t.locate here p) with
  | some (.file content) => return content
  | some .directory => throw (.refused .directory p)
  | some .sealed => throw (.refused .denied p)
  | none => throw (.refused .missing p)

/-- Writes a file. The directory it stands in must exist. -/
def write (t : FileTree) (here : Place) (p : Path) (content : List UInt8) :
    Except Files.Fault FileTree := do
  let place ← t.locate here p
  if t.get? place = some .directory then throw (.refused .directory p)
  if t.get? place = some .sealed then throw (.refused .denied p)
  return t.put place (.file content)

/-- Makes a directory. The directory it stands in must exist. -/
def makeDirectory (t : FileTree) (here : Place) (p : Path) : Except Files.Fault FileTree := do
  let place ← t.locate here p
  if (t.get? place).isSome then throw (.refused .existing p)
  return t.put place .directory

/-- Whether there is a file at a path. -/
def isFile (t : FileTree) (here : Place) (p : Path) : Bool :=
  match t.locate here p with
  | .ok place => t.holdsFile place
  | .error _ => false

/-- Whether there is a directory at a path. -/
def isDirectory (t : FileTree) (here : Place) (p : Path) : Bool :=
  match t.locate here p with
  | .ok place => t.get? place = some .directory
  | .error _ => false

/-! ### What a change leaves -/

/-- At a place other than the root stands what was put there. -/
theorem get?_put_self (t : FileTree) {place : Place} (entry : Entry) (h : place ≠ []) :
    (t.put place entry).get? place = some entry := by
  rw [get?, if_neg h]
  exact lookup_setEntry_self place entry t.entries

/-- A change at one place leaves the others. -/
theorem get?_put_of_ne (t : FileTree) {place other : Place} (entry : Entry) (h : other ≠ place) :
    (t.put place entry).get? other = t.get? other := by
  have lookup_eq : (t.put place entry).entries.lookup other = t.entries.lookup other :=
    lookup_setEntry_of_ne entry t.entries h
  rw [get?, get?, lookup_eq]

end FileTree

end Errata
