/-!
# Paths

A path is a root, which may be empty, and a list of components. The components `.` and the empty
ones between repeated slashes are dropped when a path is read; `..` is kept until the path is
resolved against a directory.

## Main definitions

* `Path.ofString`, `toString`: reading and writing.
* `Path.name`, `Path.stem`, `Path.parent`, `Path.join`: parts of a path and putting paths together.
* `Path.resolve`: the path without `.` and `..`, seen from a directory.
* `Path.relativeTo?`: a path as seen from a directory above it.
-/

namespace Errata

/-- Where a path starts. -/
inductive Path.Root where
  /-- At the directory the path is used in. -/
  | relative
  /-- At the root directory. -/
  | slash
  /-- At a root written with exactly two slashes, which stays apart from the usual one. -/
  | doubleSlash
deriving DecidableEq, Repr

/-- A path of files and directories. -/
structure Path where
  /-- Where the path starts. -/
  root : Path.Root := .relative
  /-- The components after the root. -/
  parts : List String := []
deriving DecidableEq, Repr

namespace Path

/-- The written form of a root. -/
def Root.written : Root → String
  | relative => ""
  | slash => "/"
  | doubleSlash => "//"

/-- Cuts a list at every occurrence of `x`. -/
def splitAll {α : Type} [DecidableEq α] (x : α) : List α → List (List α)
  | [] => [[]]
  | y :: rest =>
    if y = x then [] :: splitAll x rest
    else
      match splitAll x rest with
      | [] => [[y]]
      | part :: parts => (y :: part) :: parts

/-- Reads a path. -/
def ofString (s : String) : Path where
  root :=
    match s.toList with
    | '/' :: '/' :: '/' :: _ => .slash
    | '/' :: '/' :: _ => .doubleSlash
    | '/' :: _ => .slash
    | _ => .relative
  parts := ((splitAll '/' s.toList).map String.ofList).filter fun part => part ≠ "" ∧ part ≠ "."

instance : ToString Path where
  toString p :=
    if p.root = .relative ∧ p.parts = [] then "."
    else p.root.written ++ "/".intercalate p.parts

/-- The last component, or the empty string if there is none. -/
def name (p : Path) : String :=
  p.parts.getLastD ""

/-- A name without its suffix: what stands before the last dot, unless the dot is the first or the
last character. -/
def stemOf (name : String) : String :=
  let fromDot := name.toList.reverse.dropWhile (· ≠ '.')
  let suffix := name.toList.reverse.takeWhile (· ≠ '.')
  match suffix, fromDot with
  | _ :: _, _ :: stem@(_ :: _) => String.ofList stem.reverse
  | _, _ => name

/-- The name without its suffix. -/
def stem (p : Path) : String :=
  stemOf p.name

/-- The path without its last component. -/
def parent (p : Path) : Path :=
  { p with parts := p.parts.dropLast }

/-- The second path as seen from the first. -/
def join (p q : Path) : Path :=
  match q.root with
  | .relative => { p with parts := p.parts ++ q.parts }
  | _ => q

instance : Div Path where
  div := join

/-- A path with one more component. -/
def child (p : Path) (name : String) : Path :=
  { p with parts := p.parts ++ [name] }

/-- The components without `..`: each takes the component before it away. -/
def collapse (parts : List String) : List String :=
  (parts.foldl (fun reversed part => if part = ".." then reversed.tail else part :: reversed)
    []).reverse

/-- The path from the root, seen from the directory `cwd`. -/
def resolve (cwd p : Path) : Path :=
  let p := cwd.join p
  { p with parts := collapse p.parts }

/-- A path as seen from a directory above it. -/
def relativeTo? (p base : Path) : Option Path :=
  if p.root = base.root ∧ base.parts.isPrefixOf p.parts then
    some { parts := p.parts.drop base.parts.length }
  else
    none

end Path

end Errata
