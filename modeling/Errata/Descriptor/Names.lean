import Errata.Descriptor.Basic
import Errata.Descriptor.Problem
import Errata.Text.Lines

/-!
# Names of generated items

Each enumeration takes names in the generated module: its own, and for each variant those of its
selector, of its class and of the function that makes an error of it. A name that is taken, by an
earlier item or by an import, is a collision. At most one collision is reported for an enumeration;
what follows the collision in it takes no names.

## Main definitions

* `Import.boundNames`: the names an import takes.
* `Enumeration.generatedNames`: the names an enumeration takes.
* `collisions`: the collisions in a file.
-/

namespace Errata.Descriptor

/-- What stands after the first occurrence of `separator` in a list. -/
def afterFirst? (separator : List Char) : List Char → Option (List Char)
  | [] => if separator.isEmpty then some [] else none
  | c :: rest =>
    if separator.isPrefixOf (c :: rest) then some ((c :: rest).drop separator.length)
    else afterFirst? separator rest

/-- What stands after the last occurrence of `separator` in a list, or the whole list. At most
`fuel` occurrences are passed. -/
def afterLast (separator : List Char) : Nat → List Char → List Char
  | 0, chars => chars
  | fuel + 1, chars =>
    match afterFirst? separator chars with
    | some rest => afterLast separator fuel rest
    | none => chars

/-- Cuts a list at each occurrence of `separator`. At most `fuel` occurrences are cut at. -/
def cutAt (separator : List Char) : Nat → List Char → List (List Char)
  | 0, chars => [chars]
  | fuel + 1, chars =>
    match afterFirst? separator chars with
    | some rest =>
      chars.take (chars.length - rest.length - separator.length) :: cutAt separator fuel rest
    | none => [chars]

/-- The names an import takes: the first component of a module or its other name, or each imported
name or its other name. -/
def Import.boundNames (i : Import) : List String :=
  let text := i.text.toList
  match words text with
  | [first, _, _, newName] =>
    if first = "import".toList then [String.ofList newName] else fromNames text
  | first :: path :: _ =>
    if first = "import".toList then [String.ofList (path.takeWhile (· ≠ '.'))] else fromNames text
  | _ => []
where
  /-- The names taken by an import of names. They stand after the first ` import `. -/
  fromNames (text : List Char) : List String :=
    match afterFirst? " import ".toList text with
    | some aliases =>
      (cutAt ", ".toList text.length aliases).map fun newName =>
        String.ofList (afterLast " as ".toList text.length newName)
    | none => []

/-- The names an enumeration takes, each with its place, in order. -/
def Enumeration.generatedNames (e : Enumeration) : List (String × Option Span) :=
  (e.name, e.nameSpan) ::
    e.variants.flatMap fun v => v.generatedNames.map fun name => (name, v.nameSpan)

/-- Takes names one by one until one is taken already. -/
def takeNames (taken : List String) :
    List (String × Option Span) → List String × Option Finding
  | [] => (taken, none)
  | (name, span) :: rest =>
    if taken.contains name then (taken, some ⟨.nameCollision name, span⟩)
    else takeNames (name :: taken) rest

/-- The collisions in enumerations, when some names are taken. -/
def collisionsFrom (taken : List String) : List Enumeration → List Finding
  | [] => []
  | e :: rest =>
    let (taken, collision) := takeNames taken e.generatedNames
    collision.toList ++ collisionsFrom taken rest

end Errata.Descriptor

namespace Errata

/-- The collisions of names in a file. -/
def Descriptor.collisions (d : Descriptor) : List Finding :=
  Descriptor.collisionsFrom (d.imports.flatMap Descriptor.Import.boundNames) d.enumerations

end Errata
