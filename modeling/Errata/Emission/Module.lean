import Errata.Emission.Class
import Errata.Emission.Selector

/-!
# Generated modules

A generated module starts with a header. The classes of all enumerations and variants follow, and
then the selectors and constructors of all variants, so that a selector may name an enumeration that
is declared later. Blocks are set apart by two empty lines.

## Main definitions

* `ModuleOptions`: what a module depends on besides its descriptor.
* `generate`: the text of a module, or the first defect of its descriptor.
-/

namespace Errata.Emission

/-- The version of the generator. -/
def version : String := "0.1.0"

/-- What a generated module depends on besides its descriptor. -/
structure ModuleOptions where
  /-- The module that the generated code imports its support from. -/
  runtimeModule : String := "errorgen.runtime"
  /-- The name of the declaration file, or nothing. -/
  sourceName : String := ""
  /-- The shapes that have no name. -/
  nameless : List Shape := []

/-- The names that a module offers. -/
def exportedNames (d : Descriptor) : List String :=
  d.enumerations.flatMap fun e =>
    e.name :: e.variants.flatMap fun v => v.name :: v.constructor?.toList

/-- The list of the names that a module offers. -/
def exportList (names : List String) : Lines :=
  if names.isEmpty then ["__all__ = []"]
  else ["__all__ = ["] ++ (names.map fun name => "    " ++ quoted name ++ ",") ++ ["]"]

/-- The comment on the first line of a module. -/
def titleLine (sourceName : String) : String :=
  "# Generated by errorgen " ++ version ++
    (if sourceName = "" then "" else " from " ++ sourceName) ++ ". Do not edit."

/-- The header of a module after its first line. -/
def header (runtimeModule : String) (d : Descriptor) : Lines :=
  ["from __future__ import annotations",
    "",
    "import dataclasses as _eg_dataclasses",
    "",
    "import " ++ runtimeModule ++ " as _eg_rt"] ++
    d.imports.map Descriptor.Import.text ++ [""] ++ exportList (exportedNames d)

/-- The classes of an enumeration and of its variants. -/
def classBlocks (e : Descriptor.Enumeration) : Except Defect (List Lines) := do
  let classes ← e.variants.mapM variantClass
  return enumerationClass e :: classes ++ [registration e]

/-- The selector of a variant and the function that makes an error of it. -/
def bindingBlocks (nameless : List Shape) (v : Descriptor.Variant) :
    Except Defect (List Lines) := do
  let selector ← selector nameless v
  return selector :: (v.constructor?.map (constructor v)).toList

/-- Blocks with two empty lines between them. -/
def spaced : List Lines → Lines
  | [] => []
  | [block] => block
  | block :: rest => block ++ ["", ""] ++ spaced rest

/-- The blocks of a module after its header. -/
def blocks (nameless : List Shape) (d : Descriptor) : Except Defect (List Lines) := do
  let classes ← d.enumerations.mapM classBlocks
  let bindings ← (d.enumerations.flatMap Descriptor.Enumeration.variants).mapM
    (bindingBlocks nameless)
  return classes.flatten ++ bindings.flatten

/-- The text of a module. -/
def generate (options : ModuleOptions) (d : Descriptor) : Except Defect String := do
  let blocks ← blocks options.nameless d
  let lines := titleLine options.sourceName :: spaced (header options.runtimeModule d :: blocks)
  return "\n".intercalate lines ++ "\n"

end Errata.Emission
