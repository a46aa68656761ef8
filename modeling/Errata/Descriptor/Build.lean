import Errata.Descriptor.Literal
import Errata.Descriptor.Names
import Errata.Name
import Errata.Syntax.Declaration

/-!
# Describing files

The items of a file are described one after the other. The rules for declarations are checked in a
fixed order; the first violation leaves the declaration out, and the next one is described. What is
odd but no violation is found along the way and stays found.

## Main definitions

* `Describing`: a description under way, with what was found so far.
* `enumeration`: describes a declaration.
* `describe`: describes the items of a file.
-/

namespace Errata.Descriptor

/-- A description under way. What was found is kept when an obstacle is met. -/
abbrev Describing (α : Type) :=
  ExceptT Obstacle (StateM (List Finding)) α

/-- Meets a violation. -/
def refuse {α : Type} (problem : Problem) (span : Span) : Describing α :=
  throw (violation problem span)

/-- Notes a finding. -/
def note (problem : Problem) (span : Option Span) : Describing Unit :=
  modify (· ++ [⟨problem, span⟩])

/-! ### Names and attributes -/

/-- Checks a name against those that are reserved. -/
def checkName (what : String) (reserved : List String) (name : Syntax.Token) : Describing Unit :=
  let text := String.ofList name.text
  if isReserved text || reserved.contains text || text.startsWith generatedPrefix then
    refuse (.reservedName text what) name.span
  else
    return ()

/-- The attributes that have no meaning here and are passed over in silence. -/
def toleratedAttributes : List String :=
  ["doc", "note", "allow", "derive", "cfg"]

/-- Notes an attribute that has no meaning. -/
def noteUnknown (a : Syntax.Attribute) : Describing Unit :=
  if toleratedAttributes.contains a.name then return ()
  else note (.unknownAttribute a.name) a.span

/-! ### Variants -/

variable [Expression.Capacity]

/-- Compiles the message of an attribute. -/
def message (strict : Bool) (a : Syntax.Attribute) : Describing Message :=
  match a.literal with
  | none => refuse (.noLiteral a.name) a.span
  | some token => liftExcept (compileLiteral strict token)
where
  /-- An obstacle that was met elsewhere. -/
  liftExcept {α : Type} : Except Obstacle α → Describing α
    | .ok a => return a
    | .error e => throw e

/-- Compiles the messages and the help texts of a variant. -/
def messages (strict : Bool) : List Syntax.Attribute → Describing (List Message × List Message)
  | [] => return ([], [])
  | a :: rest =>
    if a.name = "error" then do
      let m ← message strict a
      let (errors, helps) ← messages strict rest
      return (m :: errors, helps)
    else if a.name = "help" then do
      let m ← message strict a
      let (errors, helps) ← messages strict rest
      return (errors, m :: helps)
    else do
      noteUnknown a
      messages strict rest

/-- The role of a field among the earlier fields of a variant. -/
def role (earlier : List Field) (f : Syntax.Field) : Describing Role := do
  let name := String.ofList f.name.text
  let marks := f.attributes.map Syntax.Attribute.name
  if marks.contains "source" then
    if name ≠ "source" then refuse .misnamedSource f.name.span
    if earlier.any fun g => g.role = .source then refuse .secondSource f.span
    return .source
  else if marks.contains "location" then
    if name ≠ "location" then refuse .misnamedLocation f.name.span
    if earlier.any fun g => g.role = .location then refuse .secondLocation f.span
    return .location
  else
    return .selector

/-- Describes a field after the earlier fields of a variant. -/
def field (variant : String) (earlier : List Field) (f : Syntax.Field) : Describing Field := do
  let name := String.ofList f.name.text
  let some type := f.type | refuse (.untypedField name) f.span
  checkName "field" inheritedFields f.name
  f.attributes.forM fun a =>
    if a.name = "source" ∨ a.name = "location" then return () else noteUnknown a
  let role ← role earlier f
  if earlier.any fun g => g.name = name then refuse (.duplicateField name variant) f.name.span
  return ⟨name, type, role, f.span, f.name.span⟩

/-- Describes fields after the earlier fields of a variant. -/
def fields (variant : String) (earlier : List Field) :
    List Syntax.Field → Describing (List Field)
  | [] => return earlier
  | f :: rest => do
    let g ← field variant earlier f
    fields variant (earlier ++ [g]) rest

/-- Notes the names in a message that are not those of fields. -/
def noteNonFields (v : Variant) (m : Message) : Describing Unit :=
  m.arguments.forM fun a =>
    if a.isField ∧ a.text ∉ v.fieldNames then note (.notAField a.text v.name) a.span else return ()

/-- Describes a variant. -/
def variant (strict : Bool) (enumeration : String) (v : Syntax.Variant) : Describing Variant := do
  let name := String.ofList v.name.text
  checkName "variant" inheritedMembers v.name
  let (errors, helps) ← messages strict v.attributes
  if errors.isEmpty then refuse .noMessage v.span
  let declared ←
    match v.shape with
    | .unit => pure []
    | .typed | .positional => refuse .notNamedFields v.span
    | .named fs => fields name [] fs
  let described : Variant := ⟨enumeration, name, errors, helps, declared, v.span, v.name.span⟩
  (errors ++ helps).forM (noteNonFields described)
  return described

/-- Describes variants after the earlier variants of an enumeration. -/
def variants (strict : Bool) (enumeration : String) (earlier : List Variant) :
    List Syntax.Variant → Describing (List Variant)
  | [] => return earlier
  | v :: rest => do
    let w ← variant strict enumeration v
    match earlier.find? fun u => u.name = w.name with
    | some u =>
      refuse (.duplicateVariant w.name (u.nameSpan.getD v.name.span)) v.name.span
    | none => variants strict enumeration (earlier ++ [w]) rest

/-! ### Declarations -/

/-- Whether the attributes mark an enumeration as top-level. -/
def topLevel (marked : Bool) : List Syntax.Attribute → Describing Bool
  | [] => return marked
  | a :: rest => do
    if a.name = "top_level" then
      if marked then note .repeatedTopLevel a.span
      topLevel true rest
    else
      noteUnknown a
      topLevel marked rest

/-- Describes a declaration. -/
def enumeration (strict : Bool) (d : Syntax.Declaration) : Describing Enumeration := do
  let name := String.ofList d.name.text
  if d.kind.terminal ≠ .enumWord then refuse .notAnEnum d.kind.span
  if let span :: _ := d.innerAttributes then refuse .innerAttribute span
  checkName "enum" [] d.name
  let isTopLevel ← topLevel false d.attributes
  let declared ←
    match d.body with
    | .positional => refuse .notNamedFields d.span
    | .empty => pure []
    | .variants vs => variants strict name [] vs
  return ⟨name, declared, isTopLevel, d.span, d.name.span⟩

/-! ### Files -/

/-- The statement of an import of a module. -/
def importModuleText (path : List String) (newName : Option String) : String :=
  "import " ++ ".".intercalate path ++
    match newName with
    | some newName => " as " ++ newName
    | none => ""

/-- The statement of an import of names. -/
def importNamesText (dots : String) (path : List String) (names : List (String × Option String)) :
    String :=
  let written := names.map fun (name, newName) =>
    match newName with
    | some newName => name ++ " as " ++ newName
    | none => name
  "from " ++ dots ++ ".".intercalate path ++ " import " ++ ", ".intercalate written

/-- Adds an enumeration to a file, unless there is one of its name. -/
def addEnumeration (d : Descriptor) (e : Enumeration) : Describing Descriptor :=
  match d.enumerations.find? fun f => f.name = e.name with
  | some f => do
    note (.duplicateDeclaration e.name ((f.nameSpan.orElse fun _ => f.span).getD (.point 1 1)))
      e.nameSpan
    return d
  | none => return { d with enumerations := d.enumerations ++ [e] }

/-- Adds an item to a file. A declaration that violates a rule is left out. -/
def addItem (strict : Bool) (d : Descriptor) : Syntax.Item → Describing Descriptor
  | .importModule path newName span =>
    return { d with imports := d.imports ++ [⟨importModuleText path newName, span⟩] }
  | .importNames dots path names span =>
    return { d with imports := d.imports ++ [⟨importNamesText dots path names, span⟩] }
  | .declaration declaration =>
    tryCatch (enumeration strict declaration >>= addEnumeration d) fun
      | .violation f => do
        note f.problem f.span
        return d
      | .unreadable u => throw (.unreadable u)

/-- Describes items, and notes the collisions of names among them. -/
def describing (strict : Bool) (items : List Syntax.Item) : Describing Descriptor := do
  let d ← items.foldlM (addItem strict) ⟨[], []⟩
  d.collisions.forM fun f => note f.problem f.span
  return d

end Errata.Descriptor

namespace Errata

/-- A file that has been described, and what was found. -/
structure Description where
  /-- The file. -/
  descriptor : Descriptor
  /-- What was found, in order. -/
  findings : List Finding

/-- Describes the items of a file, unless an argument in it cannot be read. -/
def describe [Expression.Capacity] (strict : Bool) (items : List Syntax.Item) :
    Except Descriptor.Unreadable Description :=
  match ((Descriptor.describing strict items).run).run [] with
  | (.ok d, findings) => .ok ⟨d, findings⟩
  | (.error (.unreadable u), _) => .error u
  | (.error (.violation f), findings) => .ok ⟨⟨[], []⟩, findings ++ [f]⟩

end Errata
