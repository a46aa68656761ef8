import Errata.Format.Spec
import Errata.Message.Template

/-!
# Filling templates

The fields of a template are filled from a list of values. A field without a name takes the next
value; one with a number takes the value of that number; the two ways may not be mixed. The
specification of a field may hold fields itself, which are filled first, and go no deeper.

## Main definitions

* `Template.Misfit`: why a template cannot be filled with given values.
* `Template.fill`: the filled template.
-/

namespace Errata.Template

/-- Why a template cannot be filled. -/
inductive Misfit (α : Type) where
  /-- The template is malformed. -/
  | malformed (fault : Fault)
  /-- A field has a name; values have none. -/
  | named (name : Text)
  /-- There is no value of the number. -/
  | missing (index : Nat)
  /-- The number of a field is too large. -/
  | tooManyDigits
  /-- A field has a number after another one that had none. -/
  | numberedAfterUnnamed
  /-- A field has no number after another one that had one. -/
  | unnamedAfterNumbered
  /-- A specification in a specification has fields. -/
  | tooDeep
  /-- The letter of a conversion means nothing. -/
  | unknownConversion (letter : CodePoint)
  /-- A field asks for a part of a value. -/
  | part (value : α) (path : Text)

/-- How the fields so far chose their values. -/
inductive Numbering where
  /-- There were none. -/
  | unused
  /-- One after the other. -/
  | inOrder (next : Nat)
  /-- By number. -/
  | byNumber
deriving DecidableEq, Repr

/-- The conversions that may be applied to a value before it is formatted. -/
inductive Conversion where
  /-- To its plain form. -/
  | plain
  /-- To its written form. -/
  | written
  /-- To its written form in ASCII. -/
  | ascii
deriving DecidableEq, Repr

/-- The conversion of a field, if it has one. -/
def conversion? {α : Type} : Option CodePoint → Except (Misfit α) (Option Conversion)
  | none => .ok none
  | some (.char 's') => .ok (some .plain)
  | some (.char 'r') => .ok (some .written)
  | some (.char 'a') => .ok (some .ascii)
  | some letter => .error (.unknownConversion letter)

/-- Whether the code point ends the first part of the name of a field. -/
def startsPart (c : CodePoint) : Bool :=
  c == .char '.' || c == .char '['

/-- The number that the first part of a name is, if it is one. -/
def index? {α : Type} (head : Text) : Except (Misfit α) (Option Nat) :=
  match Spec.number? head with
  | .error _ => .error .tooManyDigits
  | .ok (some n, []) => .ok (some n)
  | .ok _ => .ok none

/-- The value a field takes. -/
def choose {α : Type} (values : List α) (numbering : Numbering) (name : Text) :
    Except (Misfit α) (α × Numbering) := do
  let head := name.takeWhile fun c => !startsPart c
  let path := name.dropWhile fun c => !startsPart c
  let explicit ← index? head
  let (index, numbering) ←
    match head, explicit, numbering with
    | [], _, .byNumber => throw .unnamedAfterNumbered
    | [], _, .inOrder next => pure (next, Numbering.inOrder (next + 1))
    | [], _, .unused => pure (0, Numbering.inOrder 1)
    | _, some _, .inOrder _ => throw .numberedAfterUnnamed
    | _, some n, _ => pure (n, Numbering.byNumber)
    | _, none, _ => throw (.named head)
  let some value := values[index]? | throw (.missing index)
  if path.isEmpty then return (value, numbering) else throw (.part value path)

/-- Fills a template. At most `depth` levels of specifications hold fields. -/
def fillFrom {α ε : Type} (values : List α) (misfit : Misfit α → ε)
    (format : α → Option Conversion → Text → Except ε Text) (depth : Nat) (numbering : Numbering)
    (template : Text) : Except ε (Text × Numbering) :=
  match depth with
  | 0 => .error (misfit .tooDeep)
  | depth + 1 =>
    if ht : template = [] then .ok ([], numbering)
    else
      match h : next template with
      | .error fault => .error (misfit (.malformed fault))
      | .ok (chunk, rest) => do
        have := length_next_lt h ht
        let (shown, numbering) ←
          match hfield : chunk.field with
          | none => pure ([], numbering)
          | some field => do
            have := length_spec_lt h hfield
            let (value, numbering) ← (choose values numbering field.name).mapError misfit
            let conversion ← (conversion? field.conversion).mapError misfit
            let (spec, numbering) ←
              if .char '{' ∈ field.spec then
                fillFrom values misfit format depth numbering field.spec
              else
                pure (field.spec, numbering)
            let shown ← format value conversion spec
            pure (shown, numbering)
        let (after, numbering) ← fillFrom values misfit format (depth + 1) numbering rest
        return (chunk.literal ++ shown ++ after, numbering)
termination_by template.length

/-- Fills a template with values. `format` writes a value that is converted by the letter, under a
specification. -/
def fill {α ε : Type} (values : List α) (misfit : Misfit α → ε)
    (format : α → Option Conversion → Text → Except ε Text) (template : Text) : Except ε Text :=
  (fillFrom values misfit format 2 .unused template).map Prod.fst

end Errata.Template
