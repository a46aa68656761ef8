import Errata.Emission.Class

/-!
# Emitted selectors

The selector of a variant holds the fields that the caller gives, and makes an error of the variant
from a failure. A variant that wraps no error also has a function that makes an error of it.
-/

namespace Errata.Emission

/-- The shapes that errors of a variant can be made from. -/
def acceptedShapes (v : Descriptor.Variant) : List Shape :=
  if v.source?.isSome then [.error] else [.anyError, .empty]

/-- The tuple of the shapes that errors of a variant can be made from. Some shapes may have no
name. -/
def shapeTuple (nameless : List Shape) (v : Descriptor.Variant) : Except Defect String := do
  let names ← (acceptedShapes v).mapM fun shape =>
    if nameless.contains shape then .error (Defect.unknownShape shape v.name)
    else .ok ("_eg_rt.Shape." ++ shape.name)
  return "(" ++ ", ".intercalate names ++ (if names.length = 1 then "," else "") ++ ")"

/-- The expression for the type of a cause: a type in quotation marks loses them. -/
def causeType (f : Descriptor.Field) : String :=
  match f.type.toList with
  | '"' :: rest@(_ :: _) =>
    if rest.getLast? = some '"' then String.ofList rest.dropLast else f.type
  | _ => f.type

/-- The call that makes an error of a variant. `valueOf` says where the value of a field comes from;
the place is captured. -/
def assembly (v : Descriptor.Variant) (valueOf : Descriptor.Field → String) : String :=
  let arguments := v.fields.map fun f =>
    if f.role = .location then f.name ++ "=_eg_rt.capture_location(1)"
    else f.name ++ "=" ++ valueOf f
  v.className ++ "(" ++ ", ".intercalate arguments ++ ")"

/-- The statements that make an error from a failure. -/
def bindBody (v : Descriptor.Variant) : Lines :=
  if v.source?.isSome then
    ["source = _eg_rt.extract_cause(self, residual)",
      "return " ++
        assembly v fun f => if f.role = .source then "source" else "self." ++ f.name]
  else
    ["_eg_cause = _eg_rt.extract_cause(self, residual)",
      "_eg_error = " ++ assembly v fun f => "self." ++ f.name,
      "_eg_error.__cause__ = _eg_cause",
      "return _eg_error"]

/-- The selector of a variant. -/
def selector (nameless : List Shape) (v : Descriptor.Variant) : Except Defect Lines := do
  let shapes ← shapeTuple nameless v
  let declared := v.selectorFields.map fun f => f.name ++ ": " ++ f.type
  return ["@_eg_dataclasses.dataclass(frozen=True)", "class " ++ v.name ++ ":"] ++
      indent
        (["\"\"\"Selector fields of " ++ v.enumeration ++ "." ++ v.name ++ ".\"\"\"", ""] ++
          declared ++ (if declared.isEmpty then [] else [""]) ++
          ["cause_type = " ++ ((v.source?.map causeType).getD "None"),
            "shapes = " ++ shapes,
            "",
            "def bind(self, residual: BaseException | None = None) -> " ++ v.enumeration ++ ":"] ++
          indent (bindBody v))

/-- The function that makes an error of a variant which wraps none. -/
def constructor (v : Descriptor.Variant) (name : String) : Lines :=
  let parameters := v.selectorFields.map fun f => f.name ++ ": " ++ f.type
  let signature := if parameters.isEmpty then "" else "*, " ++ ", ".intercalate parameters
  ["def " ++ name ++ "(" ++ signature ++ ") -> " ++ v.enumeration ++ ":",
    "    \"\"\"Build " ++ v.enumeration ++ "." ++ v.name ++ ".\"\"\"",
    "    return " ++ assembly v Descriptor.Field.name]

end Errata.Emission
