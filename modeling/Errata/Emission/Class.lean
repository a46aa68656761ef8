import Errata.Descriptor.Basic
import Errata.Diagnostic.Catalogue
import Errata.Text.Quoted

/-!
# Emitted classes

The classes of enumerations and of variants, and the messages that they render.

A compiled message is written as a string literal if nothing has to be filled in, and otherwise as a
template whose values are the arguments of a call.

## Main definitions

* `message`: the expression for a message.
* `enumerationClass`, `registration`: the class of an enumeration, and what makes its variants known
  to it.
* `Defect`: what descriptors that break the rules can do to the generator.
* `variantClass`: the class of a variant.
-/

namespace Errata.Emission

/-- Lines of generated code. -/
abbrev Lines := List String

/-- Lines indented by four blanks. Empty lines stay empty. -/
def indent (lines : Lines) : Lines :=
  lines.map fun line => if line = "" then "" else "    " ++ line

/-- Whether a template holds neither fields nor doubled braces. -/
def isPlain (template : Text) : Bool :=
  template.all fun c => c ≠ .char '{' && c ≠ .char '}'

/-- The expression for a message. -/
def message (m : Descriptor.Message) : String :=
  if m.arguments.isEmpty && isPlain m.template then m.template.quoted
  else
    m.template.quoted ++ ".format(" ++
      ", ".intercalate (m.arguments.map Descriptor.Argument.expression) ++ ")"

/-- The statements that give each field of a variant a local name. -/
def fieldBindings (v : Descriptor.Variant) : Lines :=
  v.fieldNames.map fun name => name ++ " = self." ++ name

end Errata.Emission

/-! ## Emitted enumerations

The class of an error enumeration. It renders what all its variants have in common: the error that
was wrapped and, for a top-level enumeration, the help texts of all errors in the chain.
-/

namespace Errata.Emission

/-- The method that renders an error of an enumeration. -/
def strMethod (isTopLevel : Bool) : Lines :=
  ["def __str__(self) -> str:",
    "    _eg_out: list[str] = []",
    "    self._eg_render(_eg_out)",
    "    _eg_cause = self.cause()",
    "    if _eg_cause is not None:",
    "        _eg_out.append(\"Caused by: \")",
    "        _eg_out.append(_eg_rt.render(_eg_cause))"] ++
  (if isTopLevel then
    ["    _eg_out.append(\"\\n\")",
      "    for _eg_error in _eg_rt.sources(self):",
      "        _eg_help = _eg_rt.request_value(_eg_rt.Help, _eg_error)",
      "        if _eg_help is not None:",
      "            _eg_out.append(_eg_rt.render(_eg_help))"]
  else []) ++
  ["    return \"\".join(_eg_out)"]

/-- The class of an enumeration. -/
def enumerationClass (e : Descriptor.Enumeration) : Lines :=
  ["class " ++ e.name ++ "(_eg_rt.ErrorEnum):",
    "    \"\"\"Error enumeration " ++ e.name ++ ".\"\"\"",
    ""] ++
  (if e.isTopLevel then ["    top_level = True", ""] else []) ++
  indent (strMethod e.isTopLevel)

/-- The statements that make the classes of the variants known to the class of the enumeration. -/
def registration (e : Descriptor.Enumeration) : Lines :=
  (e.variants.flatMap fun v =>
    [v.className ++ ".__qualname__ = \"" ++ e.name ++ "." ++ v.name ++ "\"",
      e.name ++ "." ++ v.name ++ " = " ++ v.className]) ++
  [e.name ++ ".variants = \x7b" ++
    ", ".intercalate (e.variants.map fun v => "\"" ++ v.name ++ "\": " ++ v.className) ++ "\x7d"]

end Errata.Emission

/-! ## Emitted variants

The class of a variant. Its constructor takes all fields by name; a place that is not given is
captured. The class renders the messages of the variant, and provides its help text on request.
-/

namespace Errata.Emission

/-- The forms of a failure that an error can be made from. -/
inductive Shape where
  /-- An error of the type that the variant wraps. -/
  | error
  /-- Any other error. -/
  | anyError
  /-- A missing value. -/
  | empty
deriving DecidableEq, Repr

/-- The name of a shape. -/
def Shape.name : Shape → String
  | error => "ERROR"
  | anyError => "ANY_ERROR"
  | empty => "EMPTY"

/-- Why no module can be generated. -/
inductive Defect where
  /-- A field has none of the three roles. -/
  | unknownRole (role field : String)
  /-- A variant can be made from a shape that has no name. -/
  | unknownShape (shape : Shape) (variant : String)
  /-- A variant has no message. -/
  | noMessage
deriving DecidableEq, Repr

/-- The diagnostic of a defect and the values of its parameters, if it has one. -/
def Defect.diagnostic? : Defect → Option (Code × List (String × String))
  | unknownRole role field => some (.unknownRole, [("role", role), ("field", field)])
  | unknownShape shape variant =>
    some (.unknownShape, [("shape", "Shape." ++ shape.name), ("variant", variant)])
  | noMessage => none

/-! ### The constructor -/

/-- The parameter of the constructor for a field, and the statements that set the field. -/
def parameter (f : Descriptor.Field) : Except Defect (String × Lines) :=
  let set := "    self." ++ f.name ++ " = " ++ f.name
  match f.role with
  | .selector => .ok (f.name ++ ": " ++ f.type, [set])
  | .source => .ok (f.name ++ ": " ++ f.type, [set, "    self.__cause__ = " ++ f.name])
  | .location =>
    .ok (f.name ++ ": " ++ f.type ++ " | None = None",
      [set ++ " if " ++ f.name ++ " is not None else _eg_rt.capture_location(1)"])
  | .other word => .error (.unknownRole word f.name)

/-- The constructor of the class of a variant with fields. -/
def initMethod (fields : List Descriptor.Field) : Except Defect Lines := do
  let parameters ← fields.mapM parameter
  return ["def __init__(self, *, " ++ ", ".intercalate (parameters.map Prod.fst) ++ ") -> None:",
      "    _eg_rt.ErrorEnum.__init__(self)"] ++ parameters.flatMap Prod.snd

/-! ### Rendering, cause and help -/

/-- The method that renders the messages of a variant. -/
def renderMethod (v : Descriptor.Variant) : Lines :=
  "def _eg_render(self, _eg_out: list[str]) -> None:" ::
    indent
      (fieldBindings v ++
        (v.messages.map fun m => "_eg_out.append(" ++ message m ++ ")") ++
        (if v.location?.isSome then ["_eg_out.append(\" (at \x7b\x7d)\".format(location))"]
          else []) ++
        ["_eg_out.append(\"\\n\")"])

/-- The method that gives the error that was wrapped. -/
def causeMethod : Lines :=
  ["def cause(self) -> BaseException | None:", "    return self.source"]

/-- The method that renders the help text of a variant. -/
def helpMethod (v : Descriptor.Variant) : Lines :=
  "def _eg_help(self) -> _eg_rt.Help:" ::
    indent
      (fieldBindings v ++ ["_eg_msg: list[str] = []"] ++
        (v.helps.flatMap fun m =>
          ["_eg_msg.append(\"Help: \")", "_eg_msg.append(" ++ message m ++ ")",
            "_eg_msg.append(\"\\n\")"]) ++
        ["return _eg_rt.Help(\"\".join(_eg_msg))"])

/-- The method that answers a request for help. -/
def provideMethod : Lines :=
  ["def provide(self, _eg_request: _eg_rt.Request) -> None:",
    "    _eg_request.provide_value_with(_eg_rt.Help, self._eg_help)"]

/-- The methods that a variant has only if it wraps an error or helps. -/
def extraMethods (v : Descriptor.Variant) : List Lines :=
  (if v.source?.isSome then [causeMethod] else []) ++
    (if v.helps.isEmpty then [] else [helpMethod v, provideMethod])

/-- The class of a variant. -/
def variantClass (v : Descriptor.Variant) : Except Defect Lines := do
  let first :: _ := v.messages | throw .noMessage
  let init ← if v.isUnit then pure [] else (fun lines => "" :: lines) <$> initMethod v.fields
  let heading := "class " ++ v.className ++ "(" ++ v.enumeration ++ "):"
  return [heading, "    " ++ first.literal.quoted] ++
      indent
        (init ++ "" :: renderMethod v ++ (extraMethods v).flatMap fun lines => "" :: lines)

end Errata.Emission
