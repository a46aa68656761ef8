import Errata.Error.Chain

/-!
# Rendering

Every value has a plain form and a written form. The plain form of a generated error tells the whole
story: its messages, the place where it was made, the plain form of its cause, and, if its
enumeration is top-level, the help texts of all errors in its chain. Its written form is the same.

The form of an object contains forms of the objects it refers to. Each object has two of them, so
that none can be contained in another more often than twice the number of objects, unless they
contain each other in a circle, and then there is no form. How many levels the stack of an
interpreter has room for is set apart.

What an expression in a message comes to, which forms values of other types have, and which forms an
error has whose class defines its own, is known to the interpreter alone.

## Main definitions

* `Request`, `Request.provide`: a request for a value, and what becomes of it after an offer.
* `Held`, `Held.take`, `Held.after`: a program that holds a request, and what it comes to when
  offers are made to the request.
* `Interpreter`: what is known to the interpreter alone.
* `plain`, `written`, `formatted`: the forms of values.
* `foreignPlain`, `foreignWritten`: the forms of errors that are not generated.
* `Store.text`: the forms of objects.
* `Store.helpOf`: the help text of an error.
* `Store.str`, `Store.repr`: the forms of values in a store.
-/

/-! ## Requests

Whoever handles an error may ask it for a value of some kind. Errors offer values; the first offer
of the kind that was asked for is kept. An offer may be lazy: its value is worked out only if it is
going to be kept.
-/

namespace Errata.Error

/-- A request for a value of a kind. -/
structure Request (κ α : Type) where
  /-- The kind asked for. -/
  kind : κ
  /-- The value that was kept. -/
  answer : Option α := none

/-- An offer of a value. The value of a lazy offer may fail to come. -/
inductive Offer (ε α : Type) where
  /-- A value. -/
  | value (a : α)
  /-- A value that is worked out when it is called for. -/
  | lazily (make : Unit → Except ε α)

namespace Request

variable {κ α ε : Type} [DecidableEq κ]

/-- Whether an offer of a kind would be kept. -/
def wants (r : Request κ α) (kind : κ) : Bool :=
  kind = r.kind && r.answer.isNone

/-- Whether an offer of a kind has to be worked out. -/
def calls (r : Request κ α) (kind : κ) : Offer ε α → Bool
  | .value _ => false
  | .lazily _ => r.wants kind

/-- The request after an offer. -/
def provide (r : Request κ α) (kind : κ) (offer : Offer ε α) : Except ε (Request κ α) :=
  if r.wants kind then
    match offer with
    | .value a => .ok { r with answer := some a }
    | .lazily make => (make ()).map fun a => { r with answer := some a }
  else
    .ok r

end Request

end Errata.Error

/-! ## Offers while a program runs

What becomes of a request when values are offered to it one after another. The value of a lazy offer
is worked out by the program: that may change the state of the program, and it may fail. A failure
ends the offer it comes from, and whoever made it goes on with the next one.
-/

namespace Errata.Error

variable {σ ε κ α : Type}

/-- Work of a program. It may change the state of the program, and it may fail. -/
abbrev Work (σ ε α : Type) :=
  ExceptT ε (StateM σ) α

/-- An offer of a value of a kind while a program runs. -/
inductive Bid (σ ε κ α : Type) where
  /-- A value. -/
  | value (kind : κ) (a : α)
  /-- A value that is worked out when it is called for. -/
  | lazily (kind : κ) (make : Work σ ε α)

namespace Bid

/-- The kind of what is offered. -/
def kind : Bid σ ε κ α → κ
  | .value kind _ => kind
  | .lazily kind _ => kind

/-- Whether the value has to be worked out. -/
def isLazy : Bid σ ε κ α → Bool
  | .value _ _ => false
  | .lazily _ _ => true

/-- How the value comes about. -/
def make : Bid σ ε κ α → Work σ ε α
  | .value _ a => pure a
  | .lazily _ make => make

/-- What is offered in a state of the program. -/
def offerIn (state : σ) : Bid σ ε κ α → Offer ε α
  | .value _ a => .value a
  | .lazily _ make => .lazily fun () => (make.run.run state).1

end Bid

/-- A program that holds a request. -/
structure Held (σ κ α : Type) where
  /-- The request. -/
  request : Request κ α
  /-- The state of the rest of the program. -/
  state : σ
  /-- How many values of lazy offers have been worked out, or would have been but for a failure. -/
  called : Nat := 0

namespace Held

/-- Work that has nothing to do with the request is done, and counted. -/
def call (make : Work σ ε α) : Work (Held σ κ α) ε α := fun held =>
  let (result, state) := make.run.run held.state
  (result, { held with state, called := held.called + 1 })

/-- A value is kept as the answer to the request. -/
def keep (a : α) : Work (Held σ κ α) ε Unit :=
  modify fun held => { held with request := { held.request with answer := some a } }

/-- What is offered is kept. The value of a lazy offer is worked out before anything is kept. -/
def accept : Bid σ ε κ α → Work (Held σ κ α) ε Unit
  | .value _ a => keep a
  | .lazily _ make => do
    let a ← call make
    keep a

/-- An offer is made to the request. -/
def take [DecidableEq κ] (bid : Bid σ ε κ α) : Work (Held σ κ α) ε Unit := do
  if (← get).request.wants bid.kind then
    accept bid

/-- The program after an offer, whether that failed or not. -/
def left [DecidableEq κ] (held : Held σ κ α) (bid : Bid σ ε κ α) : Held σ κ α :=
  ((take bid).run.run held).2

/-- The program after offers have been made one after another. -/
def takeAll [DecidableEq κ] (bids : List (Bid σ ε κ α)) (held : Held σ κ α) : Held σ κ α :=
  bids.foldl left held

/-- The program after it has asked for a kind, and offers have been made one after another. -/
def after [DecidableEq κ] (kind : κ) (start : σ) (bids : List (Bid σ ε κ α)) : Held σ κ α :=
  takeAll bids { request := { kind }, state := start }

end Held

end Errata.Error

/-! ## Rendering -/

namespace Errata.Error

/-- The two forms of an object. -/
inductive Form where
  /-- The form to be read. -/
  | plain
  /-- The form that shows what the object is. -/
  | written
deriving DecidableEq

/-- How the forms of objects are found. -/
abbrev Forms := Form → Ref → Except Failure Text

/-- What a message can see: the error itself, and the values of the fields of its variant. -/
structure Scope where
  /-- The error. -/
  self : Ref
  /-- The name of the class that the message belongs to. -/
  owner : String
  /-- The values of its fields. -/
  fields : List (String × Value)

/-- What is known to the interpreter that runs a generated module. -/
class Interpreter where
  /-- The form of a value of another type. -/
  formOf (form : Form) (type : String) (token : Nat) : Except Failure Text
  /-- A value of another type under a specification. -/
  formatOf (type : String) (token : Nat) (specification : Text) : Except Failure Text
  /-- What an expression comes to that is no name of a field and no constant: any code may stand in
  a message, and it sees what the message sees, the names of the module and the objects. -/
  evaluate (s : Store) (scope : Scope) (expression : String) : Except Failure Value
  /-- The form of an error that is not generated, if its class defines that form itself. -/
  ownForm? (s : Store) (form : Form) (r : Ref) : Option (Except Failure Text)

/-- An interpreter that knows of no names and of no classes but those of the language. -/
instance (priority := low) Interpreter.bare : Interpreter where
  formOf _ type _ := .ok (Text.ofString ("<" ++ type ++ " object>"))
  formatOf type _ specification :=
    if specification.isEmpty then .ok (Text.ofString ("<" ++ type ++ " object>"))
    else .error (.specificationFor type)
  evaluate _ scope name := .error (.undefinedName (privateName scope.owner name))
  ownForm? _ _ _ := none

variable [Interpreter]

/-! ### Forms of values -/

/-- The word for a truth value. -/
def truthWord (b : Bool) : Text :=
  Text.ofString (if b then "True" else "False")

/-- The written form of a place. -/
def Location.written (l : Location) : Text :=
  Text.ofString ("Location(filename=" ++ quoted l.file ++ ", lineno=" ++ toString l.line ++
    ", function=" ++ quoted l.function ++ ")")

/-- Texts with commas between them. -/
def commaSeparated (texts : List Text) : Text :=
  (Text.ofString ", ").intercalate texts

mutual

/-- The written form of a value. -/
def written (forms : Forms) : Value → Except Failure Text
  | .none => .ok (Text.ofString "None")
  | .bool b => .ok (truthWord b)
  | .int n => .ok (Text.ofString (toString n))
  | .text t => .ok (Text.ofChars (Quoted.encode t))
  | .list items => do
    let shown ← writtenAll forms items
    return Text.ofString "[" ++ commaSeparated shown ++ Text.ofString "]"
  | .location l => .ok l.written
  | .help t => .ok (Text.ofString "Help(" ++ Text.ofChars (Quoted.encode t) ++ Text.ofString ")")
  | .object r => forms .written r
  | .other type token => Interpreter.formOf .written type token

/-- The written forms of values. -/
def writtenAll (forms : Forms) : List Value → Except Failure (List Text)
  | [] => .ok []
  | v :: rest => do
    let shown ← written forms v
    let others ← writtenAll forms rest
    return shown :: others

end

/-- The plain form of a value. -/
def plain (forms : Forms) : Value → Except Failure Text
  | .text t => .ok t
  | .location l => .ok (Text.ofString (toString l))
  | .help t => .ok t
  | .object r => forms .plain r
  | .other type token => Interpreter.formOf .plain type token
  | v => written forms v

/-- A text with its characters outside ASCII written by their numbers. -/
def inAscii (text : Text) : Text :=
  text.flatMap fun c =>
    if c.toNat < 0x80 then [c] else Text.ofChars (Quoted.numeric c.toNat)

/-- A value under a specification. Of the values whose types are known, only strings, integers and
truth values have forms under specifications that are not empty. -/
def formatted (s : Store) (forms : Forms) (v : Value) (specification : Text) :
    Except Failure Text :=
  match v with
  | .other type token => Interpreter.formatOf type token specification
  | v =>
    if specification.isEmpty then plain forms v
    else
      match v with
      | .text t => (Format.formatText specification t).mapError .specification
      | .int n => (Format.formatInteger .integer specification n).mapError .specification
      | .bool b =>
        (Format.formatInteger .truth specification (if b then 1 else 0)).mapError .specification
      | v => .error (.specificationFor (s.definedTypeName v))

/-- A value that is converted first, under a specification. -/
def converted (s : Store) (forms : Forms) (v : Value) (conversion : Option Template.Conversion)
    (specification : Text) : Except Failure Text := do
  match conversion with
  | none => formatted s forms v specification
  | some conversion =>
    let text ←
      match conversion with
      | .plain => plain forms v
      | .written => written forms v
      | .ascii => (written forms v).map inAscii
    formatted s forms (.text text) specification

/-! ### Messages -/

/-- The value of an expression in a message. The names of the fields, of the error itself, and of
the constants stand for what the message sees; any other expression is left to the interpreter. -/
def Scope.value (s : Store) (scope : Scope) (expression : String) : Except Failure Value :=
  match scope.fields.lookup expression, expression with
  | some v, _ => .ok v
  | none, "self" => .ok (.object scope.self)
  | none, "None" => .ok .none
  | none, "True" => .ok (.bool true)
  | none, "False" => .ok (.bool false)
  | none, expression => Interpreter.evaluate s scope expression

/-- The text of a message. -/
def messageText (s : Store) (forms : Forms) (scope : Scope) (m : Descriptor.Message) :
    Except Failure Text := do
  let values ← m.arguments.mapM fun a => scope.value s a.expression
  Template.fill values .template (converted s forms) m.template

/-- What the messages of an error can see. -/
def scopeOf (s : Store) (r : Ref) (v : Descriptor.Variant) : Except Failure Scope := do
  let fields ← v.fieldNames.mapM fun name => do
    let value ← s.attributeOf (.object r) (privateName v.className name)
    return (name, value)
  return ⟨r, v.className, fields⟩

/-- The end of a line. -/
def lineEnd : Text := [.char '\n']

/-- The messages of an error, with the place where it was made. -/
def messageTexts (s : Store) (forms : Forms) (r : Ref) (v : Descriptor.Variant) :
    Except Failure Text := do
  let scope ← scopeOf s r v
  let shown ← v.messages.mapM (messageText s forms scope)
  let place ←
    match v.location?, scope.fields.lookup locationField with
    | some _, some value => do
      let place ← formatted s forms value []
      pure (Text.ofString " (at " ++ place ++ Text.ofString ")")
    | _, _ => pure []
  return shown.flatten ++ place ++ lineEnd

/-- The help text of an error of a variant. -/
def helpText (s : Store) (forms : Forms) (r : Ref) (v : Descriptor.Variant) :
    Except Failure Text := do
  let scope ← scopeOf s r v
  let shown ← v.helps.mapM fun m => do
    let text ← messageText s forms scope m
    return Text.ofString "Help: " ++ text ++ lineEnd
  return shown.flatten

/-- What errors can be asked for. -/
inductive Aid where
  /-- Help. -/
  | help
  /-- Anything else. -/
  | other (name : String)
deriving DecidableEq

/-- The answer of a value to a request. Variants that help offer their help text. -/
def provided (s : Store) (forms : Forms) (v : Value) (request : Request Aid Value) :
    Except Failure (Request Aid Value) :=
  match s.error? v with
  | some (r, { kind := .variant _ w, .. }) =>
    if w.helps.isEmpty then .ok request
    else request.provide .help (.lazily fun () => (helpText s forms r w).map .help)
  | _ => .ok request

/-- What a value answers when asked for a kind of aid. -/
def answered (s : Store) (forms : Forms) (aid : Aid) (v : Value) :
    Except Failure (Option Value) := do
  let request ← provided s forms v { kind := aid }
  return request.answer

/-- The help texts of the members of a chain. -/
def helpTexts (s : Store) (forms : Forms) (chain : Chain) : Except Failure Text := do
  let shown ← chain.members.mapM fun v => do
    match ← answered s forms .help v with
    | some help => plain forms help
    | none => return []
  match chain.failure with
  | some failure => throw failure
  | none => return shown.flatten

/-! ### Forms of objects -/

/-- How the errors of a class tell what they were made with. -/
inductive Manner where
  /-- By their arguments. -/
  | arguments
  /-- By the key that was looked for. -/
  | key
  /-- By the number, the wording and the files of an error of the system. -/
  | system
  /-- By a wording and a place in a file. -/
  | syntaxError
  /-- By a wording and the number of the errors in a group. -/
  | group
  /-- By the characters that cannot be encoded. -/
  | encoding
  /-- By the characters that cannot be translated. -/
  | translation
deriving DecidableEq

/-- The classes whose errors do not tell their arguments alone. -/
def manners : List (String × Manner) :=
  [("KeyError", .key), ("OSError", .system), ("SyntaxError", .syntaxError),
    ("BaseExceptionGroup", .group), ("UnicodeEncodeError", .encoding),
    ("UnicodeTranslateError", .translation)]

/-- How the errors of a class tell what they were made with. -/
def Class.manner : Class → Manner
  | foreign name =>
    let above := foreignAncestors name
    ((manners.find? fun row => row.1 ∈ above).map Prod.snd).getD .arguments
  | _ => .arguments

/-- Values as written, between parentheses. -/
def tupleText (forms : Forms) (vs : List Value) : Except Failure Text := do
  let shown ← writtenAll forms vs
  return Text.ofString "(" ++ commaSeparated shown ++ Text.ofString ")"

/-- The plain form of arguments: that of the only one, or all of them as written. -/
def argumentsText (forms : Forms) : List Value → Except Failure Text
  | [] => .ok []
  | [v] => plain forms v
  | vs => tupleText forms vs

/-- What an error of the system tells of the files among its arguments. The argument between the
files says nothing. -/
def filesText (forms : Forms) : List Value → Except Failure Text
  | file :: rest =>
    if file.isNone then .ok []
    else do
      let first ← written forms file
      match rest with
      | [_, other] =>
        if other.isNone then return Text.ofString ": " ++ first
        else do
          let second ← written forms other
          return Text.ofString ": " ++ first ++ Text.ofString " -> " ++ second
      | _ => return Text.ofString ": " ++ first
  | [] => .ok []

/-- The arguments of an error of the system that stand for files. The third argument of an operation
that would have to wait may be the number of characters that were written before. -/
def filesOf (kind : Class) (rest : List Value) : List Value :=
  if kind = .foreign "BlockingIOError" ∧ rest.head?.any Value.isNumber = true then [] else rest

/-- The plain form of an error of the system. -/
def systemText (forms : Forms) (kind : Class) : List Value → Except Failure Text
  | number :: wording :: rest =>
    if rest.length ≤ 3 then do
      let number ← plain forms number
      let wording ← plain forms wording
      let files ← filesText forms (filesOf kind rest)
      return Text.ofString "[Errno " ++ number ++ Text.ofString "] " ++ wording ++ files
    else tupleText forms (number :: wording :: rest)
  | vs => argumentsText forms vs

/-- The arguments that an error of the system keeps: those for files are kept elsewhere. -/
def systemArguments (kind : Class) : List Value → List Value
  | number :: wording :: rest =>
    if rest.length ≤ 3 ∧ (filesOf kind rest).head?.any (fun file => !file.isNone) = true then
      [number, wording]
    else number :: wording :: rest
  | vs => vs

/-- The place in a file that an error of syntax tells of. -/
def placeText (place : List Value) : Text :=
  let file := (place.head?.bind Value.text?).map fun path =>
    (path.reverse.takeWhile (· ≠ .char '/')).reverse
  let line := (place.tail.head?.bind Value.int?).map fun n => Text.ofString ("line " ++ toString n)
  let parts := file.toList ++ line.toList
  if parts.isEmpty then [] else Text.ofString " (" ++ commaSeparated parts ++ Text.ofString ")"

/-- The plain form of an error of syntax. -/
def syntaxText (forms : Forms) (vs : List Value) : Except Failure Text := do
  let wording ← plain forms (vs.head?.getD .none)
  return wording ++
    match vs with
    | [_, place] => placeText (place.items?.getD [])
    | _ => []

/-- The plain form of a group of errors. -/
def groupText (forms : Forms) : List Value → Except Failure Text
  | [wording, errors] => do
    let wording ← plain forms wording
    let count := (errors.items?.getD []).length
    return wording ++ Text.ofString (" (" ++ toString count ++ " sub-exception" ++
      (if count = 1 then "" else "s") ++ ")")
  | vs => argumentsText forms vs

/-- What is said of characters between two positions of a text that cannot be worked on. -/
def rangeText (fault : Text) (object : Text) (start stop : Int) (reason : Text) : Text :=
  let single := if stop = start + 1 then object[start.toNat]? else none
  let characters :=
    match single with
    | some p =>
      Text.ofString " character '" ++ Text.ofChars (Quoted.numeric p.toNat) ++
        Text.ofString ("' in position " ++ toString start)
    | none =>
      Text.ofString (" characters in position " ++ toString start ++ "-" ++ toString (stop - 1))
  fault ++ characters ++ Text.ofString ": " ++ reason

/-- The plain form of an error of encoding. -/
def encodingText (forms : Forms) (vs : List Value) : Except Failure Text :=
  match vs.map Value.text?, vs.map Value.int? with
  | [some encoding, some object, _, _, some reason], [_, _, some start, some stop, _] =>
    .ok (rangeText (Text.ofString "'" ++ encoding ++ Text.ofString "' codec can't encode") object
      start stop reason)
  | _, _ => argumentsText forms vs

/-- The plain form of an error of translation. -/
def translationText (forms : Forms) (vs : List Value) : Except Failure Text :=
  match vs.map Value.text?, vs.map Value.int? with
  | [some object, _, _, some reason], [_, some start, some stop, _] =>
    .ok (rangeText (Text.ofString "can't translate") object start stop reason)
  | _, _ => argumentsText forms vs

/-- The plain form of an error that is not generated. -/
def foreignPlain (forms : Forms) (kind : Class) (vs : List Value) : Except Failure Text :=
  match kind.manner, vs with
  | .key, [v] => written forms v
  | .arguments, vs | .key, vs => argumentsText forms vs
  | .system, vs => systemText forms kind vs
  | .syntaxError, vs => syntaxText forms vs
  | .group, vs => groupText forms vs
  | .encoding, vs => encodingText forms vs
  | .translation, vs => translationText forms vs

/-- The arguments that an error keeps of those it was made with. -/
def keptArguments (kind : Class) (vs : List Value) : List Value :=
  if kind.manner = .system then systemArguments kind vs else vs

/-- The written form of an error that is not generated. -/
def foreignWritten (forms : Forms) (kind : Class) (vs : List Value) : Except Failure Text := do
  let shown ← writtenAll forms (keptArguments kind vs)
  return Text.ofString (kind.definedName ++ "(") ++ commaSeparated shown ++ Text.ofString ")"

/-- The form of an error that is not generated. -/
def foreignText (s : Store) (forms : Forms) (form : Form) (r : Ref) (error : ErrorObject) :
    Except Failure Text :=
  match Interpreter.ownForm? s form r, form with
  | some text, _ => text
  | none, .plain => foreignPlain forms error.kind error.arguments
  | none, .written => foreignWritten forms error.kind error.arguments

/-- The written form of a selector. -/
def selectorText (forms : Forms) (x : Selector) : Except Failure Text := do
  let shown ← x.fields.mapM fun (name, value) => do
    let text ← written forms value
    return Text.ofString (name ++ "=") ++ text
  return Text.ofString (x.name ++ "(") ++ commaSeparated shown ++ Text.ofString ")"

/-- The form of an error of a variant. -/
def variantText (s : Store) (forms : Forms) (r : Ref) (error : ErrorObject)
    (e : Descriptor.Enumeration) (v : Descriptor.Variant) : Except Failure Text := do
  let shown ← messageTexts s forms r v
  let cause ← s.causeOf r error
  let causedBy ←
    if cause.isNone then pure []
    else do
      let text ← plain forms cause
      pure (Text.ofString "Caused by: " ++ text)
  let help ←
    if e.isTopLevel then do
      let texts ← helpTexts s forms (s.sources (.object r))
      pure (lineEnd ++ texts)
    else pure []
  return shown ++ causedBy ++ help

/-- The form of an object from the forms of the objects it contains. -/
def objectText (s : Store) (forms : Forms) (form : Form) (r : Ref) : Except Failure Text :=
  match s.get? r with
  | some (.error error) =>
    match error.kind with
    | .variant e v => variantText s forms r error e v
    | .enumeration e => .error (.unreachable e.name)
    | _ => foreignText s forms form r error
  | some (.selector x) => selectorText forms x
  | none => .ok []

namespace Store

/-- The forms of objects, containing others at most `depth` levels deep. -/
def formsUpTo (s : Store) : Nat → Forms
  | 0 => fun _ _ => .error .endless
  | depth + 1 => objectText s (s.formsUpTo depth)

/-- The forms of the objects in a store. One level more than there are forms is for references to
nothing. -/
def forms (s : Store) : Forms :=
  s.formsUpTo (2 * s.size + 1)

/-- The plain form of a value. How deeply an interpreter can nest calls is set apart. -/
def str (s : Store) (v : Value) : Except Failure Text :=
  plain s.forms v

/-- The written form of a value. -/
def repr (s : Store) (v : Value) : Except Failure Text :=
  written s.forms v

/-- What a value answers when asked for a kind of aid. -/
def request (s : Store) (aid : Aid) (v : Value) : Except Failure (Option Value) :=
  answered s s.forms aid v

end Store

end Errata.Error
