import Errata.Descriptor.Basic

/-!
# Classes of errors

An error belongs to a class. The classes that come with the language are known; each enumeration is
a class below that of ordinary errors, and each of its variants is a class below the enumeration. A
program may define more classes, wherever it likes: what is above them is a parameter. A variable
that stands for a class may also stand for something that looks like one: a union or a tuple of
classes, or nothing.

## Main definitions

* `Class`: a class of errors.
* `Hierarchy`: the classes that a program defines.
* `Class.ancestors`: the classes an error of a class belongs to.
* `privateName`: what a name stands for in the body of a class.
* `Kind`: what can stand where a class is expected.
* `Kind.admits?`: whether an error belongs to a kind, if the kind is one of errors at all.
-/

namespace Errata.Error

/-! ### The classes of the language -/

/-- The classes that come with the language below the class of all errors, each with a class above
it, which is listed before. One of them has two. -/
def foreignParents : List (String × String) :=
  [("BaseExceptionGroup", "BaseException"), ("Exception", "BaseException"),
    ("GeneratorExit", "BaseException"), ("KeyboardInterrupt", "BaseException"),
    ("SystemExit", "BaseException"), ("ArithmeticError", "Exception"),
    ("AssertionError", "Exception"), ("AttributeError", "Exception"),
    ("BufferError", "Exception"), ("EOFError", "Exception"), ("ImportError", "Exception"),
    ("LookupError", "Exception"), ("MemoryError", "Exception"), ("NameError", "Exception"),
    ("OSError", "Exception"), ("ReferenceError", "Exception"), ("RuntimeError", "Exception"),
    ("StopAsyncIteration", "Exception"), ("StopIteration", "Exception"),
    ("SyntaxError", "Exception"), ("SystemError", "Exception"), ("TypeError", "Exception"),
    ("ValueError", "Exception"), ("Warning", "Exception"),
    ("ExceptionGroup", "BaseExceptionGroup"), ("ExceptionGroup", "Exception"),
    ("FloatingPointError", "ArithmeticError"), ("OverflowError", "ArithmeticError"),
    ("ZeroDivisionError", "ArithmeticError"), ("BytesWarning", "Warning"),
    ("DeprecationWarning", "Warning"), ("EncodingWarning", "Warning"),
    ("FutureWarning", "Warning"), ("ImportWarning", "Warning"),
    ("PendingDeprecationWarning", "Warning"), ("ResourceWarning", "Warning"),
    ("RuntimeWarning", "Warning"), ("SyntaxWarning", "Warning"), ("UnicodeWarning", "Warning"),
    ("UserWarning", "Warning"), ("BlockingIOError", "OSError"), ("ChildProcessError", "OSError"),
    ("ConnectionError", "OSError"), ("FileExistsError", "OSError"),
    ("FileNotFoundError", "OSError"), ("InterruptedError", "OSError"),
    ("IsADirectoryError", "OSError"), ("NotADirectoryError", "OSError"),
    ("PermissionError", "OSError"), ("ProcessLookupError", "OSError"),
    ("TimeoutError", "OSError"), ("IndentationError", "SyntaxError"),
    ("IndexError", "LookupError"), ("KeyError", "LookupError"),
    ("ModuleNotFoundError", "ImportError"), ("NotImplementedError", "RuntimeError"),
    ("RecursionError", "RuntimeError"), ("UnboundLocalError", "NameError"),
    ("UnicodeError", "ValueError"), ("BrokenPipeError", "ConnectionError"),
    ("ConnectionAbortedError", "ConnectionError"), ("ConnectionRefusedError", "ConnectionError"),
    ("ConnectionResetError", "ConnectionError"), ("TabError", "IndentationError"),
    ("UnicodeDecodeError", "UnicodeError"), ("UnicodeEncodeError", "UnicodeError"),
    ("UnicodeTranslateError", "UnicodeError")]

/-- The classes that only the support code of generated modules knows, each with the class above
it. -/
def supportParents : List (String × String) :=
  [("UnreachableError", "RuntimeError"), ("FrozenInstanceError", "AttributeError")]

/-- Other names of classes. -/
def foreignAliases : List (String × String) :=
  [("EnvironmentError", "OSError"), ("IOError", "OSError")]

/-- The class of the language that a name stands for. -/
def foreignClass? (name : String) : Option String :=
  let name := (foreignAliases.lookup name).getD name
  if name = "BaseException" ∨ (foreignParents.lookup name).isSome then some name else none

/-- Whether a class comes with the language, or with the support code. -/
def isForeign (name : String) : Bool :=
  name = "BaseException" || ((foreignParents ++ supportParents).lookup name).isSome

/-- A name and the names above it. A class stands after those above it in the table, so that one
pass from the end finds them all. -/
def foreignAncestors (name : String) : List String :=
  (foreignParents ++ supportParents).foldr
    (fun (child, parent) found => if child ∈ found then found ++ [parent] else found) [name]

/-- A class of errors. -/
inductive Class where
  /-- A class that is not generated: one that comes with the language or with the support code, or
  one that a program defines. -/
  | foreign (name : String)
  /-- The class of the errors that selectors of no enumeration make. -/
  | wrapped
  /-- An enumeration. -/
  | enumeration (e : Descriptor.Enumeration)
  /-- A variant of an enumeration. -/
  | variant (e : Descriptor.Enumeration) (v : Descriptor.Variant)
deriving DecidableEq

namespace Class

/-- The class of ordinary errors. -/
def ordinary : Class :=
  foreign "Exception"

/-- The name of a class, with that of the enumeration for a variant. -/
def name : Class → String
  | foreign name => name
  | wrapped => "Wrapped"
  | enumeration e => e.name
  | variant e v => e.name ++ "." ++ v.name

/-- The name under which a class was first defined. -/
def definedName : Class → String
  | variant _ v => v.className
  | c => c.name

/-- Whether the errors of a class are generated. -/
def isGenerated : Class → Bool
  | enumeration _ | variant _ _ => true
  | _ => false

end Class

/-! ### Names in classes -/

/-- The name that a name inside the body of a class stands for. Names that start with two low lines
and do not end with two belong to the class alone. -/
def privateName (owner name : String) : String :=
  if name.startsWith "__" && !name.endsWith "__" then
    match owner.toList.dropWhile (· = '_') with
    | [] => name
    | stripped => "_" ++ String.ofList stripped ++ name
  else name

/-- A name that does not start with two low lines stands for itself. -/
theorem privateName_of_startsWith_eq_false {name : String} (h : name.startsWith "__" = false)
    (owner : String) : privateName owner name = name := by
  simp [privateName, h]

/-! ### Kinds -/

/-- What can stand where a class is expected. -/
inductive Kind where
  /-- A class of errors. -/
  | errors (c : Class)
  /-- A class of other values, or something of another module. -/
  | others (name : String)
  /-- The class of all values. -/
  | everything
  /-- Nothing. -/
  | nothing
  /-- A function, which is no class. -/
  | function (name : String)
  /-- A union of classes. -/
  | union (members : List Kind)
  /-- Several kinds, of which one is enough. -/
  | tuple (members : List Kind)

/-! ### Who belongs to what -/

/-- The classes that a program defines besides the generated ones, and what it imports. A class may
be put below any others. -/
class Hierarchy where
  /-- The classes above the class of errors with a name. -/
  above (name : String) : List Class
  /-- Whether an error of the class belongs to what a name of another module stands for, or `none`
  if that is no class. -/
  belongs? (c : Class) (name : String) : Option Bool

/-- A program that defines ordinary errors only. -/
instance (priority := low) Hierarchy.ordinary : Hierarchy where
  above _ := (foreignAncestors "Exception").map .foreign
  belongs? _ _ := some false

section

variable [Hierarchy]

namespace Class

/-- The class itself and the classes above it. -/
def ancestors : Class → List Class
  | foreign name =>
    if isForeign name then (foreignAncestors name).map foreign
    else foreign name :: Hierarchy.above name
  | wrapped => wrapped :: (foreignAncestors "Exception").map foreign
  | enumeration e => enumeration e :: (foreignAncestors "Exception").map foreign
  | variant e v =>
    variant e v :: enumeration e :: (foreignAncestors "Exception").map foreign

/-- Whether an error of the first class belongs to the second. -/
def belongsTo (c d : Class) : Bool :=
  c.ancestors.contains d

end Class

namespace Kind

mutual

/-- Whether an error of the class belongs to the kind, or `none` if that makes no sense. -/
def admits? (c : Class) : Kind → Option Bool
  | errors d => some (c.belongsTo d)
  | others name => Hierarchy.belongs? c name
  | everything => some true
  | nothing | function _ => none
  | union members => some (unionAdmits c members)
  | tuple members => anyAdmits? c members

/-- Whether an error of the class belongs to one of the members of a union. -/
def unionAdmits (c : Class) : List Kind → Bool
  | [] => false
  | k :: rest => (admits? c k).getD false || unionAdmits c rest

/-- Whether an error of the class belongs to one of the kinds. They are tried in order, and the
first that makes no sense is met only if none before it admits the error. -/
def anyAdmits? (c : Class) : List Kind → Option Bool
  | [] => some false
  | k :: rest =>
    match admits? c k with
    | some true => some true
    | some false => anyAdmits? c rest
    | none => none

end

end Kind

end

namespace Kind

/-- Whether the kind is nothing. -/
def isNothing : Kind → Bool
  | nothing => true
  | _ => false

/-- The name of a class, with the module it is defined in unless it comes with the language. -/
def fullName (home : String) : Class → String
  | .foreign name => name
  | c => home ++ "." ++ c.name

mutual

/-- The written form of a kind. `home` is the module of the generated classes. -/
def written (home : String) : Kind → String
  | errors c => "<class '" ++ fullName home c ++ "'>"
  | others name => "<class '" ++ name ++ "'>"
  | everything => "<class 'object'>"
  | nothing => "None"
  | function name => "<function " ++ name ++ ">"
  | union members => " | ".intercalate (unionNames home members)
  | tuple [k] => "(" ++ written home k ++ ",)"
  | tuple members => "(" ++ ", ".intercalate (writtenAll home members) ++ ")"

/-- The written forms of kinds. -/
def writtenAll (home : String) : List Kind → List String
  | [] => []
  | k :: rest => written home k :: writtenAll home rest

/-- The names of the members of a union. -/
def unionNames (home : String) : List Kind → List String
  | [] => []
  | errors c :: rest => fullName home c :: unionNames home rest
  | others name :: rest => name :: unionNames home rest
  | everything :: rest => "object" :: unionNames home rest
  | k :: rest => written home k :: unionNames home rest

end

/-- How a kind is named in messages: by its name, or by its written form if it has none. -/
def title (home : String) : Kind → String
  | errors c => c.name
  | others name => String.ofList (name.toList.reverse.takeWhile (· ≠ '.')).reverse
  | everything => "object"
  | function name => name
  | k => k.written home

end Kind

end Errata.Error
