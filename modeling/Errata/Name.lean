import Errata.Unicode.LowerCase

/-!
# Names

The words of Python that cannot be used as names, those that are words of the language in some
places only, names that are kept for inherited members and for the generated code itself, and how
the name of a constructor is made from the name of a variant.
-/

/-! ## Keywords -/

namespace Errata

/-- The keywords of Python. -/
def keywords : List String :=
  ["False", "None", "True", "and", "as", "assert", "async", "await", "break", "class", "continue",
    "def", "del", "elif", "else", "except", "finally", "for", "from", "global", "if", "import",
    "in", "is", "lambda", "nonlocal", "not", "or", "pass", "raise", "return", "try", "while",
    "with", "yield"]

/-- The words that are keywords in some places only. -/
def softKeywords : List String :=
  ["_", "case", "match"]

/-- Whether the name is a keyword. -/
def isKeyword (name : String) : Bool :=
  keywords.contains name

end Errata

/-! ## Reserved names

Which names no declaration may use: those the language gives a meaning to, those that the classes
of errors inherit, and those that the generated code keeps for itself.
-/

namespace Errata

/-- Whether the language itself gives a meaning to the name: a keyword, the throwaway name, or a
name between double low lines. -/
def isReserved (name : String) : Bool :=
  isKeyword name || name == "_" || (name.startsWith "__" && name.endsWith "__")

/-- The members that the classes of errors inherit. -/
def inheritedMembers : List String :=
  ["cause", "provide", "variants", "args", "with_traceback", "add_note"]

/-- The members of errors and of selectors. -/
def inheritedFields : List String :=
  inheritedMembers ++ ["self", "bind", "cause_type", "shapes"]

/-- What the names of the generated code itself start with. -/
def generatedPrefix : String :=
  "_eg_"

end Errata

/-! ## Snake case

How the name of a constructor is made from the name of a variant: `CacheMiss` becomes `cache_miss`
and `IOError` becomes `io_error`.
-/

namespace Errata

/-- Whether the character is a small letter or a digit of the basic alphabet. -/
def isSmallOrDigit (c : Char) : Bool :=
  c.isLower || c.isDigit

/-- Whether a word starts between `before` and the characters after it: at a capital after a small
letter or a digit, and at a capital that follows a capital and precedes a small letter. -/
def isWordStart (before : Char) : List Char → Bool
  | [] => false
  | [c] => c.isUpper && isSmallOrDigit before
  | c :: d :: _ => c.isUpper && (isSmallOrDigit before || (before.isUpper && d.isLower))

/-- A name with a low line before every word but the first. -/
def splitWords : List Char → List Char
  | [] => []
  | c :: rest => if isWordStart c rest then c :: '_' :: splitWords rest else c :: splitWords rest

/-- The name with its words in small letters and joined by low lines. A name that would be a keyword
ends in a low line. -/
def snakeCase (name : String) : String :=
  let words := String.ofList (Unicode.lowerCase (splitWords name.toList))
  if isKeyword words || softKeywords.contains words then words ++ "_" else words

end Errata
