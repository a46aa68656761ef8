import Errata.Expression.Grammar
import Errata.Expression.Literal
import Errata.Expression.Token

/-!
# Recognising expressions

The recogniser tries patterns at tokens. It looks at tokens one by one, and the first look at a text
that is no token ends the attempt. Matches of some rules are remembered, so that no text is read
more than a few times.

## Main definitions

* `Reader`: what is remembered.
* `attempt`: tries a pattern at a token.
* `recognise`: the syntax tree of an expression, or the reason why there is none.
-/

namespace Errata.Expression

/-- Why an attempt ended. -/
inductive Halt where
  /-- A text that is no token was met. -/
  | atToken (reason : String)
  /-- A pattern complained. -/
  | complaint (reason : String)
deriving DecidableEq, Repr

/-- A match: the number of tokens before its end, and its parts. -/
structure Match where
  /-- The number of tokens before its end. -/
  stop : Nat
  /-- Its parts from left to right. -/
  parts : List Node

/-- What is known of the tokens looked at so far. -/
structure Reader where
  /-- The number of tokens looked at. -/
  seen : Nat := 0
  /-- What came of trying a rule at a token. -/
  remembered : List ((Rule × Nat) × Option Match) := []

/-- An attempt, which can end early. -/
abbrev Attempt (α : Type) :=
  ExceptT Halt (StateM Reader) α

/-- The reason that a bracket is not closed. -/
def neverClosed (bracket : Char) : String :=
  "'" ++ String.singleton bracket ++ "' was never closed"

/-- Looks at a token. -/
def look (tokens : Array Token) (i : Nat) : Attempt Lexeme := do
  modify fun r => { r with seen := max r.seen (i + 1) }
  match tokens[i]? with
  | none => return .atEnd
  | some t =>
    match t.lexeme with
    | .fault reason | .deferredFault reason => throw (.atToken reason)
    | .unclosed bracket _ => throw (.atToken (neverClosed bracket))
    | lexeme => return lexeme

/-- A match of one token that satisfies `p`. -/
def oneToken (tokens : Array Token) (i : Nat) (p : Lexeme → Bool) : Attempt (Option Match) := do
  return if p (← look tokens i) then some ⟨i + 1, []⟩ else none

/-- What is said of a number with too many digits. -/
def tooManyDigits (digits : Nat) : String :=
  "Exceeds the limit (" ++ toString Number.maxDigits ++
    " digits) for integer string conversion: value has " ++ toString digits ++
    " digits; use sys.set_int_max_str_digits() to increase the limit - " ++
    "Consider hexadecimal for huge integer literals to avoid decimal conversion limits."

/-- A match of one number, of which the value has to be computed. -/
def oneNumber (tokens : Array Token) (i : Nat) : Attempt (Option Match) := do
  match ← look tokens i with
  | .number => return some ⟨i + 1, []⟩
  | .longNumber digits => throw (.complaint (tooManyDigits digits))
  | _ => return none

/-- Whether the token is a name. -/
def isName : Lexeme → Bool
  | .name _ => true
  | _ => false

/-- Whether the token is a string. -/
def isString : Lexeme → Bool
  | .string _ _ => true
  | _ => false

/-- Whether the token is one of the given names. -/
def isOneOf (names : List String) : Lexeme → Bool
  | .name text => names.contains text
  | _ => false

/-- The strings side by side from a token on. -/
def stringsFrom (tokens : Array Token) (i : Nat) : List (List Char × List Char) :=
  (tokens.toList.drop i).map Token.lexeme |>.takeWhile isString |>.filterMap fun
    | .string letters body => some (letters, body)
    | _ => none

/-- A match of one or more strings side by side, all of them free of faults. -/
def allStrings (tokens : Array Token) (i : Nat) : Attempt (Option Match) := do
  let strings := stringsFrom tokens i
  let stop := i + strings.length
  discard (look tokens i)
  if strings.isEmpty then return none
  discard (look tokens stop)
  match Literal.faultOfAll? strings with
  | some reason => throw (.complaint reason)
  | none =>
    let kind := if strings.any fun (letters, _) => Literal.hasMark 'f' letters then Kind.formatted
      else .literal
    return some ⟨stop, [.node kind []]⟩

/-- Whether the last token before the given one is inside brackets. -/
def isInside (tokens : Array Token) (i : Nat) : Bool :=
  (tokens[i - 1]?).any fun t => t.depth > 0

/-- What a complaint says about a mistake with the given parts. -/
def Complaint.reason? (inBrackets : Bool) (parts : List Node) : Complaint → Option String
  | saying reason => some reason
  | inside reason => if inBrackets then some reason else none
  | crowded reason =>
    if (parts.filter fun n => !n.kind.isNamedArgument && n.kind ≠ .clause).length > 1 then
      some reason
    else none
  | naming before after => parts.head?.map fun n => before ++ n.kind.description ++ after
  | invalidTarget =>
    (parts.head?.bind Node.invalidTarget?).map fun kind => "cannot assign to " ++ kind.description

/-- Tries a pattern at a token. `again` says whether complaints are tried, and `fuel` bounds how
deep patterns nest. -/
def attempt (tokens : Array Token) (fuel : Nat) (again : Bool) (i : Nat) (p : Pattern) :
    Attempt (Option Match) :=
  match fuel with
  | 0 => return none
  | fuel + 1 => do
    let attempt := attempt tokens fuel
    match p with
    | .op text => oneToken tokens i (· == .op text)
    | .word text => oneToken tokens i (· == .keyword text)
    | .name => oneToken tokens i isName
    | .oneOf names => oneToken tokens i (isOneOf names)
    | .number => oneNumber tokens i
    | .string => oneToken tokens i isString
    | .strings => allStrings tokens i
    | .newline => oneToken tokens i (· == .newline)
    | .atEnd => oneToken tokens i (· == .atEnd)
    | .rule r =>
      match (← get).remembered.lookup (r, i) with
      | some result => return result
      | none =>
        let result ← attempt again i r.pattern
        if r.isRemembered then
          modify fun s => { s with remembered := ((r, i), result) :: s.remembered }
        return result
    | .seq [] => return some ⟨i, []⟩
    | .seq (p :: rest) =>
      let some first ← attempt again i p | return none
      let some more ← attempt again first.stop (.seq rest) | return none
      return some ⟨more.stop, first.parts ++ more.parts⟩
    | .choice [] => return none
    | .choice (p :: rest) =>
      match ← attempt again i p with
      | some found => return some found
      | none => attempt again i (.choice rest)
    | .optional p => return some ((← attempt again i p).getD ⟨i, []⟩)
    | .many p =>
      let some first ← attempt again i p | return some ⟨i, []⟩
      let some more ← attempt again first.stop (.many p) | return none
      return some ⟨more.stop, first.parts ++ more.parts⟩
    | .chain first next =>
      let some start ← attempt again i first | return none
      let some more ← attempt again start.stop (.many next) | return none
      return some ⟨more.stop, more.parts.foldl extend start.parts⟩
    | .ahead p => return (← attempt again i p).map fun _ => ⟨i, []⟩
    | .notAhead p =>
      match ← attempt again i p with
      | some _ => return none
      | none => return some ⟨i, []⟩
    | .unless names p =>
      let some found ← attempt again i p | return none
      if found.stop = i + 1 ∧ isOneOf names (← look tokens i) then return none
      return some found
    | .node kind p =>
      return (← attempt again i p).map fun found => ⟨found.stop, [.node kind found.parts]⟩
    | .again p => if again then attempt true i p else return none
    | .quiet p => attempt false i p
    | .holding kind p =>
      return (← attempt again i p).filter fun found => found.parts.any fun n => n.kind = kind
    | .complaint c p =>
      let some found ← attempt again i p | return none
      match c.reason? (isInside tokens found.stop) found.parts with
      | some reason => throw (.complaint reason)
      | none => return none
where
  /-- A node of a chain takes what was matched before as its first part. -/
  extend (before : List Node) : Node → List Node
    | .node kind parts => [.node kind (before ++ parts)]

/-- A bound on how deep patterns nest while a number of tokens is read. -/
def depthBound (count : Nat) : Nat :=
  200 * (count + 2)

/-- The reason that stands after the rest of the tokens has been looked at: a text that is no token
counts more than what stands before it, and so does a bracket that is open since an earlier line. -/
def reasonAfter (tokens : Array Token) (seen : Nat) (reason : String) : String :=
  let line := ((tokens[seen - 1]?).map Token.line).getD 0
  let decisive := (tokens.toList.drop seen).findSome? fun t =>
    match t.lexeme with
    | .fault found => some found
    | .unclosed bracket opened => if line > opened then some (neverClosed bracket) else none
    | _ => none
  decisive.getD reason

/-- Whether the tokens end with the first `seen` of them in the middle of a bracket. A string as the
last token leaves that open. -/
def endsInside (tokens : Array Token) (seen : Nat) : Bool :=
  match (tokens[seen]?).map Token.lexeme, (tokens[seen - 1]?).map Token.lexeme with
  | some (.unclosed _ _), some (.string _ (_ :: _)) => false
  | some (.unclosed _ _), _ => true
  | _, _ => false

/-- The reason if a pattern complains. -/
def complaintReason (tokens : Array Token) (seen : Nat) (reason : String) : String :=
  if endsInside tokens seen then reason else reasonAfter tokens seen reason

/-- The reason if no pattern complains: an indentation that was looked at last counts more than what
follows, anything else does not. -/
def plainReason (tokens : Array Token) (seen : Nat) (last : Option Token) : String :=
  match last.map Token.lexeme with
  | some .indent => "unexpected indent"
  | some .dedent => "unexpected unindent"
  | _ => reasonAfter tokens seen "invalid syntax"

/-- How the attempt to match the whole input ends, and what is known of the tokens then. -/
def finish (tokens : Array Token) (again : Bool) (r : Reader) :
    Except Halt (Option Match) × Reader :=
  ((attempt tokens (depthBound tokens.size) again 0 (.rule .input)).run).run r

/-- The syntax tree of the expression with the given tokens, or the reason why there is none. The
expression is read once more with complaints if it does not match. -/
def recognise (tokens : Array Token) : Except String (List Node) :=
  match finish tokens false {} with
  | (.error (.atToken reason), _) => .error reason
  | (.error (.complaint reason), r) => .error (complaintReason tokens r.seen reason)
  | (.ok (some found), _) => .ok found.parts
  | (.ok none, r) =>
    let last := tokens[r.seen - 1]?
    match finish tokens true { seen := r.seen } with
    | (.error (.atToken reason), _) => .error reason
    | (.error (.complaint reason), r) => .error (complaintReason tokens r.seen reason)
    | (.ok _, r) => .error (plainReason tokens r.seen last)

end Errata.Expression
