import Errata.Message.Template

/-!
# Placeholders in message literals

A message literal names the values it shows inside braces: `cannot open {file}: {source!r:>10}`.
It is cut from left to right into segments, and the segments make up a template without names
(`cannot open {}: {!r:>10}`) and the list of arguments to fill it with.

* A doubled opening brace is text.
* A placeholder reaches from an opening brace to the first closing brace after it. What stands
  before its first colon is the argument; a trailing `!r`, `!s` or `!a` is a conversion.
* A placeholder that is followed by one more closing brace takes it along and leaves nothing.
* A placeholder without an argument is a fault in strict mode. Otherwise it is shown as it is.

The finished template is read once more as a template, and its first fault is reported.
-/

namespace Errata.Placeholder

/-- Why a literal is no message. Positions and lengths are those of the literal. -/
inductive Fault where
  /-- The placeholder at `offset` has no closing brace in the `length` characters to the end. -/
  | unterminated (offset length : Nat)
  /-- The placeholder at `offset` has no argument. -/
  | emptyArgument (offset length : Nat)
  /-- The finished template is malformed. -/
  | malformed (length : Nat) (cause : Template.Fault)
deriving DecidableEq, Repr

/-- The position of the offending text. -/
def Fault.offset : Fault → Nat
  | unterminated offset _ | emptyArgument offset _ => offset
  | malformed _ _ => 0

/-- The length of the offending text. -/
def Fault.length : Fault → Nat
  | unterminated _ length | emptyArgument _ length | malformed length _ => length

/-- What a placeholder shows. -/
structure Argument where
  /-- The argument as written. -/
  text : Text
  /-- The position of its first character in the literal. -/
  offset : Nat
deriving DecidableEq, Repr

/-- A part of a literal. -/
inductive Segment where
  /-- A code point that stands for itself. -/
  | plain (c : CodePoint)
  /-- A doubled opening brace. -/
  | brace
  /-- A placeholder that took a second closing brace along. -/
  | swallowed
  /-- A placeholder without an argument, shown as it is. -/
  | shown (format : Text)
  /-- A placeholder with its conversion and specification. -/
  | field (argument : Argument) (format : Text)
deriving DecidableEq, Repr

/-- What a segment adds to the template. -/
def Segment.template : Segment → Text
  | plain c => [c]
  | brace => [.char '{', .char '{']
  | swallowed => []
  | shown format => [.char '{', .char '{'] ++ format ++ [.char '}', .char '}']
  | field _ format => [.char '{'] ++ format ++ [.char '}']

/-- The argument a segment shows. -/
def Segment.argument? : Segment → Option Argument
  | field argument _ => some argument
  | _ => none

/-- Splits a list before and after its first occurrence of `x`. -/
def splitAtFirst {α : Type} [DecidableEq α] (x : α) : List α → Option (List α × List α)
  | [] => none
  | y :: rest =>
    if y = x then some ([], rest)
    else (splitAtFirst x rest).map fun (before, after) => (y :: before, after)

/-- The text after the first occurrence of an element is shorter than the whole. -/
theorem length_splitAtFirst_lt {α : Type} [DecidableEq α] {x : α} {l before after : List α}
    (h : splitAtFirst x l = some (before, after)) : after.length < l.length := by
  fun_induction splitAtFirst x l generalizing before <;> simp_all
  all_goals grind

/-- Whether the letter is one of the three conversions. -/
def isConversion (c : CodePoint) : Bool :=
  c == .char 'r' || c == .char 's' || c == .char 'a'

/-- Cuts the conversion off the end of an argument. One line break may follow the conversion, and is
dropped with it. -/
def splitConversion (argument : Text) : Text × Text :=
  match argument.reverse with
  | .char '\n' :: c :: .char '!' :: rest =>
    if isConversion c then (rest.reverse, [.char '!', c]) else (argument, [])
  | c :: .char '!' :: rest =>
    if isConversion c then (rest.reverse, [.char '!', c]) else (argument, [])
  | _ => (argument, [])

/-- The argument and the format of a placeholder from the text between its braces. The format is
the conversion followed by the specification with its colon. -/
def parts (inner : Text) : Text × Text :=
  let (written, spec) :=
    match splitAtFirst (.char ':') inner with
    | some (before, after) => (before, .char ':' :: after)
    | none => (inner, [])
  let (argument, conversion) := splitConversion written
  (argument, conversion ++ spec)

/-- The segments of a literal of which `offset` code points are already cut, or its first fault. -/
def segments (strict : Bool) (offset : Nat) : Text → Except Fault (List Segment)
  | [] => return []
  | .char '{' :: .char '{' :: rest => return .brace :: (← segments strict (offset + 2) rest)
  | .char '{' :: rest =>
    match h : splitAtFirst (.char '}') rest with
    | none => throw (.unterminated offset (rest.length + 1))
    | some (inner, after) =>
      have := length_splitAtFirst_lt h
      let next := offset + inner.length + 2
      if after.head? = some (.char '}') then
        return .swallowed :: (← segments strict (next + 1) after.tail)
      else
        match parts inner with
        | ([], format) =>
          if strict then throw (.emptyArgument offset (inner.length + 2))
          else return .shown format :: (← segments strict next after)
        | (argument, format) =>
          return .field ⟨argument, offset + 1⟩ format :: (← segments strict next after)
  | c :: rest => return .plain c :: (← segments strict (offset + 1) rest)
termination_by text => text.length
decreasing_by all_goals simp <;> omega

/-- A message literal made into a template and the arguments that fill it, in order. -/
structure Message where
  /-- The template. -/
  template : Text
  /-- The arguments. -/
  arguments : List Argument
deriving DecidableEq, Repr

/-- The message with the given segments. -/
def Message.ofSegments (parts : List Segment) : Message where
  template := parts.flatMap Segment.template
  arguments := parts.filterMap Segment.argument?

/-- Compiles a message literal. -/
def compile (strict : Bool) (literal : Text) : Except Fault Message := do
  let message := Message.ofSegments (← segments strict 0 literal)
  match Template.chunks message.template with
  | .ok _ => return message
  | .error cause => throw (.malformed literal.length cause)

end Errata.Placeholder
