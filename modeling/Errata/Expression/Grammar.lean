import Errata.Expression.Node
import Errata.Name

/-!
# The grammar of expressions

The grammar is a list of rules, each with a pattern that is tried at a token. Where a pattern has
alternatives the first that matches counts. Some patterns match only to complain: they describe
frequent mistakes, and are tried when an expression is read once more because it did not match.

In a placeholder neither a colon nor a closing brace can occur in an expression. Anonymous
functions, slices with bounds, assignments, dictionaries and sets can therefore not be completed.
The grammar leaves them out or ends them in a pattern that never matches.

## Main definitions

* `Pattern`: what is tried at a token.
* `Rule`: the rules.
* `Rule.pattern`: the pattern of a rule.
-/

namespace Errata.Expression

/-- The rules of the grammar. -/
inductive Rule where
  /-- A whole input. -/
  | input
  /-- One or more expressions with commas between them. -/
  | expressions
  /-- An expression. -/
  | expression
  /-- An expression, read without complaints. -/
  | quietExpression
  /-- An expression in a place where a name could be given to it. -/
  | valued
  /-- Operands joined by `or`. -/
  | disjunction
  /-- Operands joined by `and`. -/
  | conjunction
  /-- A negation or a comparison. -/
  | inversion
  /-- A comparison. -/
  | comparison
  /-- A bitwise or. -/
  | bitwiseOr
  /-- A bitwise exclusive or. -/
  | bitwiseXor
  /-- A bitwise and. -/
  | bitwiseAnd
  /-- A shift. -/
  | shift
  /-- A sum. -/
  | sum
  /-- A product. -/
  | term
  /-- A signed operand. -/
  | factor
  /-- A power. -/
  | power
  /-- An operand that may be awaited. -/
  | awaited
  /-- An operand with attributes, calls and subscripts. -/
  | primary
  /-- An operand. -/
  | atom
  /-- An operand that starts with a parenthesis. -/
  | parenthesized
  /-- A tuple in parentheses. -/
  | tuple
  /-- An expression in parentheses. -/
  | group
  /-- An operand that starts with a bracket. -/
  | bracketed
  /-- A list. -/
  | list
  /-- A list written as a comprehension. -/
  | listComprehension
  /-- The start of a dictionary or a set. -/
  | braced
  /-- The start of an anonymous function. -/
  | function
  /-- A generator in parentheses. -/
  | generator
  /-- What yields a value. -/
  | yielding
  /-- One or more expressions with commas between them, which may be starred. -/
  | starExpressions
  /-- An expression that may be starred. -/
  | starExpression
  /-- The elements of a list or of a tuple. -/
  | elements
  /-- An element. -/
  | element
  /-- The clauses of a comprehension. -/
  | clauses
  /-- A clause of a comprehension. -/
  | clause
  /-- A subscript. -/
  | subscript
  /-- The arguments of a call up to its closing parenthesis. -/
  | arguments
  /-- Arguments of a call. -/
  | argumentList
  /-- A positional argument. -/
  | positional
  /-- A named argument, or a starred one among them. -/
  | named
  /-- A named argument, or a doubly starred one among them. -/
  | namedTail
  /-- A starred expression. -/
  | starred
  /-- The targets of a comprehension. -/
  | targets
  /-- A target. -/
  | target
  /-- A target without a star. -/
  | plainTarget
  /-- A target that is a name or a list of targets. -/
  | atomTarget
  /-- An operand that goes on after the attribute or subscript that is a target. -/
  | targetPrimary
  /-- What an operand goes on with. -/
  | continuation
  /-- A mistake in an expression. -/
  | mistake
  /-- A mistake in the use of a statement as an expression. -/
  | statementMistake
  /-- A mistake in an expression in a place where a name could be given to it. -/
  | valuedMistake
  /-- A mistake in a named argument. -/
  | namedMistake
  /-- A mistake in the arguments of a call. -/
  | argumentMistake
  /-- A mistake in a comprehension. -/
  | comprehensionMistake
deriving DecidableEq, Repr

/-- What is said about a mistake, and when. -/
inductive Complaint where
  /-- A fixed reason. -/
  | saying (reason : String)
  /-- A fixed reason, given only if the last token of the mistake is inside brackets. -/
  | inside (reason : String)
  /-- A fixed reason, given only if the mistake has two or more positional arguments. -/
  | crowded (reason : String)
  /-- A reason that tells what the first part of the mistake is called. -/
  | naming (before after : String)
  /-- That the first part of the mistake cannot be assigned to, if that is so. -/
  | invalidTarget

/-- What is tried at a token. -/
inductive Pattern where
  /-- An operator or a delimiter. -/
  | op (text : String)
  /-- A keyword. -/
  | word (text : String)
  /-- A name. -/
  | name
  /-- One of the given names. -/
  | oneOf (names : List String)
  /-- A number. -/
  | number
  /-- A string. -/
  | string
  /-- Strings side by side. -/
  | strings
  /-- The end of a line. -/
  | newline
  /-- The end of the input. -/
  | atEnd
  /-- A rule. -/
  | rule (r : Rule)
  /-- Patterns one after the other. -/
  | seq (patterns : List Pattern)
  /-- The first of several patterns that matches. -/
  | choice (patterns : List Pattern)
  /-- A pattern or nothing. -/
  | optional (p : Pattern)
  /-- A pattern as often as it matches. -/
  | many (p : Pattern)
  /-- A pattern, and then another as often as it matches. Each time the node of the other one takes
  what was matched before as its first part. -/
  | chain (first next : Pattern)
  /-- A pattern that must match and takes no token. -/
  | ahead (p : Pattern)
  /-- A pattern that must not match and takes no token. -/
  | notAhead (p : Pattern)
  /-- A pattern, unless all that it matches is one of the given names. -/
  | unless (names : List String) (p : Pattern)
  /-- A pattern of which the matched parts make up a node. -/
  | node (kind : Kind) (p : Pattern)
  /-- A pattern that is tried when the expression is read once more. -/
  | again (p : Pattern)
  /-- A pattern in which no complaints are tried. -/
  | quiet (p : Pattern)
  /-- A pattern that matches only if one of its parts is a node of the given kind. -/
  | holding (kind : Kind) (p : Pattern)
  /-- A pattern that matches only to complain. -/
  | complaint (c : Complaint) (p : Pattern)

namespace Pattern

/-- A pattern that never matches. -/
def never : Pattern :=
  choice []

/-- A pattern at least once. -/
def oneOrMore (p : Pattern) : Pattern :=
  seq [p, many p]

/-- A pattern once or more often, with commas between. -/
def gather (p : Pattern) : Pattern :=
  seq [p, many (seq [op ",", p])]

/-- A pattern alone, or a tuple of two or more of it with commas between and possibly a comma
behind. A comma behind a single one makes a tuple as well. -/
def tupleOf (p : Pattern) : Pattern :=
  choice
    [node .tuple (seq [p, seq [op ",", p], many (seq [op ",", p]), optional (op ",")]),
      node .tuple (seq [p, op ","]), p]

/-- Operands of which two or more are joined to one node by the same operator. -/
def joined (operator : String) (operand : Rule) : Pattern :=
  choice
    [node .operation (seq [rule operand, oneOrMore (seq [word operator, rule operand])]),
      rule operand]

/-- Operands joined by operators from left to right. -/
def leftmost (operators : List String) (operand : Rule) : Pattern :=
  chain (rule operand) (node .operation (seq [choice (operators.map op), rule operand]))

/-- The operators of comparisons. -/
def comparator : Pattern :=
  choice
    [op "==", op "!=", op "<=", op "<", op ">=", op ">", seq [word "not", word "in"], word "in",
      seq [word "is", word "not"], word "is"]

/-- A comparison whose first operator is of one sort. -/
def comparisonBy (kind : Kind) (first : Pattern) : Pattern :=
  node kind
    (seq [rule .bitwiseOr, first, rule .bitwiseOr, many (seq [comparator, rule .bitwiseOr])])

/-- An attribute. -/
def selection : Pattern :=
  node .attributeOf (seq [op ".", name])

/-- A subscript in brackets. -/
def indexing : Pattern :=
  node .subscript (seq [op "[", rule .subscript, op "]"])

/-- A call with a generator as its only argument, or with arguments in parentheses. -/
def calls : List Pattern :=
  [node .call (rule .generator), node .call (seq [op "(", optional (rule .arguments), op ")"])]

/-- A choice between two values. -/
def conditional : Pattern :=
  node .conditional
    (seq [rule .disjunction, word "if", rule .disjunction, word "else", rule .expression])

/-- Words that stand for a value. -/
def constants : List Pattern :=
  [node .trueWord (word "True"), node .falseWord (word "False"), node .noneWord (word "None")]

/-- A mistake and what is said about it. -/
def wrong (reason : String) (patterns : List Pattern) : Pattern :=
  complaint (.saying reason) (seq patterns)

end Pattern

namespace Rule

open Pattern

/-- Whether a match of the rule is remembered. A remembered match is used again without looking
whether complaints were tried when it was found. -/
def isRemembered : Rule → Bool
  | expression | starExpression | disjunction | conjunction | inversion | bitwiseOr | bitwiseXor
  | bitwiseAnd | shift | sum | term | factor | awaited | primary | arguments | target | plainTarget
  | targetPrimary => true
  | _ => false

/-- A parameter of an anonymous function, with the comma after it. -/
def parameter : Pattern :=
  seq [name, optional (seq [op "=", rule expression]), op ","]

/-- The parameters of an anonymous function. -/
def parameters : Pattern :=
  seq
    [optional (seq [oneOrMore parameter, optional (seq [op "/", op ",", many parameter])]),
      optional (seq [op "*", optional name, op ",", many parameter]),
      optional (seq [op "**", name, op ","])]

/-- Named arguments, the doubly starred ones after the starred ones. -/
def namedArguments : Pattern :=
  choice
    [seq [gather (rule named), op ",", gather (rule namedTail)], gather (rule named),
      gather (rule namedTail)]

/-- The names that an expression with a missing comma may not start with: the words that are
keywords in some places only, and their beginnings. -/
def softKeywordStarts : List String :=
  softKeywords.flatMap fun word =>
    (List.range word.length).map fun n => String.ofList (word.toList.take (n + 1))

/-- What is said where one equals sign seems to stand for two. -/
def confusedEquals : String :=
  "invalid syntax. Maybe you meant '==' or ':=' instead of '='?"

/-- What is said where a generator is not the only argument of a call. -/
def bareGenerator : String :=
  "Generator expression must be parenthesized"

/-- What is said where the target of a comprehension has several parts. -/
def bareTarget : String :=
  "did you forget parentheses around the comprehension target?"

/-- The pattern of a rule. -/
def pattern : Rule → Pattern
  | input => seq [rule expressions, many newline, atEnd]
  | expressions => tupleOf (rule expression)
  | expression =>
    choice
      [again (rule mistake), again (rule statementMistake), conditional, rule disjunction,
        rule function]
  | quietExpression => quiet (choice [conditional, rule disjunction, rule function])
  | valued => choice [again (rule valuedMistake), rule expression]
  | disjunction => .joined "or" conjunction
  | conjunction => .joined "and" inversion
  | inversion => choice [node .operation (seq [word "not", rule inversion]), rule comparison]
  | comparison =>
    choice
      [comparisonBy .membership (word "in"), comparisonBy .comparison comparator, rule bitwiseOr]
  | bitwiseOr => leftmost ["|"] bitwiseXor
  | bitwiseXor => leftmost ["^"] bitwiseAnd
  | bitwiseAnd => leftmost ["&"] shift
  | shift => leftmost ["<<", ">>"] sum
  | sum => leftmost ["+", "-"] term
  | term => leftmost ["*", "/", "//", "%", "@"] factor
  | factor =>
    choice [node .operation (seq [choice [op "+", op "-", op "~"], rule factor]), rule power]
  | power =>
    choice [node .operation (seq [rule awaited, op "**", rule factor]), rule awaited]
  | awaited => choice [node .await (seq [word "await", rule primary]), rule primary]
  | primary => chain (rule atom) (choice (selection :: calls ++ [indexing]))
  | atom =>
    choice
      ([node .name name] ++ constants ++
        [strings, node .literal number, rule parenthesized, rule bracketed, rule braced,
          node .ellipsis (op "...")])
  | parenthesized => choice [rule tuple, rule group, rule generator]
  | tuple =>
    node .tuple
      (seq [op "(", optional (seq [rule element, op ",", optional (rule elements)]), op ")"])
  | group =>
    choice
      [seq [op "(", choice [rule yielding, rule valued], op ")"],
        again (wrong "cannot use starred expression here" [op "(", rule starred, op ")"]),
        again (wrong "cannot use double starred expression here"
          [op "(", op "**", rule expression, op ")"])]
  | bracketed => choice [rule list, rule listComprehension]
  | list => node .list (seq [op "[", optional (rule elements), op "]"])
  | listComprehension =>
    choice
      [node .listComprehension (seq [op "[", rule valued, rule clauses, op "]"]),
        again (rule comprehensionMistake)]
  | braced =>
    choice
      [seq [op "\x7b", gather (seq [op "**", rule bitwiseOr]), never],
        seq [op "\x7b", rule elements, never],
        seq [op "\x7b", rule valued, rule clauses, never],
        again (rule comprehensionMistake)]
  | function => seq [word "lambda", parameters, op ":", rule expression]
  | generator =>
    choice
      [node .generator (seq [op "(", rule expression, rule clauses, op ")"]),
        again (rule comprehensionMistake)]
  | yielding =>
    choice
      [node .yieldFrom (seq [word "yield", word "from", rule expression]),
        node .yieldValue (seq [word "yield", optional (rule starExpressions)])]
  | starExpressions => tupleOf (rule starExpression)
  | starExpression => choice [node .starred (seq [op "*", rule bitwiseOr]), rule expression]
  | elements => seq [gather (rule element), optional (op ",")]
  | element => choice [node .starred (seq [op "*", rule bitwiseOr]), rule valued]
  | clauses => oneOrMore (rule clause)
  | clause =>
    choice
      [node .clause (seq [optional (word "async"), word "for", rule targets, word "in",
          rule disjunction, many (seq [word "if", rule disjunction])]),
        again (seq
          [notAhead (seq [optional (word "async"), word "for", rule targets, word "in"]),
            complaint .invalidTarget
              (seq [optional (word "async"), word "for", rule starExpressions])])]
  | subscript =>
    choice
      [seq [rule valued, notAhead (op ",")],
        node .tuple (seq [gather (choice [rule valued, rule starred]), optional (op ",")])]
  | arguments =>
    choice
      [seq [rule argumentList, optional (op ","), ahead (op ")")],
        again (rule argumentMistake)]
  | argumentList =>
    choice
      [seq [gather (rule positional), optional (seq [op ",", namedArguments])], namedArguments]
  | positional => choice [rule starred, seq [rule expression, notAhead (op "=")]]
  | named =>
    choice
      [again (rule namedMistake), node .keyword (seq [name, op "=", rule expression]),
        rule starred]
  | namedTail =>
    choice
      [again (rule namedMistake), node .keyword (seq [name, op "=", rule expression]),
        node .unpacking (seq [op "**", rule expression])]
  | starred =>
    choice
      [node .starred (seq [op "*", rule expression]),
        wrong "Invalid star expression" [op "*"]]
  | targets =>
    choice
      [seq [rule target, notAhead (op ",")],
        node .tuple (seq [gather (rule target), optional (op ",")])]
  | target =>
    choice
      [node .starred (seq [op "*", notAhead (op "*"), rule target]), rule plainTarget]
  | plainTarget =>
    choice
      [seq [rule targetPrimary, selection, notAhead (rule continuation)],
        seq [rule targetPrimary, indexing, notAhead (rule continuation)], rule atomTarget]
  | atomTarget =>
    choice
      [node .name name, seq [op "(", rule plainTarget, op ")"],
        node .tuple (seq [op "(",
          optional (choice
            [seq [rule target, oneOrMore (seq [op ",", rule target]), optional (op ",")],
              seq [rule target, op ","]]), op ")"]),
        node .list (seq [op "[",
          optional (seq [gather (rule target), optional (op ",")]), op "]"])]
  | targetPrimary =>
    chain (seq [rule atom, ahead (rule continuation)])
      (choice ((selection :: calls ++ [indexing]).map fun p => seq [p, ahead (rule continuation)]))
  | continuation => choice [op "(", op "[", op "."]
  | mistake =>
    choice
      [seq
        [notAhead (choice [seq [name, string], oneOf softKeywordStarts]),
          ahead (seq [rule disjunction, rule quietExpression]),
          complaint (.inside "invalid syntax. Perhaps you forgot a comma?")
            (seq [.unless ["exec", "print"] (rule disjunction), rule quietExpression])],
        wrong "expected 'else' after 'if' expression"
          [rule disjunction, word "if", rule disjunction, notAhead (word "else")]]
  | statementMistake =>
    choice
      [wrong "Missing parentheses in call to 'print'. Did you mean print(...)?"
          [oneOf ["print"], notAhead (op "("), rule starExpressions],
        wrong "Missing parentheses in call to 'exec'. Did you mean exec(...)?"
          [oneOf ["exec"], notAhead (op "("), rule starExpressions],
        seq [name, notAhead (op "("), rule starExpressions, never]]
  | valuedMistake =>
    choice
      [seq [rule expression, never],
        wrong confusedEquals [name, op "=", rule bitwiseOr, notAhead (op "=")],
        seq
          [notAhead (choice ([rule list, rule tuple, rule generator] ++ constants)),
            complaint (.naming "cannot assign to " " here. Maybe you meant '==' instead of '='?")
              (seq [rule bitwiseOr, op "=", rule bitwiseOr, notAhead (op "=")])]]
  | namedMistake =>
    choice
      [complaint (.naming "cannot assign to " "") (seq [choice constants, op "="]),
        wrong confusedEquals [name, op "=", rule expression, rule clauses],
        wrong "expression cannot contain assignment, perhaps you meant \"==\"?"
          [notAhead (seq [name, op "="]), rule expression, op "="]]
  | argumentMistake =>
    choice
      [wrong "iterable argument unpacking follows keyword argument unpacking"
          [rule argumentList, op ",", op "*"],
        wrong bareGenerator
          [rule expression, rule clauses, op ",",
            optional (choice [rule argumentList, seq [rule expression, rule clauses]])],
        wrong confusedEquals [name, op "=", rule expression, rule clauses],
        complaint (.crowded bareGenerator) (seq [rule argumentList, rule clauses]),
        wrong bareGenerator [rule argumentList, op ",", rule expression, rule clauses],
        wrong "positional argument follows keyword argument unpacking"
          [.holding .unpacking (rule argumentList), op ",", rule argumentList],
        wrong "positional argument follows keyword argument"
          [rule argumentList, op ",", rule argumentList]]
  | comprehensionMistake =>
    choice
      [wrong "iterable unpacking cannot be used in comprehension"
          [choice [op "[", op "(", op "\x7b"], rule starred, rule clauses],
        wrong bareTarget
          [choice [op "[", op "\x7b"], rule element, op ",", rule elements, rule clauses],
        wrong bareTarget [choice [op "[", op "\x7b"], rule element, op ",", rule clauses]]

end Rule

end Errata.Expression
