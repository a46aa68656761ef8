import Errata.Syntax.Grammar

/-!
# The automaton of the grammar

The states of the bottom-up parser for the grammar. A state stands for what may have been read so
far. For the next terminal it says whether to shift the token and go to another state, or to
reduce by a production, given by its index; and after a reduction, where to go for the symbol
reduced to. A state accepts exactly the terminals it has an action for, and the scanner looks for
these alone.

Lookaheads of states that differ in nothing else are merged, so a state may reduce before a
terminal that the next state refuses.
-/

namespace Errata.Syntax

/-- A state of the automaton. -/
structure State where
  /-- Where to go when a token of the terminal is shifted. -/
  shifts : List (Terminal × Nat)
  /-- By which production to reduce, and before which terminals; `none` is the end of the input. -/
  reductions : List (Nat × List (Option Terminal))
  /-- Where to go after a reduction to the symbol. -/
  gotos : List (Nonterminal × Nat)
  /-- Whether the file may end here. -/
  accepting : Bool
deriving DecidableEq, Repr

/-- The states of the automaton; the first is the initial one. -/
def states : Array State :=
  #[
    -- state 0
    ⟨[(.importWord, 6), (.structWord, 12), (.unionWord, 13), (.enumWord, 11), (.fromWord, 7),
      (.visibility, 9), (.innerOpen, 15), (.outerOpen, 14)], [], [(.file, 1), (.item, 16),
      (.importStatement, 3), (.fromImport, 4), (.declaration, 5), (.declarationKind, 10),
      (.attribute, 17), (.items, 2), (.attributes, 8)], true⟩,
    -- state 1
    ⟨[], [], [], true⟩,
    -- state 2
    ⟨[(.importWord, 6), (.structWord, 12), (.unionWord, 13), (.enumWord, 11), (.fromWord, 7),
      (.visibility, 9), (.innerOpen, 15), (.outerOpen, 14)], [(0, [none])], [(.item, 18),
      (.importStatement, 3), (.fromImport, 4), (.declaration, 5), (.declarationKind, 10),
      (.attribute, 17), (.attributes, 8)], false⟩,
    -- state 3
    ⟨[], [(1, [none, some .importWord, some .structWord, some .unionWord, some .enumWord, some
      .fromWord, some .visibility, some .innerOpen, some .outerOpen])], [], false⟩,
    -- state 4
    ⟨[], [(2, [none, some .importWord, some .structWord, some .unionWord, some .enumWord, some
      .fromWord, some .visibility, some .innerOpen, some .outerOpen])], [], false⟩,
    -- state 5
    ⟨[], [(3, [none, some .importWord, some .structWord, some .unionWord, some .enumWord, some
      .fromWord, some .visibility, some .innerOpen, some .outerOpen])], [], false⟩,
    -- state 6
    ⟨[(.name, 20)], [], [(.dottedName, 19)], false⟩,
    -- state 7
    ⟨[(.name, 20), (.relative, 22)], [], [(.moduleRef, 21), (.dottedName, 23)], false⟩,
    -- state 8
    ⟨[(.structWord, 12), (.unionWord, 13), (.enumWord, 11), (.visibility, 24), (.innerOpen, 15),
      (.outerOpen, 14)], [], [(.declarationKind, 25), (.attribute, 26)], false⟩,
    -- state 9
    ⟨[(.structWord, 12), (.unionWord, 13), (.enumWord, 11)], [], [(.declarationKind, 27)], false⟩,
    -- state 10
    ⟨[(.name, 28)], [], [], false⟩,
    -- state 11
    ⟨[], [(27, [some .name])], [], false⟩,
    -- state 12
    ⟨[], [(28, [some .name])], [], false⟩,
    -- state 13
    ⟨[], [(29, [some .name])], [], false⟩,
    -- state 14
    ⟨[(.name, 31)], [], [(.metaForm, 29), (.attributePath, 30)], false⟩,
    -- state 15
    ⟨[(.name, 31)], [], [(.metaForm, 32), (.attributePath, 30)], false⟩,
    -- state 16
    ⟨[], [(91, [none, some .importWord, some .structWord, some .unionWord, some .enumWord, some
      .fromWord, some .visibility, some .innerOpen, some .outerOpen])], [], false⟩,
    -- state 17
    ⟨[], [(97, [some .name, some .string, some .structWord, some .unionWord, some .enumWord, some
      .visibility, some .innerOpen, some .outerOpen])], [], false⟩,
    -- state 18
    ⟨[], [(92, [none, some .importWord, some .structWord, some .unionWord, some .enumWord, some
      .fromWord, some .visibility, some .innerOpen, some .outerOpen])], [], false⟩,
    -- state 19
    ⟨[(.asWord, 33), (.semicolon, 34)], [(7, [none, some .importWord, some .structWord, some
      .unionWord, some .enumWord, some .fromWord, some .visibility, some .innerOpen, some
      .outerOpen])], [], false⟩,
    -- state 20
    ⟨[(.dot, 36)], [(22, [none, some .importWord, some .structWord, some .unionWord, some
      .enumWord, some .fromWord, some .visibility, some .innerOpen, some .asWord, some .outerOpen,
      some .comma, some .leftBracket, some .rightBrace, some .rightParen, some .rightBracket, some
      .semicolon, some .bar])], [(.moreComponents, 35)], false⟩,
    -- state 21
    ⟨[(.importWord, 37)], [], [], false⟩,
    -- state 22
    ⟨[(.name, 20)], [(18, [some .importWord])], [(.dottedName, 38)], false⟩,
    -- state 23
    ⟨[], [(17, [some .importWord])], [], false⟩,
    -- state 24
    ⟨[(.structWord, 12), (.unionWord, 13), (.enumWord, 11)], [], [(.declarationKind, 39)], false⟩,
    -- state 25
    ⟨[(.name, 40)], [], [], false⟩,
    -- state 26
    ⟨[], [(98, [some .name, some .string, some .structWord, some .unionWord, some .enumWord, some
      .visibility, some .innerOpen, some .outerOpen])], [], false⟩,
    -- state 27
    ⟨[(.name, 41)], [], [], false⟩,
    -- state 28
    ⟨[(.leftBrace, 46), (.leftParen, 47), (.semicolon, 45)], [], [(.declarationBody, 42),
      (.braceBody, 43), (.parenBody, 44)], false⟩,
    -- state 29
    ⟨[(.rightBracket, 48)], [], [], false⟩,
    -- state 30
    ⟨[(.equal, 49), (.leftParen, 50)], [(58, [some .comma, some .rightParen, some
      .rightBracket])], [], false⟩,
    -- state 31
    ⟨[(.pathSeparator, 52)], [(71, [some .comma, some .equal, some .leftParen, some .rightParen,
      some .rightBracket])], [(.moreSegments, 51)], false⟩,
    -- state 32
    ⟨[(.rightBracket, 53)], [], [], false⟩,
    -- state 33
    ⟨[(.name, 54)], [], [], false⟩,
    -- state 34
    ⟨[], [(6, [none, some .importWord, some .structWord, some .unionWord, some .enumWord, some
      .fromWord, some .visibility, some .innerOpen, some .outerOpen])], [], false⟩,
    -- state 35
    ⟨[(.dot, 55)], [(21, [none, some .importWord, some .structWord, some .unionWord, some
      .enumWord, some .fromWord, some .visibility, some .innerOpen, some .asWord, some .outerOpen,
      some .comma, some .leftBracket, some .rightBrace, some .rightParen, some .rightBracket, some
      .semicolon, some .bar])], [], false⟩,
    -- state 36
    ⟨[(.name, 56)], [], [], false⟩,
    -- state 37
    ⟨[(.name, 60), (.leftParen, 59)], [], [(.importNames, 57), (.importAlias, 58)], false⟩,
    -- state 38
    ⟨[], [(16, [some .importWord])], [], false⟩,
    -- state 39
    ⟨[(.name, 61)], [], [], false⟩,
    -- state 40
    ⟨[(.leftBrace, 46), (.leftParen, 47), (.semicolon, 45)], [], [(.declarationBody, 62),
      (.braceBody, 43), (.parenBody, 44)], false⟩,
    -- state 41
    ⟨[(.leftBrace, 46), (.leftParen, 47), (.semicolon, 45)], [], [(.declarationBody, 63),
      (.braceBody, 43), (.parenBody, 44)], false⟩,
    -- state 42
    ⟨[], [(26, [none, some .importWord, some .structWord, some .unionWord, some .enumWord, some
      .fromWord, some .visibility, some .innerOpen, some .outerOpen])], [], false⟩,
    -- state 43
    ⟨[], [(30, [none, some .importWord, some .structWord, some .unionWord, some .enumWord, some
      .fromWord, some .visibility, some .innerOpen, some .outerOpen])], [], false⟩,
    -- state 44
    ⟨[(.semicolon, 64)], [(32, [none, some .importWord, some .structWord, some .unionWord, some
      .enumWord, some .fromWord, some .visibility, some .innerOpen, some .outerOpen])], [],
      false⟩,
    -- state 45
    ⟨[], [(33, [none, some .importWord, some .structWord, some .unionWord, some .enumWord, some
      .fromWord, some .visibility, some .innerOpen, some .outerOpen])], [], false⟩,
    -- state 46
    ⟨[(.name, 69), (.innerOpen, 15), (.outerOpen, 14), (.comma, 66), (.rightBrace, 67)], [],
      [(.member, 65), (.attribute, 17), (.attributes, 68)], false⟩,
    -- state 47
    ⟨[(.name, 20), (.string, 77), (.innerOpen, 15), (.outerOpen, 14), (.comma, 71), (.rightParen,
      72)], [], [(.dottedName, 76), (.parenItem, 70), (.attribute, 17), (.typeExpr, 74),
      (.typeTerm, 75), (.attributes, 73)], false⟩,
    -- state 48
    ⟨[], [(56, [some .name, some .string, some .structWord, some .unionWord, some .enumWord, some
      .visibility, some .innerOpen, some .outerOpen])], [], false⟩,
    -- state 49
    ⟨[(.string, 79), (.number, 80)], [], [(.metaValue, 78)], false⟩,
    -- state 50
    ⟨[(.name, 31), (.string, 79), (.number, 80), (.comma, 82), (.rightParen, 83)], [],
      [(.metaForm, 84), (.metaItem, 81), (.metaValue, 85), (.attributePath, 30)], false⟩,
    -- state 51
    ⟨[(.pathSeparator, 86)], [(70, [some .comma, some .equal, some .leftParen, some .rightParen,
      some .rightBracket])], [], false⟩,
    -- state 52
    ⟨[(.name, 87)], [], [], false⟩,
    -- state 53
    ⟨[], [(57, [some .name, some .string, some .structWord, some .unionWord, some .enumWord, some
      .visibility, some .innerOpen, some .outerOpen])], [], false⟩,
    -- state 54
    ⟨[(.semicolon, 88)], [(5, [none, some .importWord, some .structWord, some .unionWord, some
      .enumWord, some .fromWord, some .visibility, some .innerOpen, some .outerOpen])], [],
      false⟩,
    -- state 55
    ⟨[(.name, 89)], [], [], false⟩,
    -- state 56
    ⟨[], [(95, [none, some .importWord, some .structWord, some .unionWord, some .enumWord, some
      .fromWord, some .visibility, some .innerOpen, some .asWord, some .outerOpen, some .comma,
      some .dot, some .leftBracket, some .rightBrace, some .rightParen, some .rightBracket, some
      .semicolon, some .bar])], [], false⟩,
    -- state 57
    ⟨[(.semicolon, 90)], [(9, [none, some .importWord, some .structWord, some .unionWord, some
      .enumWord, some .fromWord, some .visibility, some .innerOpen, some .outerOpen])], [],
      false⟩,
    -- state 58
    ⟨[(.comma, 92)], [(11, [none, some .importWord, some .structWord, some .unionWord, some
      .enumWord, some .fromWord, some .visibility, some .innerOpen, some .outerOpen, some
      .semicolon])], [(.moreAliases, 91)], false⟩,
    -- state 59
    ⟨[(.name, 60)], [], [(.importAlias, 93)], false⟩,
    -- state 60
    ⟨[(.asWord, 94)], [(20, [none, some .importWord, some .structWord, some .unionWord, some
      .enumWord, some .fromWord, some .visibility, some .innerOpen, some .outerOpen, some .comma,
      some .rightParen, some .semicolon])], [], false⟩,
    -- state 61
    ⟨[(.leftBrace, 46), (.leftParen, 47), (.semicolon, 45)], [], [(.declarationBody, 95),
      (.braceBody, 43), (.parenBody, 44)], false⟩,
    -- state 62
    ⟨[], [(24, [none, some .importWord, some .structWord, some .unionWord, some .enumWord, some
      .fromWord, some .visibility, some .innerOpen, some .outerOpen])], [], false⟩,
    -- state 63
    ⟨[], [(25, [none, some .importWord, some .structWord, some .unionWord, some .enumWord, some
      .fromWord, some .visibility, some .innerOpen, some .outerOpen])], [], false⟩,
    -- state 64
    ⟨[], [(31, [none, some .importWord, some .structWord, some .unionWord, some .enumWord, some
      .fromWord, some .visibility, some .innerOpen, some .outerOpen])], [], false⟩,
    -- state 65
    ⟨[(.comma, 97), (.rightBrace, 98)], [], [(.moreMembers, 96)], false⟩,
    -- state 66
    ⟨[(.rightBrace, 99)], [], [], false⟩,
    -- state 67
    ⟨[], [(39, [none, some .importWord, some .structWord, some .unionWord, some .enumWord, some
      .fromWord, some .visibility, some .innerOpen, some .outerOpen, some .comma, some
      .rightBrace])], [], false⟩,
    -- state 68
    ⟨[(.name, 100), (.innerOpen, 15), (.outerOpen, 14)], [], [(.attribute, 26)], false⟩,
    -- state 69
    ⟨[(.colon, 105), (.leftBrace, 46), (.leftParen, 47)], [(43, [some .comma, some .rightBrace])],
      [(.braceBody, 103), (.memberShape, 101), (.fieldType, 102), (.parenBody, 104)], false⟩,
    -- state 70
    ⟨[(.comma, 107), (.rightParen, 108)], [], [(.moreParenItems, 106)], false⟩,
    -- state 71
    ⟨[(.rightParen, 109)], [], [], false⟩,
    -- state 72
    ⟨[], [(53, [none, some .importWord, some .structWord, some .unionWord, some .enumWord, some
      .fromWord, some .visibility, some .innerOpen, some .outerOpen, some .comma, some
      .rightBrace, some .semicolon])], [], false⟩,
    -- state 73
    ⟨[(.name, 20), (.string, 77), (.innerOpen, 15), (.outerOpen, 14)], [], [(.dottedName, 76),
      (.attribute, 26), (.typeExpr, 110), (.typeTerm, 75)], false⟩,
    -- state 74
    ⟨[], [(55, [some .comma, some .rightParen])], [], false⟩,
    -- state 75
    ⟨[(.bar, 112)], [(73, [some .comma, some .rightBrace, some .rightParen, some .rightBracket])],
      [(.moreTerms, 111)], false⟩,
    -- state 76
    ⟨[(.leftBracket, 114)], [(75, [some .comma, some .rightBrace, some .rightParen, some
      .rightBracket, some .bar])], [(.typeArgs, 113)], false⟩,
    -- state 77
    ⟨[], [(76, [some .comma, some .rightBrace, some .rightParen, some .rightBracket, some .bar])],
      [], false⟩,
    -- state 78
    ⟨[], [(59, [some .comma, some .rightParen, some .rightBracket])], [], false⟩,
    -- state 79
    ⟨[], [(68, [some .comma, some .rightParen, some .rightBracket])], [], false⟩,
    -- state 80
    ⟨[], [(69, [some .comma, some .rightParen, some .rightBracket])], [], false⟩,
    -- state 81
    ⟨[(.comma, 116), (.rightParen, 117)], [], [(.moreMetaItems, 115)], false⟩,
    -- state 82
    ⟨[(.rightParen, 118)], [], [], false⟩,
    -- state 83
    ⟨[], [(65, [some .comma, some .rightParen, some .rightBracket])], [], false⟩,
    -- state 84
    ⟨[], [(66, [some .comma, some .rightParen])], [], false⟩,
    -- state 85
    ⟨[], [(67, [some .comma, some .rightParen])], [], false⟩,
    -- state 86
    ⟨[(.name, 119)], [], [], false⟩,
    -- state 87
    ⟨[], [(105, [some .pathSeparator, some .comma, some .equal, some .leftParen, some .rightParen,
      some .rightBracket])], [], false⟩,
    -- state 88
    ⟨[], [(4, [none, some .importWord, some .structWord, some .unionWord, some .enumWord, some
      .fromWord, some .visibility, some .innerOpen, some .outerOpen])], [], false⟩,
    -- state 89
    ⟨[], [(96, [none, some .importWord, some .structWord, some .unionWord, some .enumWord, some
      .fromWord, some .visibility, some .innerOpen, some .asWord, some .outerOpen, some .comma,
      some .dot, some .leftBracket, some .rightBrace, some .rightParen, some .rightBracket, some
      .semicolon, some .bar])], [], false⟩,
    -- state 90
    ⟨[], [(8, [none, some .importWord, some .structWord, some .unionWord, some .enumWord, some
      .fromWord, some .visibility, some .innerOpen, some .outerOpen])], [], false⟩,
    -- state 91
    ⟨[(.comma, 120)], [(10, [none, some .importWord, some .structWord, some .unionWord, some
      .enumWord, some .fromWord, some .visibility, some .innerOpen, some .outerOpen, some
      .semicolon])], [], false⟩,
    -- state 92
    ⟨[(.name, 60)], [], [(.importAlias, 121)], false⟩,
    -- state 93
    ⟨[(.comma, 123), (.rightParen, 124)], [], [(.moreAliases, 122)], false⟩,
    -- state 94
    ⟨[(.name, 125)], [], [], false⟩,
    -- state 95
    ⟨[], [(23, [none, some .importWord, some .structWord, some .unionWord, some .enumWord, some
      .fromWord, some .visibility, some .innerOpen, some .outerOpen])], [], false⟩,
    -- state 96
    ⟨[(.comma, 126), (.rightBrace, 127)], [], [], false⟩,
    -- state 97
    ⟨[(.name, 69), (.innerOpen, 15), (.outerOpen, 14), (.rightBrace, 128)], [], [(.member, 129),
      (.attribute, 17), (.attributes, 68)], false⟩,
    -- state 98
    ⟨[], [(37, [none, some .importWord, some .structWord, some .unionWord, some .enumWord, some
      .fromWord, some .visibility, some .innerOpen, some .outerOpen, some .comma, some
      .rightBrace])], [], false⟩,
    -- state 99
    ⟨[], [(38, [none, some .importWord, some .structWord, some .unionWord, some .enumWord, some
      .fromWord, some .visibility, some .innerOpen, some .outerOpen, some .comma, some
      .rightBrace])], [], false⟩,
    -- state 100
    ⟨[(.colon, 105), (.leftBrace, 46), (.leftParen, 47)], [(41, [some .comma, some .rightBrace])],
      [(.braceBody, 103), (.memberShape, 130), (.fieldType, 102), (.parenBody, 104)], false⟩,
    -- state 101
    ⟨[], [(42, [some .comma, some .rightBrace])], [], false⟩,
    -- state 102
    ⟨[], [(44, [some .comma, some .rightBrace])], [], false⟩,
    -- state 103
    ⟨[], [(45, [some .comma, some .rightBrace])], [], false⟩,
    -- state 104
    ⟨[], [(46, [some .comma, some .rightBrace])], [], false⟩,
    -- state 105
    ⟨[(.name, 20), (.string, 77)], [], [(.dottedName, 76), (.typeExpr, 131), (.typeTerm, 75)],
      false⟩,
    -- state 106
    ⟨[(.comma, 132), (.rightParen, 133)], [], [], false⟩,
    -- state 107
    ⟨[(.name, 20), (.string, 77), (.innerOpen, 15), (.outerOpen, 14), (.rightParen, 134)], [],
      [(.dottedName, 76), (.parenItem, 135), (.attribute, 17), (.typeExpr, 74), (.typeTerm, 75),
      (.attributes, 73)], false⟩,
    -- state 108
    ⟨[], [(51, [none, some .importWord, some .structWord, some .unionWord, some .enumWord, some
      .fromWord, some .visibility, some .innerOpen, some .outerOpen, some .comma, some
      .rightBrace, some .semicolon])], [], false⟩,
    -- state 109
    ⟨[], [(52, [none, some .importWord, some .structWord, some .unionWord, some .enumWord, some
      .fromWord, some .visibility, some .innerOpen, some .outerOpen, some .comma, some
      .rightBrace, some .semicolon])], [], false⟩,
    -- state 110
    ⟨[], [(54, [some .comma, some .rightParen])], [], false⟩,
    -- state 111
    ⟨[(.bar, 136)], [(72, [some .comma, some .rightBrace, some .rightParen, some .rightBracket])],
      [], false⟩,
    -- state 112
    ⟨[(.name, 20), (.string, 77)], [], [(.dottedName, 76), (.typeTerm, 137)], false⟩,
    -- state 113
    ⟨[], [(74, [some .comma, some .rightBrace, some .rightParen, some .rightBracket, some .bar])],
      [], false⟩,
    -- state 114
    ⟨[(.name, 20), (.string, 77), (.ellipsis, 142), (.comma, 139), (.leftBracket, 143),
      (.rightBracket, 140)], [], [(.dottedName, 76), (.typeExpr, 141), (.typeTerm, 75), (.typeArg,
      138)], false⟩,
    -- state 115
    ⟨[(.comma, 144), (.rightParen, 145)], [], [], false⟩,
    -- state 116
    ⟨[(.name, 31), (.string, 79), (.number, 80), (.rightParen, 146)], [], [(.metaForm, 84),
      (.metaItem, 147), (.metaValue, 85), (.attributePath, 30)], false⟩,
    -- state 117
    ⟨[], [(63, [some .comma, some .rightParen, some .rightBracket])], [], false⟩,
    -- state 118
    ⟨[], [(64, [some .comma, some .rightParen, some .rightBracket])], [], false⟩,
    -- state 119
    ⟨[], [(106, [some .pathSeparator, some .comma, some .equal, some .leftParen, some .rightParen,
      some .rightBracket])], [], false⟩,
    -- state 120
    ⟨[(.name, 60)], [], [(.importAlias, 148)], false⟩,
    -- state 121
    ⟨[], [(93, [none, some .importWord, some .structWord, some .unionWord, some .enumWord, some
      .fromWord, some .visibility, some .innerOpen, some .outerOpen, some .comma, some
      .rightParen, some .semicolon])], [], false⟩,
    -- state 122
    ⟨[(.comma, 149), (.rightParen, 150)], [], [], false⟩,
    -- state 123
    ⟨[(.name, 60), (.rightParen, 151)], [], [(.importAlias, 121)], false⟩,
    -- state 124
    ⟨[], [(15, [none, some .importWord, some .structWord, some .unionWord, some .enumWord, some
      .fromWord, some .visibility, some .innerOpen, some .outerOpen, some .semicolon])], [],
      false⟩,
    -- state 125
    ⟨[], [(19, [none, some .importWord, some .structWord, some .unionWord, some .enumWord, some
      .fromWord, some .visibility, some .innerOpen, some .outerOpen, some .comma, some
      .rightParen, some .semicolon])], [], false⟩,
    -- state 126
    ⟨[(.name, 69), (.innerOpen, 15), (.outerOpen, 14), (.rightBrace, 152)], [], [(.member, 153),
      (.attribute, 17), (.attributes, 68)], false⟩,
    -- state 127
    ⟨[], [(35, [none, some .importWord, some .structWord, some .unionWord, some .enumWord, some
      .fromWord, some .visibility, some .innerOpen, some .outerOpen, some .comma, some
      .rightBrace])], [], false⟩,
    -- state 128
    ⟨[], [(36, [none, some .importWord, some .structWord, some .unionWord, some .enumWord, some
      .fromWord, some .visibility, some .innerOpen, some .outerOpen, some .comma, some
      .rightBrace])], [], false⟩,
    -- state 129
    ⟨[], [(99, [some .comma, some .rightBrace])], [], false⟩,
    -- state 130
    ⟨[], [(40, [some .comma, some .rightBrace])], [], false⟩,
    -- state 131
    ⟨[], [(47, [some .comma, some .rightBrace])], [], false⟩,
    -- state 132
    ⟨[(.name, 20), (.string, 77), (.innerOpen, 15), (.outerOpen, 14), (.rightParen, 154)], [],
      [(.dottedName, 76), (.parenItem, 155), (.attribute, 17), (.typeExpr, 74), (.typeTerm, 75),
      (.attributes, 73)], false⟩,
    -- state 133
    ⟨[], [(49, [none, some .importWord, some .structWord, some .unionWord, some .enumWord, some
      .fromWord, some .visibility, some .innerOpen, some .outerOpen, some .comma, some
      .rightBrace, some .semicolon])], [], false⟩,
    -- state 134
    ⟨[], [(50, [none, some .importWord, some .structWord, some .unionWord, some .enumWord, some
      .fromWord, some .visibility, some .innerOpen, some .outerOpen, some .comma, some
      .rightBrace, some .semicolon])], [], false⟩,
    -- state 135
    ⟨[], [(101, [some .comma, some .rightParen])], [], false⟩,
    -- state 136
    ⟨[(.name, 20), (.string, 77)], [], [(.dottedName, 76), (.typeTerm, 156)], false⟩,
    -- state 137
    ⟨[], [(107, [some .comma, some .rightBrace, some .rightParen, some .rightBracket, some
      .bar])], [], false⟩,
    -- state 138
    ⟨[(.comma, 158), (.rightBracket, 159)], [], [(.moreTypeArgs, 157)], false⟩,
    -- state 139
    ⟨[(.rightBracket, 160)], [], [], false⟩,
    -- state 140
    ⟨[], [(82, [some .comma, some .rightBrace, some .rightParen, some .rightBracket, some .bar])],
      [], false⟩,
    -- state 141
    ⟨[], [(83, [some .comma, some .rightBracket])], [], false⟩,
    -- state 142
    ⟨[], [(84, [some .comma, some .rightBracket])], [], false⟩,
    -- state 143
    ⟨[(.name, 20), (.string, 77), (.comma, 162), (.rightBracket, 163)], [], [(.dottedName, 76),
      (.typeExpr, 161), (.typeTerm, 75)], false⟩,
    -- state 144
    ⟨[(.name, 31), (.string, 79), (.number, 80), (.rightParen, 164)], [], [(.metaForm, 84),
      (.metaItem, 165), (.metaValue, 85), (.attributePath, 30)], false⟩,
    -- state 145
    ⟨[], [(61, [some .comma, some .rightParen, some .rightBracket])], [], false⟩,
    -- state 146
    ⟨[], [(62, [some .comma, some .rightParen, some .rightBracket])], [], false⟩,
    -- state 147
    ⟨[], [(103, [some .comma, some .rightParen])], [], false⟩,
    -- state 148
    ⟨[], [(94, [none, some .importWord, some .structWord, some .unionWord, some .enumWord, some
      .fromWord, some .visibility, some .innerOpen, some .outerOpen, some .comma, some
      .rightParen, some .semicolon])], [], false⟩,
    -- state 149
    ⟨[(.name, 60), (.rightParen, 166)], [], [(.importAlias, 148)], false⟩,
    -- state 150
    ⟨[], [(13, [none, some .importWord, some .structWord, some .unionWord, some .enumWord, some
      .fromWord, some .visibility, some .innerOpen, some .outerOpen, some .semicolon])], [],
      false⟩,
    -- state 151
    ⟨[], [(14, [none, some .importWord, some .structWord, some .unionWord, some .enumWord, some
      .fromWord, some .visibility, some .innerOpen, some .outerOpen, some .semicolon])], [],
      false⟩,
    -- state 152
    ⟨[], [(34, [none, some .importWord, some .structWord, some .unionWord, some .enumWord, some
      .fromWord, some .visibility, some .innerOpen, some .outerOpen, some .comma, some
      .rightBrace])], [], false⟩,
    -- state 153
    ⟨[], [(100, [some .comma, some .rightBrace])], [], false⟩,
    -- state 154
    ⟨[], [(48, [none, some .importWord, some .structWord, some .unionWord, some .enumWord, some
      .fromWord, some .visibility, some .innerOpen, some .outerOpen, some .comma, some
      .rightBrace, some .semicolon])], [], false⟩,
    -- state 155
    ⟨[], [(102, [some .comma, some .rightParen])], [], false⟩,
    -- state 156
    ⟨[], [(108, [some .comma, some .rightBrace, some .rightParen, some .rightBracket, some
      .bar])], [], false⟩,
    -- state 157
    ⟨[(.comma, 167), (.rightBracket, 168)], [], [], false⟩,
    -- state 158
    ⟨[(.name, 20), (.string, 77), (.ellipsis, 142), (.leftBracket, 143), (.rightBracket, 169)],
      [], [(.dottedName, 76), (.typeExpr, 141), (.typeTerm, 75), (.typeArg, 170)], false⟩,
    -- state 159
    ⟨[], [(80, [some .comma, some .rightBrace, some .rightParen, some .rightBracket, some .bar])],
      [], false⟩,
    -- state 160
    ⟨[], [(81, [some .comma, some .rightBrace, some .rightParen, some .rightBracket, some .bar])],
      [], false⟩,
    -- state 161
    ⟨[(.comma, 172), (.rightBracket, 173)], [], [(.moreTypes, 171)], false⟩,
    -- state 162
    ⟨[(.rightBracket, 174)], [], [], false⟩,
    -- state 163
    ⟨[], [(90, [some .comma, some .rightBracket])], [], false⟩,
    -- state 164
    ⟨[], [(60, [some .comma, some .rightParen, some .rightBracket])], [], false⟩,
    -- state 165
    ⟨[], [(104, [some .comma, some .rightParen])], [], false⟩,
    -- state 166
    ⟨[], [(12, [none, some .importWord, some .structWord, some .unionWord, some .enumWord, some
      .fromWord, some .visibility, some .innerOpen, some .outerOpen, some .semicolon])], [],
      false⟩,
    -- state 167
    ⟨[(.name, 20), (.string, 77), (.ellipsis, 142), (.leftBracket, 143), (.rightBracket, 175)],
      [], [(.dottedName, 76), (.typeExpr, 141), (.typeTerm, 75), (.typeArg, 176)], false⟩,
    -- state 168
    ⟨[], [(78, [some .comma, some .rightBrace, some .rightParen, some .rightBracket, some .bar])],
      [], false⟩,
    -- state 169
    ⟨[], [(79, [some .comma, some .rightBrace, some .rightParen, some .rightBracket, some .bar])],
      [], false⟩,
    -- state 170
    ⟨[], [(109, [some .comma, some .rightBracket])], [], false⟩,
    -- state 171
    ⟨[(.comma, 177), (.rightBracket, 178)], [], [], false⟩,
    -- state 172
    ⟨[(.name, 20), (.string, 77), (.rightBracket, 179)], [], [(.dottedName, 76), (.typeExpr, 180),
      (.typeTerm, 75)], false⟩,
    -- state 173
    ⟨[], [(88, [some .comma, some .rightBracket])], [], false⟩,
    -- state 174
    ⟨[], [(89, [some .comma, some .rightBracket])], [], false⟩,
    -- state 175
    ⟨[], [(77, [some .comma, some .rightBrace, some .rightParen, some .rightBracket, some .bar])],
      [], false⟩,
    -- state 176
    ⟨[], [(110, [some .comma, some .rightBracket])], [], false⟩,
    -- state 177
    ⟨[(.name, 20), (.string, 77), (.rightBracket, 181)], [], [(.dottedName, 76), (.typeExpr, 182),
      (.typeTerm, 75)], false⟩,
    -- state 178
    ⟨[], [(86, [some .comma, some .rightBracket])], [], false⟩,
    -- state 179
    ⟨[], [(87, [some .comma, some .rightBracket])], [], false⟩,
    -- state 180
    ⟨[], [(111, [some .comma, some .rightBracket])], [], false⟩,
    -- state 181
    ⟨[], [(85, [some .comma, some .rightBracket])], [], false⟩,
    -- state 182
    ⟨[], [(112, [some .comma, some .rightBracket])], [], false⟩ ]

/-- The state in which nothing is possible. -/
def State.dead : State :=
  ⟨[], [], [], false⟩

/-- The state with the given index. -/
def state (index : Nat) : State :=
  states.getD index .dead

namespace State

/-- The terminals the state has an action for, with `none` for the end of the input. -/
def lookaheads (s : State) : List (Option Terminal) :=
  (if s.accepting then [none] else []) ++ s.shifts.map (fun (t, _) => some t) ++
    s.reductions.flatMap (·.2)

/-- The terminals the state has an action for. -/
def accepted (s : State) : List Terminal :=
  s.lookaheads.filterMap id

/-- The production to reduce by before the given terminal. -/
def reduction? (s : State) (lookahead : Option Terminal) : Option Nat :=
  (s.reductions.find? fun (_, before) => lookahead ∈ before).map (·.1)

end State

end Errata.Syntax
