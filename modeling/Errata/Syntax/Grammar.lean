import Errata.Syntax.Token

/-!
# The grammar of declaration files

A file is a sequence of imports and declarations. The grammar is written in productions without
repetition: `one or more` has a symbol of its own, and what may be left out is spelled as two
productions. Most symbols make a node of the parse tree; the others hand their children on to the
symbol they stand in.

## Main definitions

* `Kind`: the kinds of nodes of a parse tree.
* `Nonterminal`, `Symbol`, `Production`: the parts of a grammar.
* `productions`: the grammar.
* `Tree`: parse trees.
-/

namespace Errata.Syntax

/-- The kind of a node of a parse tree. -/
inductive Kind where
  /-- A whole file. -/
  | file
  /-- An import of a module. -/
  | importStatement
  /-- An import of names from a module. -/
  | fromImport
  /-- The module names are imported from. -/
  | moduleRef
  /-- An imported name. -/
  | importAlias
  /-- A name with components. -/
  | dottedName
  /-- A declaration. -/
  | declaration
  /-- The word that says what is declared. -/
  | declarationKind
  /-- Members in braces. -/
  | braceBody
  /-- A variant or a field. -/
  | member
  /-- The type of a field. -/
  | fieldType
  /-- Types in parentheses. -/
  | parenBody
  /-- A type in parentheses. -/
  | parenItem
  /-- An attribute of what follows. -/
  | outerAttribute
  /-- An attribute of what surrounds it. -/
  | innerAttribute
  /-- An attribute that is a mere path. -/
  | metaPath
  /-- An attribute with a value. -/
  | metaNameValue
  /-- An attribute with a list. -/
  | metaList
  /-- The path of an attribute. -/
  | path
  /-- A type. -/
  | typeExpr
  /-- A type without alternatives. -/
  | typeTerm
  /-- The arguments of a type. -/
  | typeArgs
  /-- An argument of a type. -/
  | typeArg
  /-- A kind that the grammar does not have. -/
  | other (label : String)
deriving DecidableEq, Repr

/-- The label of a kind of nodes. -/
def Kind.label : Kind → String
  | file => "start"
  | importStatement => "import_stmt"
  | fromImport => "from_import"
  | moduleRef => "module_ref"
  | importAlias => "import_alias"
  | dottedName => "dotted_name"
  | declaration => "declaration"
  | declarationKind => "decl_kind"
  | braceBody => "brace_body"
  | member => "member"
  | fieldType => "field_type"
  | parenBody => "paren_body"
  | parenItem => "paren_item"
  | outerAttribute => "outer_attribute"
  | innerAttribute => "inner_attribute"
  | metaPath => "meta_path"
  | metaNameValue => "meta_name_value"
  | metaList => "meta_list"
  | path => "path"
  | typeExpr => "type"
  | typeTerm => "type_term"
  | typeArgs => "type_args"
  | typeArg => "type_arg"
  | other label => label

/-- The symbols of the grammar that stand for more than a token. -/
inductive Nonterminal where
  /-- A whole file. -/
  | file
  /-- An import or a declaration. -/
  | item
  /-- An import of a module. -/
  | importStatement
  /-- An import of names. -/
  | fromImport
  /-- The names of an import. -/
  | importNames
  /-- The module names are imported from. -/
  | moduleRef
  /-- An imported name. -/
  | importAlias
  /-- A name with components. -/
  | dottedName
  /-- A declaration. -/
  | declaration
  /-- The word that says what is declared. -/
  | declarationKind
  /-- The body of a declaration. -/
  | declarationBody
  /-- Members in braces. -/
  | braceBody
  /-- A variant or a field. -/
  | member
  /-- What follows the name of a member. -/
  | memberShape
  /-- The type of a field. -/
  | fieldType
  /-- Types in parentheses. -/
  | parenBody
  /-- A type in parentheses. -/
  | parenItem
  /-- An attribute. -/
  | attribute
  /-- The inside of an attribute. -/
  | metaForm
  /-- An item of the list of an attribute. -/
  | metaItem
  /-- The value of an attribute. -/
  | metaValue
  /-- The path of an attribute. -/
  | attributePath
  /-- A type. -/
  | typeExpr
  /-- A type without alternatives. -/
  | typeTerm
  /-- The arguments of a type. -/
  | typeArgs
  /-- An argument of a type. -/
  | typeArg
  /-- One or more items. -/
  | items
  /-- Further imported names. -/
  | moreAliases
  /-- Further components of a name. -/
  | moreComponents
  /-- One or more attributes. -/
  | attributes
  /-- Further members. -/
  | moreMembers
  /-- Further types in parentheses. -/
  | moreParenItems
  /-- Further items of a list. -/
  | moreMetaItems
  /-- Further segments of a path. -/
  | moreSegments
  /-- Further alternatives of a type. -/
  | moreTerms
  /-- Further arguments of a type. -/
  | moreTypeArgs
  /-- Further types in brackets. -/
  | moreTypes
deriving DecidableEq, Repr

/-- A symbol of the grammar. -/
inductive Symbol where
  /-- A terminal. -/
  | t (terminal : Terminal)
  /-- A nonterminal. -/
  | n (nonterminal : Nonterminal)
deriving DecidableEq, Repr

/-- A production of the grammar. -/
structure Production where
  /-- The symbol it explains. -/
  lhs : Nonterminal
  /-- What the symbol may consist of. -/
  rhs : List Symbol
  /-- The kind of node it makes, if any. -/
  kind : Option Kind
deriving DecidableEq, Repr

/-- The productions of the grammar. A file may also be empty, which no production says. -/
def productions : Array Production :=
  #[
      ⟨.file, [.n .items], some .file⟩,
      ⟨.item, [.n .importStatement], none⟩,
      ⟨.item, [.n .fromImport], none⟩,
      ⟨.item, [.n .declaration], none⟩,
      ⟨.importStatement, [.t .importWord, .n .dottedName, .t .asWord, .t .name, .t .semicolon],
      some .importStatement⟩,
      ⟨.importStatement, [.t .importWord, .n .dottedName, .t .asWord, .t .name], some
      .importStatement⟩,
      ⟨.importStatement, [.t .importWord, .n .dottedName, .t .semicolon], some .importStatement⟩,
      ⟨.importStatement, [.t .importWord, .n .dottedName], some .importStatement⟩,
      ⟨.fromImport, [.t .fromWord, .n .moduleRef, .t .importWord, .n .importNames, .t .semicolon],
      some .fromImport⟩,
      ⟨.fromImport, [.t .fromWord, .n .moduleRef, .t .importWord, .n .importNames], some
      .fromImport⟩,
      ⟨.importNames, [.n .importAlias, .n .moreAliases], none⟩,
      ⟨.importNames, [.n .importAlias], none⟩,
      ⟨.importNames, [.t .leftParen, .n .importAlias, .n .moreAliases, .t .comma, .t .rightParen],
      none⟩,
      ⟨.importNames, [.t .leftParen, .n .importAlias, .n .moreAliases, .t .rightParen], none⟩,
      ⟨.importNames, [.t .leftParen, .n .importAlias, .t .comma, .t .rightParen], none⟩,
      ⟨.importNames, [.t .leftParen, .n .importAlias, .t .rightParen], none⟩,
      ⟨.moduleRef, [.t .relative, .n .dottedName], some .moduleRef⟩,
      ⟨.moduleRef, [.n .dottedName], some .moduleRef⟩,
      ⟨.moduleRef, [.t .relative], some .moduleRef⟩,
      ⟨.importAlias, [.t .name, .t .asWord, .t .name], some .importAlias⟩,
      ⟨.importAlias, [.t .name], some .importAlias⟩,
      ⟨.dottedName, [.t .name, .n .moreComponents], some .dottedName⟩,
      ⟨.dottedName, [.t .name], some .dottedName⟩,
      ⟨.declaration, [.n .attributes, .t .visibility, .n .declarationKind, .t .name, .n
      .declarationBody], some .declaration⟩,
      ⟨.declaration, [.n .attributes, .n .declarationKind, .t .name, .n .declarationBody], some
      .declaration⟩,
      ⟨.declaration, [.t .visibility, .n .declarationKind, .t .name, .n .declarationBody], some
      .declaration⟩,
      ⟨.declaration, [.n .declarationKind, .t .name, .n .declarationBody], some .declaration⟩,
      ⟨.declarationKind, [.t .enumWord], some .declarationKind⟩,
      ⟨.declarationKind, [.t .structWord], some .declarationKind⟩,
      ⟨.declarationKind, [.t .unionWord], some .declarationKind⟩,
      ⟨.declarationBody, [.n .braceBody], none⟩,
      ⟨.declarationBody, [.n .parenBody, .t .semicolon], none⟩,
      ⟨.declarationBody, [.n .parenBody], none⟩,
      ⟨.declarationBody, [.t .semicolon], none⟩,
      ⟨.braceBody, [.t .leftBrace, .n .member, .n .moreMembers, .t .comma, .t .rightBrace], some
      .braceBody⟩,
      ⟨.braceBody, [.t .leftBrace, .n .member, .n .moreMembers, .t .rightBrace], some .braceBody⟩,
      ⟨.braceBody, [.t .leftBrace, .n .member, .t .comma, .t .rightBrace], some .braceBody⟩,
      ⟨.braceBody, [.t .leftBrace, .n .member, .t .rightBrace], some .braceBody⟩,
      ⟨.braceBody, [.t .leftBrace, .t .comma, .t .rightBrace], some .braceBody⟩,
      ⟨.braceBody, [.t .leftBrace, .t .rightBrace], some .braceBody⟩,
      ⟨.member, [.n .attributes, .t .name, .n .memberShape], some .member⟩,
      ⟨.member, [.n .attributes, .t .name], some .member⟩,
      ⟨.member, [.t .name, .n .memberShape], some .member⟩,
      ⟨.member, [.t .name], some .member⟩,
      ⟨.memberShape, [.n .fieldType], none⟩,
      ⟨.memberShape, [.n .braceBody], none⟩,
      ⟨.memberShape, [.n .parenBody], none⟩,
      ⟨.fieldType, [.t .colon, .n .typeExpr], some .fieldType⟩,
      ⟨.parenBody, [.t .leftParen, .n .parenItem, .n .moreParenItems, .t .comma, .t .rightParen],
      some .parenBody⟩,
      ⟨.parenBody, [.t .leftParen, .n .parenItem, .n .moreParenItems, .t .rightParen], some
      .parenBody⟩,
      ⟨.parenBody, [.t .leftParen, .n .parenItem, .t .comma, .t .rightParen], some .parenBody⟩,
      ⟨.parenBody, [.t .leftParen, .n .parenItem, .t .rightParen], some .parenBody⟩,
      ⟨.parenBody, [.t .leftParen, .t .comma, .t .rightParen], some .parenBody⟩,
      ⟨.parenBody, [.t .leftParen, .t .rightParen], some .parenBody⟩,
      ⟨.parenItem, [.n .attributes, .n .typeExpr], some .parenItem⟩,
      ⟨.parenItem, [.n .typeExpr], some .parenItem⟩,
      ⟨.attribute, [.t .outerOpen, .n .metaForm, .t .rightBracket], some .outerAttribute⟩,
      ⟨.attribute, [.t .innerOpen, .n .metaForm, .t .rightBracket], some .innerAttribute⟩,
      ⟨.metaForm, [.n .attributePath], some .metaPath⟩,
      ⟨.metaForm, [.n .attributePath, .t .equal, .n .metaValue], some .metaNameValue⟩,
      ⟨.metaForm, [.n .attributePath, .t .leftParen, .n .metaItem, .n .moreMetaItems, .t .comma,
      .t .rightParen], some .metaList⟩,
      ⟨.metaForm, [.n .attributePath, .t .leftParen, .n .metaItem, .n .moreMetaItems, .t
      .rightParen], some .metaList⟩,
      ⟨.metaForm, [.n .attributePath, .t .leftParen, .n .metaItem, .t .comma, .t .rightParen],
      some .metaList⟩,
      ⟨.metaForm, [.n .attributePath, .t .leftParen, .n .metaItem, .t .rightParen], some
      .metaList⟩,
      ⟨.metaForm, [.n .attributePath, .t .leftParen, .t .comma, .t .rightParen], some .metaList⟩,
      ⟨.metaForm, [.n .attributePath, .t .leftParen, .t .rightParen], some .metaList⟩,
      ⟨.metaItem, [.n .metaForm], none⟩,
      ⟨.metaItem, [.n .metaValue], none⟩,
      ⟨.metaValue, [.t .string], none⟩,
      ⟨.metaValue, [.t .number], none⟩,
      ⟨.attributePath, [.t .name, .n .moreSegments], some .path⟩,
      ⟨.attributePath, [.t .name], some .path⟩,
      ⟨.typeExpr, [.n .typeTerm, .n .moreTerms], some .typeExpr⟩,
      ⟨.typeExpr, [.n .typeTerm], some .typeExpr⟩,
      ⟨.typeTerm, [.n .dottedName, .n .typeArgs], some .typeTerm⟩,
      ⟨.typeTerm, [.n .dottedName], some .typeTerm⟩,
      ⟨.typeTerm, [.t .string], some .typeTerm⟩,
      ⟨.typeArgs, [.t .leftBracket, .n .typeArg, .n .moreTypeArgs, .t .comma, .t .rightBracket],
      some .typeArgs⟩,
      ⟨.typeArgs, [.t .leftBracket, .n .typeArg, .n .moreTypeArgs, .t .rightBracket], some
      .typeArgs⟩,
      ⟨.typeArgs, [.t .leftBracket, .n .typeArg, .t .comma, .t .rightBracket], some .typeArgs⟩,
      ⟨.typeArgs, [.t .leftBracket, .n .typeArg, .t .rightBracket], some .typeArgs⟩,
      ⟨.typeArgs, [.t .leftBracket, .t .comma, .t .rightBracket], some .typeArgs⟩,
      ⟨.typeArgs, [.t .leftBracket, .t .rightBracket], some .typeArgs⟩,
      ⟨.typeArg, [.n .typeExpr], some .typeArg⟩,
      ⟨.typeArg, [.t .ellipsis], some .typeArg⟩,
      ⟨.typeArg, [.t .leftBracket, .n .typeExpr, .n .moreTypes, .t .comma, .t .rightBracket], some
      .typeArg⟩,
      ⟨.typeArg, [.t .leftBracket, .n .typeExpr, .n .moreTypes, .t .rightBracket], some .typeArg⟩,
      ⟨.typeArg, [.t .leftBracket, .n .typeExpr, .t .comma, .t .rightBracket], some .typeArg⟩,
      ⟨.typeArg, [.t .leftBracket, .n .typeExpr, .t .rightBracket], some .typeArg⟩,
      ⟨.typeArg, [.t .leftBracket, .t .comma, .t .rightBracket], some .typeArg⟩,
      ⟨.typeArg, [.t .leftBracket, .t .rightBracket], some .typeArg⟩,
      ⟨.items, [.n .item], none⟩,
      ⟨.items, [.n .items, .n .item], none⟩,
      ⟨.moreAliases, [.t .comma, .n .importAlias], none⟩,
      ⟨.moreAliases, [.n .moreAliases, .t .comma, .n .importAlias], none⟩,
      ⟨.moreComponents, [.t .dot, .t .name], none⟩,
      ⟨.moreComponents, [.n .moreComponents, .t .dot, .t .name], none⟩,
      ⟨.attributes, [.n .attribute], none⟩,
      ⟨.attributes, [.n .attributes, .n .attribute], none⟩,
      ⟨.moreMembers, [.t .comma, .n .member], none⟩,
      ⟨.moreMembers, [.n .moreMembers, .t .comma, .n .member], none⟩,
      ⟨.moreParenItems, [.t .comma, .n .parenItem], none⟩,
      ⟨.moreParenItems, [.n .moreParenItems, .t .comma, .n .parenItem], none⟩,
      ⟨.moreMetaItems, [.t .comma, .n .metaItem], none⟩,
      ⟨.moreMetaItems, [.n .moreMetaItems, .t .comma, .n .metaItem], none⟩,
      ⟨.moreSegments, [.t .pathSeparator, .t .name], none⟩,
      ⟨.moreSegments, [.n .moreSegments, .t .pathSeparator, .t .name], none⟩,
      ⟨.moreTerms, [.t .bar, .n .typeTerm], none⟩,
      ⟨.moreTerms, [.n .moreTerms, .t .bar, .n .typeTerm], none⟩,
      ⟨.moreTypeArgs, [.t .comma, .n .typeArg], none⟩,
      ⟨.moreTypeArgs, [.n .moreTypeArgs, .t .comma, .n .typeArg], none⟩,
      ⟨.moreTypes, [.t .comma, .n .typeExpr], none⟩,
      ⟨.moreTypes, [.n .moreTypes, .t .comma, .n .typeExpr], none⟩ ]

end Errata.Syntax

/-! ## Parse trees

A parse tree holds the kept tokens of a file as leaves. A node extends from its first to its last
token, those that are not kept included; only the node of an empty file has no extent.
-/

namespace Errata.Syntax

/-- A parse tree. -/
inductive Tree where
  /-- A token. -/
  | leaf (token : Token)
  /-- A node with its children from left to right. -/
  | node (kind : Kind) (extent : Option Extent) (children : List Tree)

namespace Tree

/-- The outline of a tree, indented by two blanks for each level. A node whose only child is a token
shares its line with it. -/
def outline (level : Nat) : Tree → String
  | leaf token => indent level ++ String.ofList token.text ++ "\n"
  | node kind _ [leaf token] =>
    indent level ++ kind.label ++ "\t" ++ String.ofList token.text ++ "\n"
  | node kind _ children => indent level ++ kind.label ++ "\n" ++ outlines (level + 1) children
where
  /-- The blanks before a line of the given level. -/
  indent (level : Nat) : String :=
    String.ofList (List.replicate (2 * level) ' ')
  /-- The outlines of trees that stand below each other. -/
  outlines (level : Nat) : List Tree → String
    | [] => ""
    | tree :: rest => outline level tree ++ outlines level rest

end Tree

end Errata.Syntax
