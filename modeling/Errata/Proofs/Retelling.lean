import Errata.Proofs.Descriptor.Types
import Errata.Proofs.Ending
import Errata.Proofs.Syntax.TypeTokens

/-!
# Types of described fields

The type of a field is described by the text it has in the file, in one line. A module that is
generated from it says the type again, so it matters whether that text still has the tokens of the
type. White space between tokens does not matter, nor do block comments. But a line comment takes
along all that stands behind it, and white space inside a string literal is changed.

* `types_of_compile`: the types of a file are those of its parse tree.
* **`compile_retells_types`**: what is found in the texts of the types of a file without errors.
* `not_compile_retells_types`: a string literal that is changed.
-/

namespace Errata

open Syntax (IsRetelling IsUncut Token Tree between retold)

/-- The types in the descriptor of a file without errors are those of its parse tree, in order. -/
theorem types_of_compile [Expression.Capacity]
    {options : CompileOptions} {source filename : String} {c : Compilation}
    (h : compile options source filename = .ok c) (herrors : c.report.hasErrors = false) :
    ∃ tree d, Syntax.parse source.toList = .ok tree ∧ c.tree = some tree ∧ c.descriptor = some d ∧
      d.types = tree.typeExtents.map (Syntax.typeText source.toList) := by
  have hending := Compilation.ending_of_compile h
  have hmade : c.code ≠ none := by
    rw [← hending.hasErrors_iff.ne, herrors]
    exact Bool.false_ne_true
  cases hending with
  | unparsed hunparsed => exact absurd rfl hmade
  | withheld hdescribed herror => exact absurd rfl hmade
  | @generated tree description code hdescribed hwarnings hcode =>
    obtain ⟨hparse, items, hitems, hdescribe⟩ := hdescribed
    refine ⟨tree, description.descriptor, hparse, rfl, rfl, ?_⟩
    rw [types_of_describe hdescribe hwarnings, Syntax.types_of_fileItems hitems]

/-- **The types of described fields.** If a file is compiled without errors, the types in its
descriptor are those of the fields of its parse tree, in order. In the text of each the tokens of
the type are found again up to the first line comment, each of them in one line. So these are the
tokens of the type exactly if no line comment stands between them, and none of them holds white
space other than single blanks. -/
theorem compile_retells_types [Expression.Capacity]
    {options : CompileOptions} {source filename : String}
    {c : Compilation} (h : compile options source filename = .ok c)
    (herrors : c.report.hasErrors = false) :
    ∃ tree d, Syntax.parse source.toList = .ok tree ∧ c.tree = some tree ∧ c.descriptor = some d ∧
      List.Forall₂ (fun type e =>
        (∃ children, .node .typeExpr (some e) children ∈ tree.subtrees ∧
          Tree.IsOver (e.tokens source.toList) .typeExpr e children) ∧
        IsRetelling source.toList (e.tokens source.toList) type.toList) d.types
          tree.typeExtents := by
  obtain ⟨tree, d, hparse, htree, hd, htypes⟩ := types_of_compile h herrors
  refine ⟨tree, d, hparse, htree, hd, ?_⟩
  rw [htypes, List.forall₂_map_left_iff, List.forall₂_same]
  exact fun e he => Syntax.isRetelling_typeText hparse he

/-- All tokens of a type are found again behind a block comment, a string literal with a blank among
them. -/
theorem compile_retells_types_list :
    ∃ c d, compile {} "enum E \x7b #[error = \"m\"] V \x7b x: list[/* c */ \"a b\"] \x7d \x7d"
        "<input>" = .ok c ∧ c.descriptor = some d ∧
      d.types.map (fun type => retold type.toList) =
        [some [(.name, "list".toList), (.leftBracket, ['[']), (.string, "\"a b\"".toList),
          (.rightBracket, [']'])]] := by
  have hrun : ((compile {}
      "enum E \x7b #[error = \"m\"] V \x7b x: list[/* c */ \"a b\"] \x7d \x7d"
      "<input>").toOption.any fun c => !c.report.hasErrors && c.tree.any fun tree =>
        decide (tree.typeExtents = [⟨⟨31, 1, 32⟩, ⟨50, 1, 51⟩⟩])) = true := by
    decide +kernel
  obtain ⟨c, hc, hrun⟩ := (Option.any_eq_true _ _).mp hrun
  rw [Outcome.toOption_eq_some_iff] at hc
  obtain ⟨hclean, htree⟩ := Bool.and_eq_true_iff.mp hrun
  obtain ⟨tree, htree, hextents⟩ := (Option.any_eq_true _ _).mp htree
  obtain ⟨tree', d, -, htree', hd, htypes⟩ := compile_retells_types hc (by simpa using hclean)
  cases htree.symm.trans htree'
  rw [of_decide_eq_true hextents] at htypes
  obtain ⟨type, types, ⟨-, hretelling⟩, hnone, heq⟩ := List.forall₂_cons_right_iff.mp htypes
  obtain rfl := List.forall₂_nil_right_iff.mp hnone
  refine ⟨c, d, hc, hd, ?_⟩
  have hgaps : (Syntax.Extent.tokens
      "enum E \x7b #[error = \"m\"] V \x7b x: list[/* c */ \"a b\"] \x7d \x7d".toList
      ⟨⟨31, 1, 32⟩, ⟨50, 1, 51⟩⟩).IsChain fun s t => between
        "enum E \x7b #[error = \"m\"] V \x7b x: list[/* c */ \"a b\"] \x7d \x7d".toList s t ∈
          [[], "/* c */ ".toList] := by
    decide +kernel
  rw [heq, List.map_singleton, hretelling.same.mpr ⟨hgaps.imp ?_, by decide +kernel⟩]
  · decide +kernel
  · intro s t hgap
    have hbody : Syntax.commentBody " c */".toList = some (" c */".toList, []) := by decide
    rw [IsUncut]
    rcases List.mem_pair.mp hgap with hnone | hcomment
    · rw [hnone]
      exact .nil
    · rw [hcomment]
      exact .comment hbody (.blank rfl .nil)

/-- **A type may be told otherwise**: white space inside a string literal is changed. -/
theorem not_compile_retells_types :
    ¬∀ (source filename : String) (c : Compilation) (tree : Tree) (d : Descriptor),
      compile {} source filename = .ok c → c.report.hasErrors = false → c.tree = some tree →
        c.descriptor = some d →
          List.Forall₂ (fun type e => retold type.toList =
            some ((e.tokens source.toList).map Token.unplaced)) d.types tree.typeExtents := by
  intro hall
  have hrun : ((compile {} "enum E \x7b #[error = \"m\"] V \x7b x: \"a  b\" \x7d \x7d"
      "<input>").toOption.any fun c => !c.report.hasErrors &&
        (c.tree.any fun tree => decide (tree.typeExtents = [⟨⟨31, 1, 32⟩, ⟨37, 1, 38⟩⟩])) &&
          c.descriptor.any fun d => decide (d.types = ["\"a b\""])) = true := by
    decide +kernel
  obtain ⟨c, hc, hrun⟩ := (Option.any_eq_true _ _).mp hrun
  rw [Outcome.toOption_eq_some_iff] at hc
  simp only [Bool.and_eq_true] at hrun
  obtain ⟨⟨hclean, htree⟩, hd⟩ := hrun
  obtain ⟨tree, htree, hextents⟩ := (Option.any_eq_true _ _).mp htree
  obtain ⟨d, hd, htypes⟩ := (Option.any_eq_true _ _).mp hd
  have hsame := hall _ _ c tree d hc (by simpa using hclean) htree hd
  rw [of_decide_eq_true hextents, of_decide_eq_true htypes, List.forall₂_cons] at hsame
  have hscan : Syntax.scan Syntax.typeTerminals {} "\"a b\"".toList =
      .token ⟨.string, "\"a b\"".toList, ⟨⟨0, 1, 1⟩, ⟨5, 1, 6⟩⟩⟩ [] := rfl
  have hretold : retold "\"a b\"".toList = some [(.string, "\"a b\"".toList)] := by
    rw [Syntax.retold_of_token hscan, Syntax.retold_of_isTail (.gap .nil)]
    rfl
  rw [hretold] at hsame
  exact absurd hsame.1 (by decide +kernel)

end Errata
