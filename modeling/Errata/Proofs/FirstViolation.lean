import Errata.Proofs.Descriptor.Severity
import Errata.Proofs.Syntax.Surround
import Mathlib.Data.List.Induction

/-!
# The first violation of a declaration

A declaration is described up to its first violation and no further. What is reported of it is
warnings, and then at most one error. If the violation lies in a variant, the variants after that
one are never looked at, and any others could stand in their place.

* `variants_append`: variants are described one part after the other.
* `FirstViolationIn`: the first violation of a declaration lies in a variant.
* **`FirstViolationIn.enumeration_eq`**: declarations that differ in the variants after that are
  described in the same way.
* **`declaration_stops_at_first_violation`**: the same for the nodes of declarations and for the
  reports of files.
-/

namespace Errata

namespace Descriptor

open Syntax (Declaration)

variable {strict : Bool} {name : String}

/-! ### Variants in parts -/

variable [Expression.Capacity]

/-- **Variants are described one part after the other.** -/
theorem variants_append (strict : Bool) (name : String) (earlier : List Variant)
    (first others : List Syntax.Variant) :
    variants strict name earlier (first ++ others) =
      variants strict name earlier first >>= fun ws => variants strict name ws others := by
  induction first generalizing earlier with
  | nil => exact (pure_bind earlier fun ws => variants strict name ws others).symm
  | cons v first ih =>
    rw [List.cons_append, variants, variants, bind_assoc]
    congr 1
    funext w
    split
    · rfl
    · exact ih _

/-- The first violation of a declaration lies in one of the variants in its body: all that is
checked before the variants is in order, and so are the variants before that one. -/
structure FirstViolationIn (strict : Bool) (d : Declaration) (before : List Syntax.Variant)
    (v : Syntax.Variant) (f : Finding) : Prop where
  /-- The declaration is an enumeration without inner attributes whose name may be used. -/
  proper : IsProper d
  /-- The variants before that one are described. -/
  described : ∃ ws, outcome (variants strict (String.ofList d.name.text) [] before) = .ok ws
  /-- That one is not. -/
  violation : outcome (variants strict (String.ofList d.name.text) [] (before ++ [v])) =
    .error (.violation f)

namespace FirstViolationIn

variable {d : Declaration} {before after : List Syntax.Variant} {v : Syntax.Variant}
  {f : Finding}

/-- A declaration is described up to the variant with its first violation. -/
theorem declared_eq (h : FirstViolationIn strict d before v f)
    (hbody : d.body = .variants (before ++ v :: after)) :
    declared strict d = variants strict (String.ofList d.name.text) [] (before ++ [v]) := by
  have hsteady := isSteady_variants strict (String.ofList d.name.text) [] (before ++ [v])
  rw [declared, hbody, List.append_cons]
  show variants strict (String.ofList d.name.text) [] (before ++ [v] ++ after) = _
  rw [variants_append]
  exact (bind_eq_bind_of_error hsteady h.violation).trans (bind_pure _)

/-- **Declarations that differ in the variants after the first violation** are described in the same
way. They may also differ in where they end. -/
theorem enumeration_eq (h : FirstViolationIn strict d before v f)
    (hbody : d.body = .variants (before ++ v :: after)) (after' : List Syntax.Variant)
    (span : Span) :
    enumeration strict { d with body := .variants (before ++ v :: after'), span } =
      enumeration strict d := by
  have h' : FirstViolationIn strict { d with body := .variants (before ++ v :: after'), span }
      before v f :=
    ⟨⟨h.proper.kind, h.proper.inner, h.proper.name⟩, h.described, h.violation⟩
  have hsteady := isSteady_variants strict (String.ofList d.name.text) [] (before ++ [v])
  rw [Descriptor.enumeration_eq h'.proper.kind h'.proper.inner, h'.declared_eq rfl,
    Descriptor.enumeration_eq h.proper.kind h.proper.inner, h.declared_eq hbody]
  congr 1
  funext _
  congr 1
  funext isTopLevel
  exact bind_eq_bind_of_error hsteady h.violation

end FirstViolationIn

/-- What adding a declaration to a file does only depends on how the declaration is described. -/
theorem addItem_congr {d d' : Declaration} (h : enumeration strict d' = enumeration strict d) :
    (addItem strict · (.declaration d')) = (addItem strict · (.declaration d)) := by
  funext file
  show tryCatch (enumeration strict d' >>= addEnumeration file) (noted file) = _
  rw [h]
  rfl

/-- Items that are added in the same way can stand for each other. -/
theorem addItems_congr {item item' : Syntax.Item}
    (h : (addItem strict · item') = (addItem strict · item)) (items items' : List Syntax.Item)
    (file : Descriptor) :
    (items ++ item' :: items').foldlM (addItem strict) file =
      (items ++ item :: items').foldlM (addItem strict) file := by
  rw [List.foldlM_append, List.foldlM_append]
  congr 1
  funext file'
  rw [List.foldlM_cons, List.foldlM_cons, congrFun h file']

end Descriptor

open Syntax (Tree Extent Surround)

/-! ### Nodes of declarations -/

/-- **A declaration is described up to its first violation.** Adding it to a file reports warnings
and then at most one error. If it has a body in braces, no inner attributes, and its first violation
in a variant, the variants after that one do not matter: let any others stand after it in the body,
without inner attributes. Then what is read is again a declaration, adding it to a file does the
same, and any file with the one is reported on as with the other. -/
theorem declaration_stops_at_first_violation [Expression.Capacity]
    (strict : Bool) (d : Syntax.Declaration) :
    (∀ file found, ∃ reported,
      ((Descriptor.addItem strict file (.declaration d)).run.run found).2 = found ++ reported ∧
        Descriptor.IsOrderly reported) ∧
    ∀ {source : List Char} {node : Tree} {before after : List Syntax.Variant} {v : Syntax.Variant}
      {f : Finding}, Syntax.Item.ofTree source node = .ok (.declaration d) →
      d.body = .variants (before ++ v :: after) →
      Descriptor.FirstViolationIn strict d before v f →
      ∃ (s : Surround) (extent : Extent) (bodyExtent : Option Extent) (inside : List Tree),
        node = s.tree extent bodyExtent inside ∧
        ∀ (source' : List Char) (extent' : Extent) (bodyExtent' : Option Extent)
          (inside' : List Tree) (after' : List Syntax.Variant),
          (Tree.nodes .member inside').mapM (Syntax.variant? source') =
            some (before ++ v :: after') →
          Tree.spansWithin.spansWithinAll .innerAttribute inside' = [] →
          ∃ d', Syntax.Item.ofTree source' (s.tree extent' bodyExtent' inside') =
              .ok (.declaration d') ∧
            (∀ file, Descriptor.addItem strict file (.declaration d') =
              Descriptor.addItem strict file (.declaration d)) ∧
            ∀ items items', describe strict (items ++ .declaration d' :: items') =
              describe strict (items ++ .declaration d :: items') := by
  constructor
  · intro file found
    have hsteady := Descriptor.isSteady_addItem strict file (.declaration d)
    refine ⟨_, ?_, Descriptor.isOrderly_findings_addItem strict file d⟩
    rw [hsteady.run_eq]
  · intro source node before after v f hnode hbody hfirst
    obtain ⟨s, extent, bodyExtent, inside, rfl⟩ := Syntax.exists_surround hnode hbody
    refine ⟨s, extent, bodyExtent, inside, rfl, ?_⟩
    intro source' extent' bodyExtent' inside' after' hread hinner
    have hsame := Descriptor.addItem_congr (hfirst.enumeration_eq hbody after' extent'.span)
    refine ⟨_, s.ofTree_of_inside bodyExtent inside hnode hfirst.proper.inner hread hinner,
      fun file => congrFun hsame file, fun items items' => ?_⟩
    rw [describe, describe, Descriptor.describing, Descriptor.describing,
      Descriptor.addItems_congr hsame]

/-- The first of two variants has no message. Were both written twice, their names would be repeated
too, and still only the message would be missed. -/
theorem declaration_stops_at_first_violation_twice :
    ∃ node d v w, Syntax.Item.ofTree "enum E \x7b A, #[error = \"x\"] B \x7d".toList node =
        .ok (.declaration d) ∧ d.body = .variants [v, w] ∧
      ∃ s extent bodyExtent inside d', node = Surround.tree s extent bodyExtent inside ∧
        (Tree.nodes .member (inside ++ inside)).mapM
          (Syntax.variant? "enum E \x7b A, #[error = \"x\"] B \x7d".toList) = some [v, w, v, w] ∧
        Syntax.Item.ofTree "enum E \x7b A, #[error = \"x\"] B \x7d".toList
          (s.tree extent bodyExtent (inside ++ inside)) = .ok (.declaration d') ∧
        describe true [.declaration d'] = describe true [.declaration d] := by
  have hrun : ((Syntax.parse "enum E \x7b A, #[error = \"x\"] B \x7d".toList).toOption.any
      fun tree => (Syntax.fileItems "enum E \x7b A, #[error = \"x\"] B \x7d".toList
        tree).toOption.any fun items => items.any fun item => item.declaration?.any fun d =>
          d.body.variants?.any fun vs => vs.length = 2 && d.kind.terminal = .enumWord &&
            d.innerAttributes.isEmpty &&
            Descriptor.outcome (Descriptor.checkName "enum" [] d.name) = .ok () &&
            (Descriptor.violation? (Descriptor.variants true (String.ofList d.name.text) []
              (vs.take 1))).isSome) = true := by
    decide +kernel
  obtain ⟨tree, -, hrun⟩ := (Option.any_eq_true _ _).mp hrun
  obtain ⟨items, hitems, hrun⟩ := (Option.any_eq_true _ _).mp hrun
  obtain ⟨item, hitem, hrun⟩ := List.any_eq_true.mp hrun
  obtain ⟨d, hd, hrun⟩ := (Option.any_eq_true _ _).mp hrun
  obtain ⟨vs, hvs, hrun⟩ := (Option.any_eq_true _ _).mp hrun
  simp only [Bool.and_eq_true, decide_eq_true_eq, List.isEmpty_iff] at hrun
  obtain ⟨⟨⟨⟨hlength, hkind⟩, hinner⟩, hname⟩, hviolation⟩ := hrun
  obtain ⟨v, w, rfl⟩ := List.length_eq_two.mp hlength
  obtain ⟨f, hf⟩ := Option.isSome_iff_exists.mp hviolation
  rw [Syntax.Item.declaration?_eq_some_iff] at hd
  rw [Syntax.Body.variants?_eq_some_iff] at hvs
  rw [Outcome.toOption_eq_some_iff] at hitems
  obtain ⟨-, -, node, -, -, hnode⟩ := Syntax.exists_node_of_fileItems hitems hitem
  rw [hd] at hnode
  have hfirst : Descriptor.FirstViolationIn true d [] v f :=
    ⟨⟨hkind, hinner, hname⟩, ⟨[], rfl⟩, Descriptor.violation?_eq_some_iff.mp hf⟩
  obtain ⟨s, extent, bodyExtent, inside, rfl, hothers⟩ :=
    (declaration_stops_at_first_violation true d).2 hnode hvs hfirst
  obtain ⟨-, ⟨vs, hread, hvs'⟩, hnone, -⟩ := (s.ofTree_tree_iff bodyExtent inside).mp hnode
  cases hvs.symm.trans hvs'
  rw [hinner, s.spansWithinAll_children] at hnone
  obtain ⟨-, hrest⟩ := List.append_eq_nil_iff.mp hnone.symm
  obtain ⟨hinside, -⟩ := List.append_eq_nil_iff.mp hrest
  have htwice : (Tree.nodes .member (inside ++ inside)).mapM
      (Syntax.variant? "enum E \x7b A, #[error = \"x\"] B \x7d".toList) = some [v, w, v, w] := by
    rw [Tree.nodes_append, List.mapM_append, hread]
    rfl
  have hnone' : Tree.spansWithin.spansWithinAll .innerAttribute (inside ++ inside) = [] := by
    rw [Tree.spansWithinAll_append, hinside]
    rfl
  obtain ⟨d', hd', -, hdescribe⟩ := hothers _ extent bodyExtent _ _ htwice hnone'
  exact ⟨_, d, v, w, hnode, hvs, s, extent, bodyExtent, inside, d', rfl, htwice, hd',
    hdescribe [] []⟩

end Errata
