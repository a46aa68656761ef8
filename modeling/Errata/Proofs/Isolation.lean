import Errata.Proofs.Ending
import Errata.Proofs.Syntax.Surround

/-!
# Declarations that are left out

A declaration that violates a rule leaves nothing behind but what is reported of it: no name, no
part of an enumeration, no import. What is described before it and after it is described as if it
were not there, whatever else is left out, and the names are compared in the end as if it were not
there. So a file with the declaration and the same file without it have the same descriptor, and
their reports differ in one block.

* `addItems_without`: adding items with the declaration among them, and without it.
* **`describe_without`**: describing the items of a file with the declaration, and without it.
* `Syntax.itemsOfTrees_without`: the items of a file with one of its trees, and without it.
* **`build_without_refused`**: all of it, for the tree of a file.
-/

namespace Errata

namespace Descriptor

/-- What a declaration that violates a rule adds to a report: what describing it finds, and then the
violation. -/
def refusal [Expression.Capacity]
    (strict : Bool) (declaration : Syntax.Declaration) (f : Finding) : List Finding :=
  findings (enumeration strict declaration) ++ [f]

/-- **Adding items with a declaration among them that violates a rule, and without it**, makes the
same. If the items before it can be added, what is found differs in what is reported of it. -/
theorem addItems_without [Expression.Capacity]
    {strict : Bool} {declaration : Syntax.Declaration} {f : Finding}
    (h : outcome (enumeration strict declaration) = .error (.violation f))
    (before after : List Syntax.Item) (d : Descriptor) :
    outcome ((before ++ .declaration declaration :: after).foldlM (addItem strict) d) =
        outcome ((before ++ after).foldlM (addItem strict) d) ∧
      ∀ d', outcome (before.foldlM (addItem strict) d) = .ok d' →
        ∃ earlier later,
          findings ((before ++ .declaration declaration :: after).foldlM (addItem strict) d) =
              earlier ++ refusal strict declaration f ++ later ∧
            findings ((before ++ after).foldlM (addItem strict) d) = earlier ++ later := by
  have hbefore := isSteady_addItems strict d before
  have hafter := fun d' => isSteady_addItems strict d' after
  have hitem := fun d' => isSteady_addItem strict d' (.declaration declaration)
  -- The declaration hands the file on to the items after it as it received it.
  have hsame : ∀ d', IsSteady ((.declaration declaration :: after).foldlM (addItem strict) d') ∧
      outcome ((.declaration declaration :: after).foldlM (addItem strict) d') =
        outcome (after.foldlM (addItem strict) d') ∧
      findings ((.declaration declaration :: after).foldlM (addItem strict) d') =
        refusal strict declaration f ++ findings (after.foldlM (addItem strict) d') := by
    intro d'
    obtain ⟨hmade, hfound⟩ := addItem_of_violation h d'
    rw [List.foldlM_cons]
    refine ⟨(hitem d').bind fun d'' _ => hafter d'', ?_, ?_⟩
    · rw [outcome_bind (hitem d') fun d'' _ => hafter d'', hmade]
      rfl
    · rw [findings_bind_of_ok (hitem d') hmade (hafter d'), hfound]
      rfl
  rw [List.foldlM_append, List.foldlM_append]
  constructor
  · rw [outcome_bind hbefore fun d' _ => (hsame d').1, outcome_bind hbefore fun d' _ => hafter d']
    exact congrArg _ (funext fun d' => (hsame d').2.1)
  · intro d' hd'
    refine ⟨findings (before.foldlM (addItem strict) d),
      findings (after.foldlM (addItem strict) d'), ?_, findings_bind_of_ok hbefore hd' (hafter d')⟩
    rw [findings_bind_of_ok hbefore hd' (hsame d').1, (hsame d').2.2, List.append_assoc]

/-- If items can be added, the first of them can. -/
theorem exists_outcome_of_append [Expression.Capacity]
    {strict : Bool} {before after : List Syntax.Item}
    {d made : Descriptor} (h : outcome ((before ++ after).foldlM (addItem strict) d) = .ok made) :
    ∃ d', outcome (before.foldlM (addItem strict) d) = .ok d' := by
  rw [List.foldlM_append] at h
  obtain ⟨d', hd', -⟩ := (bind_eq_ok_iff (isSteady_addItems strict d before) fun d' _ =>
    isSteady_addItems strict d' after).mp h
  exact ⟨d', hd'⟩

end Descriptor

/-- **Describing the items of a file with a declaration that violates a rule, and without it**: both
times the same argument cannot be read, or the descriptor is the same and what is found differs in
one block, which is what is reported of the declaration. -/
theorem describe_without [Expression.Capacity]
    {strict : Bool} {declaration : Syntax.Declaration} {f : Finding}
    (h : Descriptor.outcome (Descriptor.enumeration strict declaration) = .error (.violation f))
    (before after : List Syntax.Item) :
    (∃ u, describe strict (before ++ .declaration declaration :: after) = .error u ∧
        describe strict (before ++ after) = .error u) ∨
      ∃ d earlier later,
        describe strict (before ++ .declaration declaration :: after) =
            .ok ⟨d, earlier ++ Descriptor.refusal strict declaration f ++ later⟩ ∧
          describe strict (before ++ after) = .ok ⟨d, earlier ++ later⟩ := by
  obtain ⟨hsame, hfound⟩ := Descriptor.addItems_without h before after ⟨[], []⟩
  cases hmade : Descriptor.outcome ((before ++ after).foldlM (Descriptor.addItem strict)
      ⟨[], []⟩) with
  | error e =>
    cases e with
    | violation g => exact absurd hmade Descriptor.addItems_ne_violation
    | unreadable u =>
      exact Or.inl ⟨u, describe_eq_error_iff.mpr (hsame.trans hmade),
        describe_eq_error_iff.mpr hmade⟩
  | ok d =>
    obtain ⟨d', hd'⟩ := Descriptor.exists_outcome_of_append hmade
    obtain ⟨earlier, later, hwith, hwithout⟩ := hfound d' hd'
    refine Or.inr ⟨d, earlier, later ++ d.collisions,
      describe_eq_ok_iff.mpr ⟨hsame.trans hmade, ?_⟩, describe_eq_ok_iff.mpr ⟨hmade, ?_⟩⟩
    · rw [hwith, List.append_assoc _ later]
    · rw [hwithout, List.append_assoc _ later]

/-! ### Trees -/

/-- The items of trees are those of the first and those of the others. -/
theorem Syntax.itemsOfTrees_append (source : List Char) (first others : List Tree) :
    itemsOfTrees source (first ++ others) = do
      let earlier ← itemsOfTrees source first
      let later ← itemsOfTrees source others
      return earlier ++ later := by
  unfold itemsOfTrees
  rw [List.filter_append, List.mapM_append]

/-- The items of a node and of other trees are its item and theirs. -/
theorem Syntax.itemsOfTrees_cons_of_ofTree {source : List Char} {node : Tree} {item : Item}
    (h : Item.ofTree source node = .ok item) (others : List Tree) :
    itemsOfTrees source (node :: others) = (item :: ·) <$> itemsOfTrees source others := by
  cases node with
  | leaf token => cases h
  | node kind extent children =>
    unfold itemsOfTrees
    rw [List.filter_cons_of_pos rfl, List.mapM_cons, h]
    rfl

/-- The items of a file with one of its trees, and without it: both times the same tree is no item,
or the item of that tree is all that differs. -/
theorem Syntax.itemsOfTrees_without {source : List Char} {node : Tree} {item : Item}
    (h : Item.ofTree source node = .ok item) (before after : List Tree) :
    (∃ m, itemsOfTrees source (before ++ node :: after) = .error m ∧
        itemsOfTrees source (before ++ after) = .error m) ∨
      ∃ earlier later,
        itemsOfTrees source (before ++ node :: after) = .ok (earlier ++ item :: later) ∧
          itemsOfTrees source (before ++ after) = .ok (earlier ++ later) := by
  rw [itemsOfTrees_append, itemsOfTrees_append, itemsOfTrees_cons_of_ofTree h]
  cases itemsOfTrees source before with
  | error m => exact Or.inl ⟨m, rfl, rfl⟩
  | ok earlier =>
    cases itemsOfTrees source after with
    | error m => exact Or.inl ⟨m, rfl, rfl⟩
    | ok later => exact Or.inr ⟨earlier, later, rfl, rfl⟩

/-- **A declaration that violates a rule leaves nothing but a block of the report.** Let the second
stage describe the tree of a file, and the same tree without one of its declarations, whose
description meets a violation. Either both times the file is given up for the same reason, or both
times the descriptor is the same, and the reports differ in one block: the warnings about the
declaration and then its violation. -/
theorem build_without_refused [Expression.Capacity]
    {options : CompileOptions} {source : String} {c : Compilation}
    {extent : Option Syntax.Extent} {before after : List Syntax.Tree} {node : Syntax.Tree}
    {declaration : Syntax.Declaration} {f : Finding}
    (htree : c.tree = some (.node .file extent (before ++ node :: after)))
    (hnode : Syntax.Item.ofTree source.toList node = .ok (.declaration declaration))
    (hrefused : Descriptor.outcome
      (Descriptor.enumeration options.strictPlaceholders declaration) = .error (.violation f))
    (extent' : Option Syntax.Extent) :
    (∃ fault, c.build options source = .error fault ∧
        { c with tree := some (.node .file extent' (before ++ after)) }.build options source =
          .error fault) ∨
      ∃ c₁ c₂ d earlier later, c.build options source = .ok c₁ ∧
        { c with tree := some (.node .file extent' (before ++ after)) }.build options source =
          .ok c₂ ∧
        c₁.descriptor = some d ∧ c₂.descriptor = some d ∧
        c₁.report.diagnostics = earlier ++
          (Descriptor.refusal options.strictPlaceholders declaration f).map
            (Finding.diagnostic c.report.filename) ++ later ∧
        c₂.report.diagnostics = earlier ++ later := by
  rcases Syntax.itemsOfTrees_without hnode before after with
    ⟨m, hwith, hwithout⟩ | ⟨earlierItems, laterItems, hwith, hwithout⟩
  · exact Or.inl ⟨_, Compilation.build_of_misfit htree hwith,
      Compilation.build_of_misfit rfl hwithout⟩
  · rcases describe_without hrefused earlierItems laterItems with
      ⟨u, hgiven, hgiven'⟩ | ⟨d, earlier, later, hdescribed, hdescribed'⟩
    · exact Or.inl ⟨_, Compilation.build_of_unreadable htree hwith hgiven,
        Compilation.build_of_unreadable rfl hwithout hgiven'⟩
    · refine Or.inr ⟨_, _, d,
        c.report.diagnostics ++ earlier.map (Finding.diagnostic c.report.filename),
        later.map (Finding.diagnostic c.report.filename),
        Compilation.build_of_described htree hwith hdescribed,
        Compilation.build_of_described rfl hwithout hdescribed', rfl, rfl, ?_, ?_⟩
      · simp only [List.map_append, List.append_assoc]
      · simp only [List.map_append, List.append_assoc]

/-- The second of three declarations of one name is left out, with a warning about it: the third is
still reported as a repetition of the first, and only that. -/
theorem build_without_refused_repeated :
    ∃ c extent before node after c₁ c₂ d earlier later warning violation,
      Compilation.ofSource "enum A;\n#[x] enum A(T);\nenum A;" "<input>" = .ok c ∧
        c.tree = some (.node .file extent (before ++ node :: after)) ∧
        c.build {} "enum A;\n#[x] enum A(T);\nenum A;" = .ok c₁ ∧
        { c with tree := some (.node .file extent (before ++ after)) }.build {}
          "enum A;\n#[x] enum A(T);\nenum A;" = .ok c₂ ∧
        c₁.descriptor = some d ∧ c₂.descriptor = some d ∧
        c₁.report.diagnostics = earlier ++ [warning, violation] ++ later ∧
        c₂.report.diagnostics = earlier ++ later := by
  have hrun : ((Compilation.ofSource "enum A;\n#[x] enum A(T);\nenum A;"
      "<input>").toOption.any fun c =>
        (c.build {} "enum A;\n#[x] enum A(T);\nenum A;").toOption.isSome &&
          c.tree.any fun tree => (Syntax.fileItems "enum A;\n#[x] enum A(T);\nenum A;".toList
            tree).toOption.any fun items => items.any fun item => item.declaration?.any fun d =>
              (Descriptor.findings (Descriptor.enumeration true d)).length = 1 &&
                (Descriptor.violation? (Descriptor.enumeration true d)).isSome) = true := by
    decide +kernel
  obtain ⟨c, hc, hrun⟩ := (Option.any_eq_true _ _).mp hrun
  rw [Outcome.toOption_eq_some_iff] at hc
  obtain ⟨hbuilt, hrun⟩ := Bool.and_eq_true_iff.mp hrun
  obtain ⟨tree, htree, hrun⟩ := (Option.any_eq_true _ _).mp hrun
  obtain ⟨items, hitems, hrun⟩ := (Option.any_eq_true _ _).mp hrun
  obtain ⟨item, hitem, hrun⟩ := List.any_eq_true.mp hrun
  obtain ⟨declaration, hd, hrun⟩ := (Option.any_eq_true _ _).mp hrun
  obtain ⟨hfound, hviolation⟩ := Bool.and_eq_true_iff.mp hrun
  obtain ⟨warning, hwarning⟩ := List.length_eq_one_iff.mp (of_decide_eq_true hfound)
  obtain ⟨f, hf⟩ := Option.isSome_iff_exists.mp hviolation
  rw [Syntax.Item.declaration?_eq_some_iff] at hd
  rw [Outcome.toOption_eq_some_iff] at hitems
  obtain ⟨extent, before, node, after, rfl, hnode⟩ := Syntax.exists_node_of_fileItems hitems hitem
  rw [hd] at hnode
  rcases @build_without_refused _ {} _ c extent before after node declaration f htree hnode
    (Descriptor.violation?_eq_some_iff.mp hf) extent
    with ⟨fault, hfault, -⟩ | ⟨c₁, c₂, d, earlier, later, h₁, h₂, hd₁, hd₂, hr₁, hr₂⟩
  · rw [hfault] at hbuilt
    cases hbuilt
  · rw [Descriptor.refusal, hwarning] at hr₁
    exact ⟨c, extent, before, node, after, c₁, c₂, d, earlier, later, _, _, hc, htree, h₁, h₂, hd₁,
      hd₂, hr₁, hr₂⟩

end Errata
