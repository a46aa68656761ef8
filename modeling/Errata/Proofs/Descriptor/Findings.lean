import Errata.Compile
import Errata.Proofs.Descriptor.Build

/-!
# What is found

A steady step adds the same to what was found, whatever that is. These are its findings, and with
what the step makes they say all there is to say about it. Findings become diagnostics of a report,
in the same order.

* `findings`: what a step finds when nothing was found before it.
* **`IsSteady.run_eq`**: a run of a steady step.
* `findings_bind_of_ok`, `findings_bind_of_error`, `mem_findings_bind_iff`: what two steps find;
  `bind_congr_of_ok`: what the second of them is matters only on what the first makes.
* `findings_addItem_declaration`: what is found when a declaration is added to a file.
* **`describe_eq_ok_iff`**: what describing a file makes and finds.
* `Report.foldl_record`: findings in a report.
-/

namespace Errata

namespace Descriptor

variable {α β : Type}

/-! ### Findings of steps -/

/-- What a step finds when nothing was found before it. -/
def findings (x : Describing α) : List Finding :=
  (x.run.run []).2

/-- **A run of a steady step** makes its outcome and adds its findings. -/
theorem IsSteady.run_eq {x : Describing α} (hx : IsSteady x) (found : List Finding) :
    x.run.run found = (outcome x, found ++ findings x) := by
  obtain ⟨more, hx⟩ := hx
  have hmore : findings x = more := by
    rw [findings, hx, List.nil_append]
  rw [hmore]
  exact hx found

/-- Handing on a value finds nothing. -/
@[simp] theorem findings_pure (a : α) : findings (pure a : Describing α) = [] := rfl

/-- Meeting an obstacle adds nothing to what was found. -/
@[simp] theorem findings_throw (e : Obstacle) : findings (throw e : Describing α) = [] := rfl

/-- Meeting a violation adds nothing to what was found. -/
@[simp] theorem findings_refuse (problem : Problem) (span : Span) :
    findings (refuse problem span : Describing α) = [] := rfl

/-- What is noted is found. -/
@[simp] theorem findings_note (problem : Problem) (span : Option Span) :
    findings (note problem span) = [⟨problem, span⟩] := rfl

/-- If the first of two steps makes something, both find what each of them finds. -/
theorem findings_bind_of_ok {x : Describing α} {f : α → Describing β} (hx : IsSteady x) {a : α}
    (ha : outcome x = .ok a) (hf : IsSteady (f a)) :
    findings (x >>= f) = findings x ++ findings (f a) := by
  rw [findings, Outcome.run_bind, hx.run_eq, ha]
  show ((f a).run.run ([] ++ findings x)).2 = findings x ++ findings (f a)
  rw [hf.run_eq, List.nil_append]

/-- If the first of two steps meets an obstacle, the second finds nothing more. -/
theorem findings_bind_of_error {x : Describing α} {f : α → Describing β} (hx : IsSteady x)
    {e : Obstacle} (he : outcome x = .error e) : findings (x >>= f) = findings x := by
  rw [findings, Outcome.run_bind, hx.run_eq, he]
  rfl

/-- If the first of two steps meets an obstacle, both do. -/
theorem outcome_bind_of_error {x : Describing α} {f : α → Describing β} (hx : IsSteady x)
    {e : Obstacle} (he : outcome x = .error e) : outcome (x >>= f) = .error e := by
  have hnone : ∀ a, outcome x = .ok a → IsSteady (f a) := fun a ha => nomatch he.symm.trans ha
  rw [outcome_bind hx hnone, he]
  rfl

/-- It only matters what the second of two steps does with what the first makes. -/
theorem bind_congr_of_ok {x : Describing α} {f g : α → Describing β} (hx : IsSteady x)
    (h : ∀ a, outcome x = .ok a → f a = g a) : x >>= f = x >>= g := by
  apply ExceptT.ext
  apply StateT.ext
  intro found
  show (x >>= f).run.run found = (x >>= g).run.run found
  rw [Outcome.run_bind, Outcome.run_bind, hx.run_eq]
  cases hmade : outcome x with
  | error e => rfl
  | ok a =>
    dsimp only
    rw [h a hmade]

/-- If the first of two steps meets an obstacle, it does not matter what the second is. -/
theorem bind_eq_bind_of_error {x : Describing α} {f g : α → Describing β} (hx : IsSteady x)
    {e : Obstacle} (he : outcome x = .error e) : x >>= f = x >>= g :=
  bind_congr_of_ok hx fun _ ha => nomatch he.symm.trans ha

/-- What the first of two steps finds is found. -/
theorem findings_subset_bind {x : Describing α} {f : α → Describing β} (hx : IsSteady x)
    (hf : ∀ a, IsSteady (f a)) : findings x ⊆ findings (x >>= f) := by
  cases hmade : outcome x with
  | error e =>
    rw [findings_bind_of_error hx hmade]
    exact List.Subset.refl _
  | ok a =>
    rw [findings_bind_of_ok hx hmade (hf a)]
    exact List.subset_append_left _ _

/-- What two steps find: what the first of them finds and, if it makes something, what the second
finds. -/
theorem mem_findings_bind_iff {x : Describing α} {f : α → Describing β} (hx : IsSteady x)
    (hf : ∀ a, outcome x = .ok a → IsSteady (f a)) {g : Finding} :
    g ∈ findings (x >>= f) ↔
      g ∈ findings x ∨ ∃ a, outcome x = .ok a ∧ g ∈ findings (f a) := by
  cases hmade : outcome x with
  | error e => simp [findings_bind_of_error hx hmade]
  | ok a => simp [findings_bind_of_ok hx hmade (hf a hmade)]

/-- Noting findings finds them. -/
theorem findings_notes (found : List Finding) :
    findings (found.forM fun f => note f.problem f.span) = found := by
  induction found with
  | nil => rfl
  | cons f rest ih =>
    have hrest := (yields_forM (fun f : Finding => yields_note f.problem f.span) rest).steady
    show findings (note f.problem f.span >>= fun _ =>
      rest.forM fun f => note f.problem f.span) = f :: rest
    rw [findings_bind_of_ok (isSteady_note _ _) (outcome_note _ _) hrest, ih]
    rfl

/-- The violation that a step meets. -/
def violation? (x : Describing α) : Option Finding :=
  match outcome x with
  | .ok _ => none
  | .error (.violation f) => some f
  | .error (.unreadable _) => none

/-- The violation that a step meets is its outcome. -/
theorem violation?_eq_some_iff {x : Describing α} {f : Finding} :
    violation? x = some f ↔ outcome x = .error (.violation f) := by
  unfold violation?
  cases outcome x with
  | ok a => simp
  | error e => cases e <;> simp

/-! ### Findings in files -/

variable [Expression.Capacity]

/-- What is found when a declaration is added to a file: what describing it finds, and then the
violation that it meets, or that there is an enumeration of its name. -/
theorem findings_addItem_declaration (strict : Bool) (d : Descriptor)
    (declaration : Syntax.Declaration) :
    findings (addItem strict d (.declaration declaration)) =
      findings (enumeration strict declaration) ++
        match outcome (enumeration strict declaration) with
        | .ok e => findings (addEnumeration d e)
        | .error (.violation f) => [f]
        | .error (.unreadable _) => [] := by
  have hsteady := isSteady_enumeration strict declaration
  show ((tryCatch (enumeration strict declaration >>= addEnumeration d) (noted d)).run.run []).2 = _
  rw [run_tryCatch, Outcome.run_bind, hsteady.run_eq, List.nil_append]
  cases outcome (enumeration strict declaration) with
  | error e =>
    cases e with
    | violation f => rfl
    | unreadable u => exact (List.append_nil _).symm
  | ok e =>
    obtain ⟨d', hd'⟩ := exists_outcome_addEnumeration d e
    dsimp only
    rw [(isSteady_addEnumeration d e).run_eq, hd']

/-- A declaration that violates a rule leaves the file as it is. What describing it finds is found,
and then the violation. -/
theorem addItem_of_violation {strict : Bool} {declaration : Syntax.Declaration} {f : Finding}
    (h : outcome (enumeration strict declaration) = .error (.violation f)) (d : Descriptor) :
    outcome (addItem strict d (.declaration declaration)) = .ok d ∧
      findings (addItem strict d (.declaration declaration)) =
        findings (enumeration strict declaration) ++ [f] := by
  rw [(outcome_addItem_declaration strict d declaration).2, findings_addItem_declaration, h]
  exact ⟨rfl, rfl⟩

/-- What is found when items are added to a file has every property that it has when one of them is
added to any file. -/
theorem forall_findings_addItems {P : Finding → Prop} {strict : Bool} {items : List Syntax.Item}
    (h : ∀ item ∈ items, ∀ d, ∀ f ∈ findings (addItem strict d item), P f) (d : Descriptor) :
    ∀ f ∈ findings (items.foldlM (addItem strict) d), P f := by
  induction items generalizing d with
  | nil => exact fun f hf => absurd hf List.not_mem_nil
  | cons item items ih =>
    obtain ⟨hitem, hitems⟩ := List.forall_mem_cons.mp h
    intro f hf
    rw [List.foldlM_cons] at hf
    rcases (mem_findings_bind_iff (isSteady_addItem strict d item) fun first _ =>
      isSteady_addItems strict first items).mp hf with hf | ⟨first, -, hf⟩
    · exact hitem d f hf
    · exact ih hitems first f hf

/-- What describing items makes and finds: what adding them makes and finds, and the collisions
among their names. -/
theorem run_describing (strict : Bool) (items : List Syntax.Item) :
    (describing strict items).run.run [] =
      (outcome (items.foldlM (addItem strict) ⟨[], []⟩),
        findings (items.foldlM (addItem strict) ⟨[], []⟩) ++
          match outcome (items.foldlM (addItem strict) ⟨[], []⟩) with
          | .ok d => d.collisions
          | .error _ => []) := by
  have hitems := isSteady_addItems strict ⟨[], []⟩ items
  have hnotes (d : Descriptor) : IsSteady (d.collisions.forM fun f => note f.problem f.span) :=
    (yields_forM (fun f => yields_note _ _) _).steady
  rw [describing, Outcome.run_bind, hitems.run_eq, List.nil_append]
  cases outcome (items.foldlM (addItem strict) ⟨[], []⟩) with
  | error e =>
    dsimp only
    rw [List.append_nil]
  | ok d =>
    dsimp only
    rw [Outcome.run_bind, (hnotes d).run_eq, outcome_notes, findings_notes]
    rfl

end Descriptor

/-- **What describing a file makes and finds**: the file that adding its items makes, and what
adding them finds, followed by the collisions among their names. -/
theorem describe_eq_ok_iff [Expression.Capacity]
    {strict : Bool} {items : List Syntax.Item} {description : Description} :
    describe strict items = .ok description ↔
      Descriptor.outcome (items.foldlM (Descriptor.addItem strict) ⟨[], []⟩) =
          .ok description.descriptor ∧
        description.findings =
          Descriptor.findings (items.foldlM (Descriptor.addItem strict) ⟨[], []⟩) ++
            description.descriptor.collisions := by
  have hviolation : ∀ f, Descriptor.outcome (items.foldlM (Descriptor.addItem strict) ⟨[], []⟩) ≠
      .error (.violation f) := fun _ => Descriptor.addItems_ne_violation
  rw [describe, Descriptor.run_describing]
  obtain ⟨d, found⟩ := description
  cases hmade : Descriptor.outcome (items.foldlM (Descriptor.addItem strict) ⟨[], []⟩) with
  | error e =>
    cases e with
    | violation f => exact absurd hmade (hviolation f)
    | unreadable u =>
      constructor
      · intro h
        cases h
      · rintro ⟨h, -⟩
        cases h
  | ok made =>
    simp only [Except.ok.injEq, Description.mk.injEq]
    constructor
    · rintro ⟨rfl, rfl⟩
      exact ⟨rfl, rfl⟩
    · rintro ⟨rfl, rfl⟩
      exact ⟨rfl, rfl⟩

/-- A file is not described if adding its items meets an argument that cannot be read. -/
theorem describe_eq_error_iff [Expression.Capacity] {strict : Bool} {items : List Syntax.Item}
    {u : Descriptor.Unreadable} :
    describe strict items = .error u ↔
      Descriptor.outcome (items.foldlM (Descriptor.addItem strict) ⟨[], []⟩) =
        .error (.unreadable u) := by
  have hviolation : ∀ f, Descriptor.outcome (items.foldlM (Descriptor.addItem strict) ⟨[], []⟩) ≠
      .error (.violation f) := fun _ => Descriptor.addItems_ne_violation
  rw [describe, Descriptor.run_describing]
  cases hmade : Descriptor.outcome (items.foldlM (Descriptor.addItem strict) ⟨[], []⟩) with
  | error e =>
    cases e with
    | violation f => exact absurd hmade (hviolation f)
    | unreadable v => simp
  | ok made =>
    constructor
    · intro h
      cases h
    · intro h
      cases h

/-! ### Findings in reports -/

/-- The diagnostic of a finding in a file of the given name. -/
def Finding.diagnostic (filename : String) (f : Finding) : Diagnostic where
  severity := f.problem.severity
  label := f.problem.code.entry.label
  message := f.problem.message
  span := f.span
  filename := filename

/-- Findings are put at the end of a report, in order. -/
theorem Report.foldl_record (r : Report) (found : List Finding) :
    found.foldl record r =
      { r with diagnostics := r.diagnostics ++ found.map (Finding.diagnostic r.filename) } := by
  induction found generalizing r with
  | nil => simp
  | cons f found ih =>
    rw [List.foldl_cons, ih]
    simp [record, add, Finding.diagnostic]

end Errata
