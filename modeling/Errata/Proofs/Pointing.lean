import Errata.Proofs.Compile
import Errata.Proofs.Descriptor.Origin
import Errata.Proofs.Descriptor.Severity
import Errata.Proofs.Safety

/-!
# Where diagnostics point

A syntax error is reported at a character of the source. Everything else is reported at the span of
a part of a declaration, at a name, or inside a literal; collisions of names are reported at the
names of enumerations and variants. All of these are spans of the source.

* `locatesIn_of_isLiteralIn`: what is found in a literal of the source is in the source.
* `isWithin_of_describe`: what describing the items of a file finds has spans that the items carry.
* **`compile_points_into_source`**: every diagnostic has a span, which starts at a character of the
  source and ends behind it, within a line or at its end.
-/

set_option linter.unusedSectionVars false

namespace Errata

namespace Descriptor

variable {S : Span → Prop}

/-! ### Literals -/

variable [Expression.Capacity]

/-- **What is found in a literal** of the source has a span in the source. -/
theorem locatesIn_of_isLiteralIn {source : List Char} {t : Syntax.Token}
    (h : t.IsLiteralIn source) : LocatesIn (Span.IsIn source) t := by
  obtain ⟨ht, hs⟩ := h
  refine ⟨fun strict f hf => ?_, fun strict m hm a ha => ?_⟩
  · obtain ⟨s, hspan, hinside⟩ := isInside_of_compileLiteral ht hs hf
    exact ⟨s, hspan, ht.isIn_of_isInside hinside⟩
  · obtain ⟨-, -, harguments⟩ := arguments_of_compileLiteral ht hs hm
    obtain ⟨s, hspan, hinside, -⟩ := harguments a ha
    exact ⟨s, hspan, ht.isIn_of_isInside hinside⟩

/-! ### Items -/

/-- What is found when an item is added to a file. -/
theorem isWithin_of_findings_addItem (strict : Bool) (d : Descriptor) {item : Syntax.Item}
    (h : item.Within S (LocatesIn S)) : ∀ f ∈ findings (addItem strict d item), f.IsWithin S := by
  cases item with
  | importModule => exact fun f hf => absurd hf List.not_mem_nil
  | importNames => exact fun f hf => absurd hf List.not_mem_nil
  | declaration declaration =>
    have hgraded := isGraded_enumeration strict h
    rw [findings_addItem_declaration]
    refine List.forall_mem_append.mpr ⟨fun f hf => (hgraded.warnings f hf).2, ?_⟩
    cases hmade : outcome (enumeration strict declaration) with
    | error e =>
      cases e with
      | violation f => simpa using (hgraded.error f hmade).2
      | unreadable u => simp
    | ok e =>
      dsimp only [addEnumeration]
      split
      · intro f hf
        obtain rfl := List.mem_singleton.mp hf
        exact (hgraded.holds e hmade).name
      · simp

/-- What is found when items are added to a file. -/
theorem isWithin_of_findings_addItems (strict : Bool) (d : Descriptor) {items : List Syntax.Item}
    (h : ∀ item ∈ items, item.Within S (LocatesIn S)) :
    ∀ f ∈ findings (items.foldlM (addItem strict) d), f.IsWithin S :=
  forall_findings_addItems
    (fun item hitem d => isWithin_of_findings_addItem strict d (h item hitem)) d

/-- The names that an enumeration takes stand where they are declared. -/
theorem isWithin_of_generatedNames {e : Enumeration} (h : e.IsWithin S) :
    ∀ n ∈ e.generatedNames, ∃ s, n.2 = some s ∧ S s := by
  refine List.forall_mem_cons.mpr ⟨h.name, fun n hn => ?_⟩
  obtain ⟨v, hv, hn⟩ := List.mem_flatMap.mp hn
  obtain ⟨name, -, rfl⟩ := List.mem_map.mp hn
  exact h.variants v hv

/-- A collision is found where the name is taken again. -/
theorem isWithin_of_takeNames {taken : List String} {names : List (String × Option Span)}
    (h : ∀ n ∈ names, ∃ s, n.2 = some s ∧ S s) :
    ∀ f ∈ (takeNames taken names).2, f.IsWithin S := by
  induction names generalizing taken with
  | nil => simp [takeNames]
  | cons n names ih =>
    obtain ⟨hn, hnames⟩ := List.forall_mem_cons.mp h
    obtain ⟨name, span⟩ := n
    rw [takeNames]
    split
    · rintro f ⟨⟩
      exact hn
    · exact ih hnames

/-- Collisions are found at the names of enumerations and variants. -/
theorem isWithin_of_collisionsFrom {taken : List String} {es : List Enumeration}
    (h : ∀ e ∈ es, e.IsWithin S) : ∀ f ∈ collisionsFrom taken es, f.IsWithin S := by
  induction es generalizing taken with
  | nil => exact fun f hf => absurd hf List.not_mem_nil
  | cons e es ih =>
    obtain ⟨he, hes⟩ := List.forall_mem_cons.mp h
    rw [collisionsFrom]
    refine List.forall_mem_append.mpr ⟨fun f hf => ?_, ih hes⟩
    exact isWithin_of_takeNames (isWithin_of_generatedNames he) f (Option.mem_toList.mp hf)

/-- **What describing the items of a file finds** has spans with a property that all spans of the
items have, and all that is found in their literals. -/
theorem isWithin_of_describe {strict : Bool} {items : List Syntax.Item} {description : Description}
    (h : ∀ item ∈ items, item.Within S (LocatesIn S))
    (hdescribe : describe strict items = .ok description) :
    ∀ f ∈ description.findings, f.IsWithin S := by
  obtain ⟨-, hfindings⟩ := describe_eq_ok_iff.mp hdescribe
  rw [hfindings]
  refine List.forall_mem_append.mpr ⟨isWithin_of_findings_addItems strict _ h, ?_⟩
  refine isWithin_of_collisionsFrom fun e he => ?_
  obtain ⟨declaration, hm, hmade⟩ := (describe_origin hdescribe).2 e he
  exact (isGraded_enumeration strict (h _ hm)).holds e hmade

end Descriptor

/-! ### Files -/

/-- The items of a file have spans in its source, and so has what is found in their literals. -/
theorem Syntax.Item.Within.locates [Expression.Capacity] {source : List Char} {item : Syntax.Item}
    (h : item.Within (Span.IsIn source) (Syntax.Token.IsLiteralIn source)) :
    item.Within (Span.IsIn source) (Descriptor.LocatesIn (Span.IsIn source)) := by
  cases item with
  | importModule => exact h
  | importNames => exact h
  | declaration d =>
    exact Syntax.Declaration.Within.mono (fun _ ht => Descriptor.locatesIn_of_isLiteralIn ht) h

/-- A syntax error is reported at a character of the source. -/
theorem Report.isIn_of_recordSyntaxError {source : List Char} {e : Syntax.SyntaxError}
    (h : e.span.IsIn source) {r r' : Report} (hr : r.diagnostics = [])
    (hrecord : r.recordSyntaxError e = some r') :
    ∀ d ∈ r'.diagnostics, ∃ s, d.span = some s ∧ s.IsIn source := by
  obtain ⟨detail, -, hrecord⟩ := Option.bind_eq_some_iff.mp hrecord
  obtain ⟨message, -, hrecord⟩ := Option.bind_eq_some_iff.mp hrecord
  cases hrecord
  have hline : e.line > 0 := by
    obtain ⟨line, c, hat, -⟩ := h.start
    unfold lineAt? at hat
    split at hat
    · next hpositive => exact hpositive
    · cases hat
  intro d hd
  rw [add, hr, List.nil_append] at hd
  obtain rfl := List.mem_singleton.mp hd
  exact ⟨e.span, if_pos hline, h⟩

/-- Findings are recorded with their spans. -/
theorem Report.isIn_of_record {S : Span → Prop} {r : Report} {findings : List Finding}
    (hr : ∀ d ∈ r.diagnostics, ∃ s, d.span = some s ∧ S s) (h : ∀ f ∈ findings, f.IsWithin S) :
    ∀ d ∈ (findings.foldl record r).diagnostics, ∃ s, d.span = some s ∧ S s := by
  induction findings generalizing r with
  | nil => exact hr
  | cons f findings ih =>
    obtain ⟨hf, hfindings⟩ := List.forall_mem_cons.mp h
    refine ih (fun d hd => ?_) hfindings
    rcases List.mem_append.mp hd with hd | hd
    · exact hr d hd
    · obtain rfl := List.mem_singleton.mp hd
      exact hf

/-- What parsing reports points into the source. -/
theorem Compilation.isIn_of_ofSource {source filename : String} {c : Compilation}
    (h : ofSource source filename = .ok c) :
    ∀ d ∈ c.report.diagnostics, ∃ s, d.span = some s ∧ s.IsIn source.toList := by
  unfold ofSource at h
  dsimp only at h
  cases hparse : Syntax.parse source.toList with
  | ok tree =>
    rw [hparse] at h
    cases h
    exact List.forall_mem_nil _
  | error e =>
    rw [hparse] at h
    cases e with
    | stuck => cases h
    | syntaxError e =>
      cases h
      dsimp only
      cases hrecord :
          Report.recordSyntaxError { source := some source, filename } e with
      | none => nofun
      | some report =>
        exact Report.isIn_of_recordSyntaxError (Syntax.isIn_of_parse_error hparse) rfl hrecord

/-- **Every diagnostic points into the source**: it has a span that starts at a character of the
source other than a line feed, ends behind its start, and reaches no further than to the end of the
line it ends on. -/
theorem compile_points_into_source [Expression.Capacity]
    (options : CompileOptions) {source filename : String}
    {c : Compilation} (h : compile options source filename = .ok c) :
    ∀ d ∈ c.report.diagnostics, ∃ s, d.span = some s ∧ s.IsIn source.toList := by
  obtain ⟨parsed, hparsed, h⟩ := Outcome.bind_eq_ok_iff.mp h
  obtain ⟨built, hbuilt, hgenerated⟩ := Outcome.bind_eq_ok_iff.mp h
  have hreported := Compilation.isIn_of_ofSource hparsed
  rw [(Compilation.eq_of_generate hgenerated).1]
  obtain ⟨parsed', hparsed', -, ⟨tree, htree, hparse, -⟩ | ⟨htree, -⟩⟩ :=
    Compilation.ofSource_cases source filename
  all_goals cases hparsed.symm.trans hparsed'
  · rcases Compilation.build_cases options hparse htree with
      ⟨u, hfault⟩ | ⟨items, description, hitems, hdescribe, hmade⟩
    · cases hbuilt.symm.trans hfault
    · cases hbuilt.symm.trans hmade
      have hwithin := Syntax.within_of_fileItems hparse hitems
      exact Report.isIn_of_record hreported
        (Descriptor.isWithin_of_describe (fun item hitem => (hwithin item hitem).locates) hdescribe)
  · rw [Compilation.build, htree] at hbuilt
    cases hbuilt
    exact hreported

/-- A placeholder without an argument is reported where it stands behind an escape, on the second
line of the source. -/
theorem compile_points_into_source_placeholder :
    ∃ c d s, compile {} "enum E \x7b\n  #[error = \"\\n\x7b\x7d\"] V\n\x7d\n" "<input>" = .ok c ∧
      d ∈ c.report.diagnostics ∧ d.label = "CE2002" ∧ d.span = some s ∧ s = ⟨2, 16, 2, 18⟩ ∧
      s.IsIn (String.toList "enum E \x7b\n  #[error = \"\\n\x7b\x7d\"] V\n\x7d\n") := by
  have hrun : ((compile {}
      "enum E \x7b\n  #[error = \"\\n\x7b\x7d\"] V\n\x7d\n" "<input>").toOption.any fun c =>
        c.report.diagnostics.any fun d =>
          d.label = "CE2002" && d.span = some ⟨2, 16, 2, 18⟩) = true := by decide +kernel
  obtain ⟨c, hc, hrun⟩ := (Option.any_eq_true _ _).mp hrun
  rw [Outcome.toOption_eq_some_iff] at hc
  obtain ⟨d, hd, hrun⟩ := List.any_eq_true.mp hrun
  obtain ⟨hlabel, hspan⟩ := Bool.and_eq_true_iff.mp hrun
  obtain ⟨s, hs, hin⟩ := compile_points_into_source {} hc d hd
  refine ⟨c, d, s, hc, hd, of_decide_eq_true hlabel, hs, ?_, hin⟩
  exact Option.some.inj (hs.symm.trans (of_decide_eq_true hspan))

end Errata
