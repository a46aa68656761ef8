import Errata.Proofs.Message.Segment

/-!
# Positional templates

A message is *positional* if its template has one field for each argument, in their order, and none
besides: no field has a name, and no specification holds fields of its own. Filling such a template
takes every argument once and asks for nothing else.

* `Message.IsPositional`: positional messages.
* `length_fields_template`: every format with a lone opening brace that is shown adds a field.
* **`isPositional_iff`**: a message is positional exactly if its segments keep in step, and then it
  is filled without a value missing, a name asked for or a value left over.
* `not_isPositional_nested`: a message that is not.
-/

namespace Errata.Template

/-! ### Fields of fields -/

/-- The fields in the specification of a field, which are filled before it. -/
def Field.nested (f : Field) : Except Fault (List Field) :=
  if .char '{' ∈ f.spec then (items f.spec).map fields else .ok []

/-- The field of a chunk is read behind its opening brace. -/
theorem exists_readField_of_next {template rest : Text} {chunk : Chunk} {field : Field}
    (h : next template = .ok (chunk, rest)) (hf : chunk.field = some field) :
    ∃ text, readField text = .ok (field, rest) := by
  unfold next at h
  split at h
  · obtain ⟨rfl, -⟩ := Prod.mk.inj (Except.ok.inj h)
    cases hf
  · obtain ⟨rfl, -⟩ := Prod.mk.inj (Except.ok.inj h)
    cases hf
  · cases h
  · next text _ =>
    obtain ⟨⟨read, after⟩, hread, heq⟩ := Outcome.map_eq_ok_iff.mp h
    obtain ⟨rfl, rfl⟩ := Prod.mk.inj heq
    cases hf
    exact ⟨text, hread⟩

/-- The braces in the specifications of a template's fields are balanced. -/
theorem count_spec_of_items {template : Text} {its : List Item} (h : items template = .ok its) :
    ∀ f ∈ fields its, f.spec.count (.char '}') = f.spec.count (.char '{') := by
  induction hn : template.length using Nat.strongRecOn generalizing template its with
  | ind n ih =>
    by_cases ht : template = []
    · subst ht
      obtain rfl : [] = its := by simpa using h
      simp
    obtain ⟨chunk, rest, more, hnext, hm, rfl⟩ := items_eq_ok ht h
    have hrest := ih rest.length (hn ▸ length_next_lt hnext ht) hm rfl
    cases hf : chunk.field with
    | none => simpa [Chunk.items, hf] using hrest
    | some field =>
      obtain ⟨text, hread⟩ := exists_readField_of_next hnext hf
      simpa [Chunk.items, hf] using ⟨count_spec_of_readField hread, hrest⟩

end Errata.Template

namespace Errata.Placeholder

open Outcome
open Template (Field Item fields items)

/-! ### Positional messages -/

/-- A message is positional if the fields of its template are the given ones, one for each argument,
without names and without fields in their specifications. -/
structure Message.IsPositional (m : Message) (own : List Field) : Prop where
  /-- The template has these fields. -/
  fields : (items m.template).map fields = .ok own
  /-- There are as many as arguments. -/
  length : own.length = m.arguments.length
  /-- They take the arguments in order. -/
  unnamed : ∀ f ∈ own, f.name = []
  /-- They take nothing besides. -/
  flat : ∀ f ∈ own, f.nested = .ok []

/-- Filling the template with one value for each argument fails only where formatting a value fails:
no value is missing and none is asked for by name. -/
def Message.IsFillable (m : Message) : Prop :=
  ∀ {α ε : Type} (values : List α)
    (format : α → Option Template.Conversion → Text → Except ε Text) (misfit : Template.Misfit α),
    values.length = m.arguments.length →
      Template.fill values Sum.inl (fun v conversion spec =>
        (format v conversion spec).mapError Sum.inr) m.template ≠ .error (Sum.inl misfit)

/-- A shown placeholder with a lone opening brace makes a field, and leaves one of the closing
braces behind it. -/
theorem exists_fields_of_shown {format rest : Text} {its : List Item} (hc : .char '}' ∉ format)
    (ho : hasLoneOpen format = true)
    (h : items (Segment.template (.shown format) ++ rest) = .ok its)
    (hp : ∀ f ∈ fields its, f.IsPlain) :
    ∃ more field, items (owing true ++ rest) = .ok more ∧ fields its = field :: fields more := by
  have hsplit : Segment.template (.shown format) ++ rest =
      .char '{' :: .char '{' :: (format ++ .char '}' :: (owing true ++ rest)) := by
    simp [Segment.template, owing]
  rw [hsplit, Template.items_cons_open, map_eq_ok_iff] at h
  obtain ⟨its, h, rfl⟩ := h
  simpa using items_loneOpen hc ho h (by simpa using hp)

/-- A format with a lone opening brace that is shown adds a field to the template. -/
theorem length_fields_template {segs : List Segment} (hc : ∀ s ∈ segs, s.IsCut)
    (hf : ∀ argument format, .field argument format ∈ segs → .char '{' ∉ format) (owed : Bool)
    {its : List Item} (h : items (owing owed ++ segs.flatMap Segment.template) = .ok its)
    (hp : ∀ f ∈ fields its, f.IsPlain) :
    (fields its).length =
      (segs.filterMap Segment.field?).length + segs.countP fun s => ¬ s.InStep := by
  -- a field that a format makes for itself takes one closing brace and leaves the other
  induction segs generalizing owed its with
  | nil =>
    cases owed with
    | false =>
      obtain rfl : [] = its := by simpa [owing] using h
      rfl
    | true =>
      rw [owing, if_pos rfl, List.singleton_append, Template.items_cons_lone_close (by simp)] at h
      cases h
  | cons s segs ih =>
    obtain ⟨hcut, hcuts⟩ := List.forall_mem_cons.mp hc
    have ih := ih hcuts fun argument format hm => hf argument format (List.mem_cons_of_mem s hm)
    rw [List.flatMap_cons] at h
    by_cases hclose : s = .swallowed ∨ s = .plain (.char '}')
    · -- these belong to the closing brace in front of them, or start another one
      obtain rfl | rfl := hclose
      · simpa [List.filterMap_cons] using ih owed h hp
      · cases owed with
        | false => simpa [List.filterMap_cons] using ih true h hp
        | true =>
          simp only [owing, if_true, Segment.template, List.singleton_append] at h
          rw [Template.items_cons_close, map_eq_ok_iff] at h
          obtain ⟨more, hm, rfl⟩ := h
          simpa [List.filterMap_cons] using ih false hm hp
    cases owed with
    | true =>
      have hlone : (s.template ++ segs.flatMap Segment.template).head? ≠ some (.char '}') := by
        cases s <;> simp_all [Segment.template]
      rw [owing, if_pos rfl, List.singleton_append, Template.items_cons_lone_close hlone] at h
      cases h
    | false =>
      replace h : items (s.template ++ segs.flatMap Segment.template) = .ok its := h
      cases s with
      | swallowed => simp at hclose
      | plain c =>
        rw [Segment.template, List.singleton_append,
          Template.items_cons_plain hcut (by simpa using hclose), map_eq_ok_iff] at h
        obtain ⟨more, hm, rfl⟩ := h
        simpa [List.filterMap_cons] using ih false hm hp
      | brace =>
        replace h : items (.char '{' :: .char '{' :: segs.flatMap Segment.template) = .ok its := h
        rw [Template.items_cons_open, map_eq_ok_iff] at h
        obtain ⟨more, hm, rfl⟩ := h
        simpa [List.filterMap_cons] using ih false hm hp
      | shown format =>
        obtain ⟨-, -, -, -, hno⟩ := id hcut
        by_cases hstep : hasLoneOpen format = false
        · rw [Segment.template, items_shown hno hstep, map_eq_ok_iff] at h
          obtain ⟨more, hm, rfl⟩ := h
          rw [Template.fields_text_append] at hp ⊢
          simpa [List.filterMap_cons, hstep] using ih false hm hp
        · have hopen : hasLoneOpen format = true := by simpa using hstep
          obtain ⟨more, field, hm, hfields⟩ := exists_fields_of_shown hno hopen h hp
          have hrest := ih true hm fun f hf => hp f (by simp [hfields, hf])
          simp [List.filterMap_cons, hopen, hfields, hrest]
          omega
      | field argument format =>
        have hstep := hf argument format List.mem_cons_self
        rw [items_template_field hcut hstep, map_eq_ok_iff] at h
        obtain ⟨more, hm, rfl⟩ := h
        have hrest := ih false hm fun f hf => hp f (by simp [hf])
        simp [hstep, hrest]
        omega

/-- No brace opens in the formats of a positional message. -/
theorem Message.IsPositional.not_mem {segs : List Segment} (hc : ∀ s ∈ segs, s.IsCut)
    (h : (ofSegments segs).IsPositional (segs.filterMap Segment.field?)) :
    ∀ argument format, .field argument format ∈ segs → .char '{' ∉ format := by
  intro argument format hm ho
  obtain ⟨its, hi, hfields⟩ := map_eq_ok_iff.mp h.fields
  have hown : fieldOfFormat format ∈ Template.fields its := by
    rw [hfields]
    exact List.mem_filterMap.mpr ⟨_, hm, rfl⟩
  -- the template would read a specification with a brace that opens and none that closes
  have hcount := Template.count_spec_of_items hi _ hown
  rw [List.count_eq_zero.mpr (not_mem_spec_fieldOfFormat (hc _ hm))] at hcount
  exact List.count_eq_zero.mp hcount.symm (mem_spec_fieldOfFormat (hc _ hm) ho)

/-- **A message is positional** exactly if its segments keep in step: no brace opens in the format
of a placeholder that takes an argument, and none stands alone in a format that is shown. Filling it
then fails only where formatting a value fails. -/
theorem isPositional_iff {strict : Bool} {literal : Text} {m : Message}
    (h : compile strict literal = .ok m) :
    ∃ segs, segments strict 0 literal = .ok segs ∧
      (m.IsPositional (segs.filterMap Segment.field?) ↔ ∀ s ∈ segs, s.InStep) ∧
      ((∀ s ∈ segs, s.InStep) → m.IsFillable) := by
  obtain ⟨segs, its, hsegs, hits, rfl⟩ := compile_eq_ok_iff.mp h
  have hc := isCut_of_segments hsegs
  have hread : (∀ s ∈ segs, s.InStep) → fields its = segs.filterMap Segment.field? := by
    intro hs
    have htemplate := items_template hc hs false
    rw [show owing false ++ segs.flatMap Segment.template = (Message.ofSegments segs).template
      from rfl, hits] at htemplate
    cases hr : readInStep false segs with
    | none => simp [hr] at htemplate
    | some read =>
      rw [hr] at htemplate
      obtain rfl : its = read := by simpa using htemplate
      exact fields_readInStep hr
  have hplain : (∀ s ∈ segs, s.InStep) → ∀ f ∈ fields its, f.IsPlain := by
    intro hs
    rw [hread hs]
    exact isPlain_of_inStep hc fun argument format hm => hs _ hm
  refine ⟨segs, hsegs, ⟨fun hpos => ?_, fun hs => ?_⟩, fun hs α ε values format misfit hl hf => ?_⟩
  · have hno := hpos.not_mem hc
    obtain ⟨its', hi, hfields⟩ := map_eq_ok_iff.mp hpos.fields
    obtain rfl : its = its' := by simpa [hits] using hi
    have hlen := length_fields_template hc hno false hits
      (hfields ▸ isPlain_of_inStep hc hno)
    rw [hfields] at hlen
    have hzero : (segs.countP fun s => ¬ s.InStep) = 0 := by omega
    simpa using hzero
  · refine ⟨by rw [hits, Except.map, hread hs], length_filterMap_field? segs, ?_, ?_⟩
    · exact fun f hf => (hplain hs f (hread hs ▸ hf)).name
    · exact fun f hf => if_neg (hplain hs f (hread hs ▸ hf)).spec
  · have hvalues : (fields its).length ≤ values.length := by
      rw [hread hs, length_filterMap_field?, hl]
      exact Nat.le_refl _
    rw [Template.fill_eq_render values _ _ hits (hplain hs) hvalues] at hf
    obtain ⟨v, conversion, spec, hv⟩ := Template.exists_format_of_render hf
    cases hfmt : format v conversion spec <;> simp [hfmt] at hv

/-- A format without braces keeps its message positional. -/
theorem isPositional_width :
    ∃ m, compile true (Text.ofString "\x7bx!r:>4\x7d") = .ok m ∧ m.IsFillable := by
  have h : compile true (Text.ofString "\x7bx!r:>4\x7d") =
      .ok ⟨Text.ofString "\x7b!r:>4\x7d", [⟨Text.ofString "x", 1⟩]⟩ := by decide +kernel
  obtain ⟨segs, hsegs, -, hfill⟩ := isPositional_iff h
  refine ⟨_, h, hfill ?_⟩
  obtain rfl : [.field ⟨Text.ofString "x", 1⟩ (Text.ofString "!r:>4")] = segs := by
    have hcut : segments true 0 (Text.ofString "\x7bx!r:>4\x7d") =
        .ok [.field ⟨Text.ofString "x", 1⟩ (Text.ofString "!r:>4")] := by decide +kernel
    exact Except.ok.inj (hcut.symm.trans hsegs)
  decide

/-- A message whose template holds a field in a specification, which asks for a value by name. -/
theorem not_isPositional_nested :
    ∃ m, compile true (Text.ofString "\x7bx:\x7bw\x7dy\x7d") = .ok m ∧
      (∀ own, ¬ m.IsPositional own) ∧ ¬ m.IsFillable := by
  refine ⟨⟨Text.ofString "\x7b:\x7bw\x7dy\x7d", [⟨Text.ofString "x", 1⟩]⟩,
    by decide +kernel, fun own hpos => ?_, fun hfill => ?_⟩
  · have hfields : (items (Text.ofString "\x7b:\x7bw\x7dy\x7d")).map fields =
        .ok [⟨[], none, Text.ofString "\x7bw\x7dy"⟩] := by decide +kernel
    obtain rfl := Except.ok.inj (hfields.symm.trans hpos.fields)
    have hflat := hpos.flat _ List.mem_cons_self
    revert hflat
    decide +kernel
  · refine hfill (ε := Unit) [()] (fun _ _ _ => .ok []) (.named (Text.ofString "w")) rfl ?_
    cbv

end Errata.Placeholder
