import Errata.Descriptor.Names
import Mathlib.Data.List.Forall2
import Mathlib.Data.List.Nodup
import Mathlib.Data.List.ReduceOption

/-!
# Collisions of names

The names of a file are taken one by one, and a name that is taken already is a collision. After a
collision the rest of the enumeration takes no names, so that what is taken is only a part of what
stands before a name. The first collision still is the first repetition in the file, and no
collision is invented.

* `IsFree`: names of which none is taken already.
* `takeNames_of_isFree`, `takeNames_of_collides`: what taking the names of an enumeration leads to.
* `collisionsFrom_eq_nil_iff`, `head?_collisionsFrom`: there is no collision exactly if all names
  are free, and **the first collision is the first repetition**.
* `exists_repetition_of_mem`: every collision is a repetition.
* `collisions_eq_nil_of_warnings`: there is no collision if none is an error.
* **`collisions_are_repetitions`**: all of it, for the names of a file.
-/

namespace Errata.Descriptor

/-! ### The names of an enumeration -/

/-- Whether none of the names is taken already: they differ from each other and from those that are
taken. -/
structure IsFree (taken : List String) (names : List (String × Option Span)) : Prop where
  /-- They differ from each other. -/
  nodup : (names.map Prod.fst).Nodup
  /-- They differ from those that are taken. -/
  disjoint : ∀ name ∈ names.map Prod.fst, name ∉ taken

/-- Whether a name is taken, either beforehand or by one of the names before it. -/
def IsTaken (taken : List String) (before : List (String × Option Span)) (name : String) : Prop :=
  name ∈ taken ∨ name ∈ before.map Prod.fst

/-- No names are free. -/
theorem isFree_nil (taken : List String) : IsFree taken [] where
  nodup := List.nodup_nil
  disjoint := by simp

/-- Names are free, one name more: the first is not taken, and the others are free once it is. -/
theorem isFree_cons_iff {taken : List String} {name : String} {span : Option Span}
    {names : List (String × Option Span)} :
    IsFree taken ((name, span) :: names) ↔ name ∉ taken ∧ IsFree (name :: taken) names := by
  constructor
  · rintro ⟨hnodup, hdisjoint⟩
    rw [List.map_cons, List.nodup_cons] at hnodup
    rw [List.map_cons, List.forall_mem_cons] at hdisjoint
    refine ⟨hdisjoint.1, hnodup.2, fun other hm => ?_⟩
    rw [List.mem_cons, not_or]
    refine ⟨?_, hdisjoint.2 other hm⟩
    rintro rfl
    exact hnodup.1 hm
  · rintro ⟨hname, hnodup, hdisjoint⟩
    refine ⟨?_, ?_⟩
    · rw [List.map_cons, List.nodup_cons]
      exact ⟨fun hm => hdisjoint name hm List.mem_cons_self, hnodup⟩
    · rw [List.map_cons, List.forall_mem_cons]
      exact ⟨hname, fun other hm htaken => hdisjoint other hm (List.mem_cons_of_mem name htaken)⟩

/-- Names are free exactly if the first of them are, and the others once the first are taken. -/
theorem isFree_append_iff {taken : List String} {before names : List (String × Option Span)} :
    IsFree taken (before ++ names) ↔
      IsFree taken before ∧ IsFree ((before.map Prod.fst).reverse ++ taken) names := by
  induction before generalizing taken with
  | nil => simp [isFree_nil]
  | cons first before ih =>
    obtain ⟨name, span⟩ := first
    rw [List.cons_append, isFree_cons_iff, isFree_cons_iff, ih, and_assoc]
    simp

/-- **Free names are all taken.** -/
theorem takeNames_of_isFree {taken : List String} {names : List (String × Option Span)}
    (h : IsFree taken names) :
    takeNames taken names = ((names.map Prod.fst).reverse ++ taken, none) := by
  induction names generalizing taken with
  | nil => rfl
  | cons first names ih =>
    obtain ⟨name, span⟩ := first
    obtain ⟨hname, hfree⟩ := isFree_cons_iff.mp h
    rw [takeNames, if_neg (by simpa using hname), ih hfree]
    simp

/-- **Names are taken up to the first that is taken already**, which is a collision. -/
theorem takeNames_of_collides {taken : List String} {before after : List (String × Option Span)}
    {name : String} {span : Option Span} (hfree : IsFree taken before)
    (htaken : IsTaken taken before name) :
    takeNames taken (before ++ (name, span) :: after) =
      ((before.map Prod.fst).reverse ++ taken, some ⟨.nameCollision name, span⟩) := by
  induction before generalizing taken with
  | nil =>
    have hname : name ∈ taken := by simpa [IsTaken] using htaken
    rw [List.nil_append, takeNames, if_pos (by simpa using hname)]
    rfl
  | cons first before ih =>
    obtain ⟨other, otherSpan⟩ := first
    obtain ⟨hother, hfree⟩ := isFree_cons_iff.mp hfree
    have htaken' : IsTaken (other :: taken) before name := by
      simp only [IsTaken, List.map_cons, List.mem_cons] at htaken ⊢
      tauto
    rw [List.cons_append, takeNames, if_neg (by simpa using hother), ih hfree htaken']
    simp

/-- Names are free, or there is a first one that is taken already. -/
theorem isFree_or_collides (taken : List String) (names : List (String × Option Span)) :
    IsFree taken names ∨
      ∃ before name span after, names = before ++ (name, span) :: after ∧
        IsFree taken before ∧ IsTaken taken before name := by
  induction names generalizing taken with
  | nil => exact Or.inl (isFree_nil taken)
  | cons first names ih =>
    obtain ⟨name, span⟩ := first
    by_cases hname : name ∈ taken
    · exact Or.inr ⟨[], name, span, names, rfl, isFree_nil taken, Or.inl hname⟩
    · rcases ih (name :: taken) with hfree | ⟨before, other, otherSpan, after, rfl, hfree, htaken⟩
      · exact Or.inl (isFree_cons_iff.mpr ⟨hname, hfree⟩)
      · refine Or.inr ⟨(name, span) :: before, other, otherSpan, after, rfl,
          isFree_cons_iff.mpr ⟨hname, hfree⟩, ?_⟩
        simp only [IsTaken, List.map_cons, List.mem_cons] at htaken ⊢
        tauto

/-- Free names hold no name that is taken already. -/
theorem not_isFree_of_isTaken {taken : List String} {before after : List (String × Option Span)}
    {name : String} {span : Option Span} (h : IsTaken taken before name) :
    ¬IsFree taken (before ++ (name, span) :: after) := by
  rw [isFree_append_iff, isFree_cons_iff]
  rintro ⟨-, hname, -⟩
  apply hname
  simpa [IsTaken, or_comm] using h

/-- The first name that is taken already is the only such name. -/
theorem eq_of_isFree_of_isTaken {taken : List String}
    {before before' after after' : List (String × Option Span)} {name name' : String}
    {span span' : Option Span}
    (heq : before ++ (name, span) :: after = before' ++ (name', span') :: after')
    (hfree : IsFree taken before) (htaken : IsTaken taken before name)
    (hfree' : IsFree taken before') (htaken' : IsTaken taken before' name') :
    name = name' ∧ span = span' := by
  rcases List.append_eq_append_iff.mp heq with ⟨more, rfl, hmore⟩ | ⟨more, rfl, hmore⟩
  · cases more with
    | nil => exact Prod.mk.inj (List.cons.inj hmore).1
    | cons first more =>
      obtain ⟨rfl, -⟩ := List.cons.inj hmore
      exact absurd hfree' (not_isFree_of_isTaken htaken)
  · cases more with
    | nil => exact Prod.mk.inj (List.cons.inj hmore).1.symm
    | cons first more =>
      obtain ⟨rfl, -⟩ := List.cons.inj hmore
      exact absurd hfree (not_isFree_of_isTaken htaken')

/-! ### The names of several enumerations -/

/-- Collisions in enumerations of which the first has free names. -/
theorem collisionsFrom_cons_of_isFree {taken : List String} {e : Enumeration}
    (h : IsFree taken e.generatedNames) (es : List Enumeration) :
    collisionsFrom taken (e :: es) =
      collisionsFrom ((e.generatedNames.map Prod.fst).reverse ++ taken) es := by
  rw [collisionsFrom, takeNames_of_isFree h]
  rfl

/-- Collisions in enumerations of which the first has one. -/
theorem collisionsFrom_cons_of_collides {taken : List String} {e : Enumeration}
    {before after : List (String × Option Span)} {name : String} {span : Option Span}
    (heq : e.generatedNames = before ++ (name, span) :: after) (hfree : IsFree taken before)
    (htaken : IsTaken taken before name) (es : List Enumeration) :
    collisionsFrom taken (e :: es) =
      ⟨.nameCollision name, span⟩ ::
        collisionsFrom ((before.map Prod.fst).reverse ++ taken) es := by
  rw [collisionsFrom, heq, takeNames_of_collides hfree htaken]
  rfl

/-- The names that enumerations take, each with its place, in order. -/
def namesOf (es : List Enumeration) : List (String × Option Span) :=
  es.flatMap Enumeration.generatedNames

/-- **The first collision is the first repetition**: all names before it are free, and its name is
taken. There is none if all names are free. -/
theorem head?_collisionsFrom (taken : List String) (es : List Enumeration) :
    (IsFree taken (namesOf es) ∧ collisionsFrom taken es = []) ∨
      ∃ before name span after, namesOf es = before ++ (name, span) :: after ∧
        IsFree taken before ∧ IsTaken taken before name ∧
        (collisionsFrom taken es).head? = some ⟨.nameCollision name, span⟩ := by
  induction es generalizing taken with
  | nil => exact Or.inl ⟨isFree_nil taken, rfl⟩
  | cons e es ih =>
    have hnames : namesOf (e :: es) = e.generatedNames ++ namesOf es := List.flatMap_cons
    rcases isFree_or_collides taken e.generatedNames with
      hfree | ⟨before, name, span, after, heq, hfree, htaken⟩
    · -- The loop goes on with everything before it taken, as if there were one enumeration.
      rw [hnames, collisionsFrom_cons_of_isFree hfree]
      rcases ih ((e.generatedNames.map Prod.fst).reverse ++ taken) with
        ⟨hrest, hnil⟩ | ⟨before, name, span, after, heq, hrest, htaken, hhead⟩
      · exact Or.inl ⟨isFree_append_iff.mpr ⟨hfree, hrest⟩, hnil⟩
      · refine Or.inr ⟨e.generatedNames ++ before, name, span, after, ?_,
          isFree_append_iff.mpr ⟨hfree, hrest⟩, ?_, hhead⟩
        · rw [heq, List.append_assoc]
        · simp only [IsTaken, List.mem_append, List.mem_reverse, List.map_append] at htaken ⊢
          tauto
    · refine Or.inr ⟨before, name, span, after ++ namesOf es, ?_, hfree, htaken, ?_⟩
      · rw [hnames, heq, List.append_assoc, List.cons_append]
      · rw [collisionsFrom_cons_of_collides heq hfree htaken]
        rfl

/-- There is no collision exactly if all names are free. -/
theorem collisionsFrom_eq_nil_iff {taken : List String} {es : List Enumeration} :
    collisionsFrom taken es = [] ↔ IsFree taken (namesOf es) := by
  rcases head?_collisionsFrom taken es with
    ⟨hfree, hnil⟩ | ⟨before, name, span, after, heq, -, htaken, hhead⟩
  · exact iff_of_true hnil hfree
  · refine iff_of_false (fun hnil => ?_) (heq ▸ not_isFree_of_isTaken htaken)
    rw [hnil] at hhead
    cases hhead

/-- Whether a finding is the collision of one of the names of an enumeration. -/
def IsCollisionIn (e : Enumeration) (f : Finding) : Prop :=
  ∃ name span, (name, span) ∈ e.generatedNames ∧ f = ⟨.nameCollision name, span⟩

/-- **Every enumeration has at most one collision**, and that is one of its names. -/
theorem exists_collisionsFrom_eq (taken : List String) (es : List Enumeration) :
    ∃ found : List (Option Finding), collisionsFrom taken es = found.reduceOption ∧
      List.Forall₂ (fun e o => ∀ f ∈ o, IsCollisionIn e f) es found := by
  induction es generalizing taken with
  | nil => exact ⟨[], rfl, .nil⟩
  | cons e es ih =>
    rcases isFree_or_collides taken e.generatedNames with
      hfree | ⟨before, name, span, after, heq, hfree, htaken⟩
    · obtain ⟨found, hfound, hall⟩ := ih ((e.generatedNames.map Prod.fst).reverse ++ taken)
      refine ⟨none :: found, ?_, .cons (by simp) hall⟩
      rw [collisionsFrom_cons_of_isFree hfree, hfound, List.reduceOption_cons_of_none]
    · obtain ⟨found, hfound, hall⟩ := ih ((before.map Prod.fst).reverse ++ taken)
      refine ⟨some ⟨.nameCollision name, span⟩ :: found, ?_, .cons ?_ hall⟩
      · rw [collisionsFrom_cons_of_collides heq hfree htaken, hfound,
          List.reduceOption_cons_of_some]
      · rintro f ⟨⟩
        exact ⟨name, span, by simp [heq], rfl⟩

/-- **Every collision is a repetition**: its name stands among the names, and is taken beforehand or
by a name before it. -/
theorem exists_repetition_of_mem {taken : List String} {es : List Enumeration} {f : Finding}
    (h : f ∈ collisionsFrom taken es) :
    ∃ before name span after, namesOf es = before ++ (name, span) :: after ∧
      IsTaken taken before name ∧ f = ⟨.nameCollision name, span⟩ := by
  induction es generalizing taken with
  | nil => cases h
  | cons e es ih =>
    have hnames : namesOf (e :: es) = e.generatedNames ++ namesOf es := List.flatMap_cons
    -- What the first enumeration takes is among its names, whether or not it takes all of them.
    have hlater : ∀ {taken' : List String},
        (∀ name ∈ taken', name ∈ taken ∨ name ∈ e.generatedNames.map Prod.fst) →
        f ∈ collisionsFrom taken' es →
        ∃ before name span after, namesOf (e :: es) = before ++ (name, span) :: after ∧
          IsTaken taken before name ∧ f = ⟨.nameCollision name, span⟩ := by
      intro taken' htaken' hm
      obtain ⟨before, name, span, after, heq, htaken, hf⟩ := ih hm
      refine ⟨e.generatedNames ++ before, name, span, after, ?_, ?_, hf⟩
      · rw [hnames, heq, List.append_assoc]
      · rw [IsTaken, List.map_append, List.mem_append]
        rcases htaken with hname | hname
        · exact (htaken' name hname).imp_right Or.inl
        · exact Or.inr (Or.inr hname)
    rcases isFree_or_collides taken e.generatedNames with
      hfree | ⟨before, name, span, after, heq, hfree, htaken⟩
    · rw [collisionsFrom_cons_of_isFree hfree] at h
      refine hlater (fun name hm => ?_) h
      simpa [or_comm] using hm
    · rw [collisionsFrom_cons_of_collides heq hfree htaken] at h
      rcases List.mem_cons.mp h with hf | h
      · exact ⟨before, name, span, after ++ namesOf es,
          by rw [hnames, heq, List.append_assoc, List.cons_append], htaken, hf⟩
      · refine hlater (fun other hm => ?_) h
        rw [heq, List.map_append, List.mem_append]
        rcases List.mem_append.mp hm with hm | hm
        · exact Or.inr (Or.inl (List.mem_reverse.mp hm))
        · exact Or.inl hm

/-! ### The names of a file -/

/-- There is no collision if none is an error: every collision is one. -/
theorem collisions_eq_nil_of_warnings {d : Descriptor}
    (h : ∀ f ∈ d.collisions, f.problem.severity = .warning) : d.collisions = [] := by
  rw [List.eq_nil_iff_forall_not_mem]
  intro f hf
  obtain ⟨before, name, span, after, -, -, rfl⟩ := exists_repetition_of_mem hf
  cases h _ hf

/-- **Collisions are repetitions.** The names of a file have no collision exactly if they differ
from each other and from the names that are imported; every enumeration has at most one collision;
the first collision is that of the first name that is imported or repeats a name before it; and
every collision is that of such a name. -/
theorem collisions_are_repetitions (d : Descriptor) :
    (d.collisions = [] ↔
      ((namesOf d.enumerations).map Prod.fst).Nodup ∧
        ∀ name ∈ (namesOf d.enumerations).map Prod.fst,
          name ∉ d.imports.flatMap Import.boundNames) ∧
    (∃ found : List (Option Finding), d.collisions = found.reduceOption ∧
      List.Forall₂ (fun e o => ∀ f ∈ o, IsCollisionIn e f) d.enumerations found) ∧
    (∀ f, d.collisions.head? = some f ↔
      ∃ before name span after, namesOf d.enumerations = before ++ (name, span) :: after ∧
        IsFree (d.imports.flatMap Import.boundNames) before ∧
        IsTaken (d.imports.flatMap Import.boundNames) before name ∧
        f = ⟨.nameCollision name, span⟩) ∧
    ∀ f ∈ d.collisions,
      ∃ before name span after, namesOf d.enumerations = before ++ (name, span) :: after ∧
        IsTaken (d.imports.flatMap Import.boundNames) before name ∧
        f = ⟨.nameCollision name, span⟩ := by
  refine ⟨?_, exists_collisionsFrom_eq _ _, fun f => ?_, fun f hm => exists_repetition_of_mem hm⟩
  · exact collisionsFrom_eq_nil_iff.trans ⟨fun h => ⟨h.nodup, h.disjoint⟩, fun h => ⟨h.1, h.2⟩⟩
  · rcases head?_collisionsFrom (d.imports.flatMap Import.boundNames) d.enumerations with
      ⟨hfree, hnil⟩ | ⟨before, name, span, after, heq, hfree, htaken, hhead⟩
    · refine iff_of_false (by rw [Descriptor.collisions, hnil]; nofun) ?_
      rintro ⟨before, name, span, after, heq, -, htaken, -⟩
      exact not_isFree_of_isTaken htaken (heq ▸ hfree)
    · rw [Descriptor.collisions, hhead]
      constructor
      · rintro ⟨⟩
        exact ⟨before, name, span, after, heq, hfree, htaken, rfl⟩
      · rintro ⟨before', name', span', after', heq', hfree', htaken', rfl⟩
        obtain ⟨rfl, rfl⟩ :=
          eq_of_isFree_of_isTaken (heq.symm.trans heq') hfree htaken hfree' htaken'
        rfl

/-- The name of a constructor may be that of an imported module: it is the first name that is
taken. -/
theorem collision_with_imported_module :
    ∃ before name span after,
      namesOf [⟨"E", [⟨"E", "B", [], [], [], none, none⟩], false, none, none⟩] =
          before ++ (name, span) :: after ∧
        IsFree (Import.boundNames ⟨"import b.c", none⟩) before ∧
        IsTaken (Import.boundNames ⟨"import b.c", none⟩) before name ∧
        (⟨.nameCollision "b", none⟩ : Finding) = ⟨.nameCollision name, span⟩ :=
  ((collisions_are_repetitions
    ⟨[⟨"import b.c", none⟩],
      [⟨"E", [⟨"E", "B", [], [], [], none, none⟩], false, none, none⟩]⟩).2.2.1 _).mp
    (by decide)

end Errata.Descriptor
