import Errata.Error.Registration
import Errata.Proofs.Outcome
import Mathlib.Data.List.Nodup

/-!
# What registering leaves

The statements for an enumeration make its class and those of its variants and set these as
attributes, whatever was made before. What other statements make later leaves them alone, as long
as they take other names.

* `attached`, `registeredAttributes`: the attributes of an enumeration whose variants are
  registered.
* `Scene.after`, **`Scene.exec_classes`**: what the statements for an enumeration make of a scene.
* `Scene.Extends`: scenes with more names, and with more classes behind those of another.
* `Scene.IsRegistered`, `Scene.isRegistered_after`, `Scene.IsRegistered.extend`: **what is known of
  a registered enumeration**, right after the statements for it and later on.
* **`Scene.isRegistered_of_run`**, `Scene.exists_run`: so it is for all enumerations of a module,
  which can be run if it keeps the names of its support.
-/

namespace Errata.Error

open Descriptor (Enumeration Variant)

/-! ### Lists -/

/-- Changing the entry behind the first ones. -/
theorem modify_append_cons {α : Type} (front : List α) (a : α) (back : List α) (f : α → α) :
    (front ++ a :: back).modify front.length f = front ++ f a :: back := by
  induction front with
  | nil => rfl
  | cons b front ih => simpa using ih

/-- A key that is new is added at the end. -/
theorem setEntry_of_notMem {α : Type} {key : String} {entries : List (String × α)}
    (h : key ∉ entries.map Prod.fst) (value : α) :
    setEntry key value entries = entries ++ [(key, value)] := by
  induction entries with
  | nil => rfl
  | cons entry entries ih =>
    obtain ⟨k, v⟩ := entry
    simp only [List.map_cons, List.mem_cons, not_or] at h
    rw [setEntry, if_neg (by simpa using Ne.symm h.1), ih h.2, List.cons_append]

/-- A table of different keys holds its entries. -/
theorem Scene.table_of_nodup {entries : List (String × Nat)} (h : (entries.map Prod.fst).Nodup) :
    table entries = entries := by
  have hadd : ∀ made : List (String × Nat), ((made ++ entries).map Prod.fst).Nodup →
      entries.foldl (fun made entry => setEntry entry.1 entry.2 made) made = made ++ entries := by
    clear h
    induction entries with
    | nil => simp
    | cons entry entries ih =>
      obtain ⟨key, r⟩ := entry
      intro made hmade
      have hnew : key ∉ made.map Prod.fst := by
        rw [List.map_append, List.map_cons] at hmade
        exact fun hmem => List.disjoint_of_nodup_append hmade hmem List.mem_cons_self
      rw [List.foldl_cons, setEntry_of_notMem hnew, ih _ (by simpa using hmade)]
      simp
  exact hadd [] h

/-! ### Attributes -/

/-- The attributes of an enumeration after the classes of some variants were set. -/
def attached (numbered : List (Variant × Nat)) (own : List (String × Attribute)) :
    List (String × Attribute) :=
  numbered.foldl (fun own p => setEntry p.1.name (.variant p.2) own) own

/-- Other attributes are left alone. -/
theorem lookup_attached_of_ne {numbered : List (Variant × Nat)} {name : String}
    (h : ∀ p ∈ numbered, p.1.name ≠ name) (own : List (String × Attribute)) :
    (attached numbered own).lookup name = own.lookup name := by
  induction numbered generalizing own with
  | nil => rfl
  | cons p numbered ih =>
    rw [List.forall_mem_cons] at h
    rw [attached, List.foldl_cons, ← attached, ih h.2, lookup_setEntry_of_ne _ _ h.1.symm]

/-- Variants of different names are set each as its own attribute. -/
theorem lookup_attached {numbered : List (Variant × Nat)}
    (hnodup : (numbered.map fun p => p.1.name).Nodup) {v : Variant} {q : Nat}
    (h : (v, q) ∈ numbered) (own : List (String × Attribute)) :
    (attached numbered own).lookup v.name = some (.variant q) := by
  induction numbered generalizing own with
  | nil => cases h
  | cons p numbered ih =>
    rw [List.map_cons, List.nodup_cons] at hnodup
    rw [attached, List.foldl_cons, ← attached]
    rcases List.mem_cons.mp h with rfl | h
    · have hother : ∀ p ∈ numbered, p.1.name ≠ v.name := fun p hp heq =>
        hnodup.1 (heq ▸ List.mem_map_of_mem (f := fun p => p.1.name) hp)
      rw [lookup_attached_of_ne hother, lookup_setEntry_self]
    · exact ih hnodup.2 h _

/-- The attributes of an enumeration whose variants are registered, if the classes of the variants
are numbered from `first` on. -/
def registeredAttributes (e : Enumeration) (first : Nat) : List (String × Attribute) :=
  setEntry "variants" (.table ((e.variants.zipIdx first).map fun p => (p.1.name, p.2)))
    (attached (e.variants.zipIdx first) (ownAttributes e))

/-- The names of the classes of variants that are numbered from `first` on, the latest first. -/
def classNames (vs : List Variant) (first : Nat) : List (String × Referent) :=
  ((vs.zipIdx first).map fun p => (p.1.className, .variant p.2)).reverse

/-- The names of the classes of variants, one variant more. -/
theorem classNames_cons (v : Variant) (vs : List Variant) (first : Nat) :
    classNames (v :: vs) first =
      classNames vs (first + 1) ++ [(v.className, .variant first)] := by
  simp [classNames]

/-- Whether the names of an enumeration and of its variants can be told apart. -/
structure IsDistinct (e : Enumeration) : Prop where
  /-- Its variants know that they belong to it. -/
  owner : ∀ v ∈ e.variants, v.enumeration = e.name
  /-- The names of the classes differ. -/
  classes : (e.name :: e.variants.map Variant.className).Nodup
  /-- The names of the variants differ. -/
  variants : (e.variants.map Variant.name).Nodup

namespace Scene

variable {evaluate : List (String × Referent) → Variant → Except Failure Unit} {s t : Scene}

/-- The class of a variant of an enumeration, by the name that it is shown by. -/
def classOf (shown : Variant → String) (base : Nat) (v : Variant) : VariantClass :=
  ⟨v.className, shown v, base⟩

/-- What the statements for an enumeration make of a scene. -/
def after (s : Scene) (e : Enumeration) : Scene where
  names := classNames e.variants s.variants.length ++
    (e.name, .enumeration s.enumerations.length) :: s.names
  enumerations := s.enumerations ++ [registeredAttributes e s.variants.length]
  variants := s.variants ++
    e.variants.map (classOf (fun v => e.name ++ "." ++ v.name) s.enumerations.length)

/-! ### Statements -/

/-- The classes of variants are made one after the other. -/
theorem exec_variants {owner : String} {r : Nat} {vs : List Variant}
    (hname : s.names.lookup owner = some (.enumeration r))
    (hvs : ∀ v ∈ vs, v.enumeration = owner ∧ v.className ≠ owner) :
    (vs.map Statement.variant).foldlM (exec evaluate) s = .ok { s with
      names := classNames vs s.variants.length ++ s.names
      variants := s.variants ++ vs.map (classOf Variant.className r) } := by
  induction vs generalizing s with
  | nil => simp [classNames, pure, Except.pure]
  | cons v vs ih =>
    obtain ⟨⟨howner, hne⟩, hvs⟩ := List.forall_mem_cons.mp hvs
    have hfirst : exec evaluate s (.variant v) = .ok { s with
        names := (v.className, .variant s.variants.length) :: s.names
        variants := s.variants ++ [classOf Variant.className r v] } := by
      simp [exec, enumerationCalled, howner, hname, classOf, bind, Except.bind, pure, Except.pure]
    have hlater : ((v.className, Referent.variant s.variants.length) :: s.names).lookup owner =
        some (.enumeration r) := by
      rw [List.lookup_cons, beq_false_of_ne hne.symm]
      exact hname
    rw [List.map_cons, List.foldlM_cons, hfirst]
    refine (ih hlater hvs).trans ?_
    simp [classNames_cons]

/-- The classes of variants are shown by their new names and set as attributes one after the other.
-/
theorem exec_attach {e : Enumeration} {r : Nat} {vs : List Variant}
    {names : List (String × Referent)} {earlier : List (List (String × Attribute))}
    {own : List (String × Attribute)} {front : List VariantClass}
    (hname : names.lookup e.name = some (.enumeration earlier.length))
    (hvs : ∀ p ∈ vs.zipIdx front.length, names.lookup p.1.className = some (.variant p.2)) :
    (vs.flatMap fun v => [Statement.qualify e v, .attach e v]).foldlM (exec evaluate)
        ⟨names, earlier ++ [own], front ++ vs.map (classOf Variant.className r)⟩ =
      .ok ⟨names, earlier ++ [attached (vs.zipIdx front.length) own],
        front ++ vs.map (classOf (fun v => e.name ++ "." ++ v.name) r)⟩ := by
  induction vs generalizing front own with
  | nil => rfl
  | cons v vs ih =>
    rw [List.zipIdx_cons, List.forall_mem_cons] at hvs
    obtain ⟨hfirst, hvs⟩ := hvs
    have hsteps : [Statement.qualify e v, .attach e v].foldlM (exec evaluate)
        ⟨names, earlier ++ [own], front ++ (v :: vs).map (classOf Variant.className r)⟩ =
        .ok ⟨names, earlier ++ [setEntry v.name (.variant front.length) own],
          (front ++ [classOf (fun v => e.name ++ "." ++ v.name) r v]) ++
            vs.map (classOf Variant.className r)⟩ := by
      simp [exec, variantCalled, enumerationCalled, hfirst, hname, modify_append_cons, classOf,
        bind, Except.bind, pure, Except.pure]
    have hlength : (front ++ [classOf (fun v => e.name ++ "." ++ v.name) r v]).length =
        front.length + 1 := by simp
    rw [List.flatMap_cons, List.foldlM_append, hsteps]
    refine (ih (hlength ▸ hvs)).trans ?_
    simp [attached]

/-- The numbers of the classes of variants, by the names of the variants. -/
theorem mapM_variantCalled {names : List (String × Referent)}
    (earlier : List (List (String × Attribute))) (variants : List VariantClass)
    {vs : List Variant} {first : Nat}
    (hvs : ∀ p ∈ vs.zipIdx first, names.lookup p.1.className = some (.variant p.2)) :
    (vs.mapM fun v => do
      return (v.name, ← variantCalled ⟨names, earlier, variants⟩ v.className)) =
        .ok ((vs.zipIdx first).map fun p => (p.1.name, p.2)) := by
  rw [Outcome.mapM_eq_ok_iff]
  induction vs generalizing first with
  | nil => exact .nil
  | cons v vs ih =>
    rw [List.zipIdx_cons, List.forall_mem_cons] at hvs
    refine .cons ?_ (ih hvs.2)
    simp [variantCalled, hvs.1, bind, Except.bind, pure, Except.pure]

/-- The table of the variants is set. -/
theorem exec_list {e : Enumeration} {names : List (String × Referent)}
    {earlier : List (List (String × Attribute))} {own : List (String × Attribute)}
    {variants : List VariantClass} {first : Nat}
    (hname : names.lookup e.name = some (.enumeration earlier.length))
    (hvs : ∀ p ∈ e.variants.zipIdx first, names.lookup p.1.className = some (.variant p.2))
    (hnodup : (e.variants.map Variant.name).Nodup) :
    exec evaluate ⟨names, earlier ++ [own], variants⟩ (.list e) =
      .ok ⟨names, earlier ++ [setEntry "variants"
        (.table ((e.variants.zipIdx first).map fun p => (p.1.name, p.2))) own], variants⟩ := by
  have hentries := mapM_variantCalled (earlier ++ [own]) variants hvs
  have htable : table ((e.variants.zipIdx first).map fun p => (p.1.name, p.2)) =
      (e.variants.zipIdx first).map fun p => (p.1.name, p.2) := by
    refine table_of_nodup ?_
    have hkeys : ((e.variants.zipIdx first).map fun p => (p.1.name, p.2)).map Prod.fst =
        ((e.variants.zipIdx first).map Prod.fst).map Variant.name := by
      rw [List.map_map, List.map_map]
      rfl
    rw [hkeys, List.zipIdx_map_fst]
    exact hnodup
  simp only [exec]
  rw [hentries]
  simp [enumerationCalled, hname, htable, modify_append_cons, bind, Except.bind, pure, Except.pure]

/-- A name that no class of a variant takes is not among their names. -/
theorem lookup_classNames_eq_none {vs : List Variant} {name : String}
    (h : name ∉ vs.map Variant.className) (first : Nat) :
    (classNames vs first).lookup name = none := by
  refine List.lookup_eq_none_iff.mpr fun p hp => ?_
  obtain ⟨q, hq, rfl⟩ := List.mem_map.mp (List.mem_reverse.mp hp)
  have hmem : q.1 ∈ vs := List.fst_mem_of_mem_zipIdx hq
  exact bne_iff_ne.mpr fun heq => h (heq ▸ List.mem_map_of_mem hmem)

/-- The names of the classes of variants stand for these. -/
theorem lookup_classNames {vs : List Variant} (hnodup : (vs.map Variant.className).Nodup)
    (first : Nat) (names : List (String × Referent)) :
    ∀ p ∈ vs.zipIdx first,
      (classNames vs first ++ names).lookup p.1.className = some (.variant p.2) := by
  induction vs generalizing first names with
  | nil => exact List.forall_mem_nil _
  | cons v vs ih =>
    rw [List.map_cons, List.nodup_cons] at hnodup
    rw [List.zipIdx_cons, List.forall_mem_cons, classNames_cons, List.append_assoc]
    refine ⟨?_, ih hnodup.2 _ _⟩
    rw [List.lookup_append, lookup_classNames_eq_none hnodup.1, Option.none_or]
    exact List.lookup_cons_self

/-- **The statements for an enumeration** make its class and those of its variants, and register
these, if the support module is at hand. -/
theorem exec_classes {e : Enumeration} (h : IsDistinct e) :
    (Statement.classes e).foldlM (exec evaluate) s =
      (s.reach "_eg_rt" .runtime "ErrorEnum").map fun _ => s.after e := by
  obtain ⟨hfresh, hclasses⟩ := List.nodup_cons.mp h.classes
  have hvariants := lookup_classNames hclasses s.variants.length
    ((e.name, .enumeration s.enumerations.length) :: s.names)
  have hname : (classNames e.variants s.variants.length ++
      (e.name, .enumeration s.enumerations.length) :: s.names).lookup e.name =
        some (.enumeration s.enumerations.length) := by
    rw [List.lookup_append, lookup_classNames_eq_none hfresh, Option.none_or]
    exact List.lookup_cons_self
  cases hreach : s.reach "_eg_rt" .runtime "ErrorEnum" with
  | error f => simp [Statement.classes, exec, hreach, bind, Except.bind, Except.map]
  | ok u =>
    have hfirst : exec evaluate s (.enumeration e) = .ok { s with
        names := (e.name, .enumeration s.enumerations.length) :: s.names
        enumerations := s.enumerations ++ [ownAttributes e] } := by
      simp [exec, hreach, bind, Except.bind, pure, Except.pure]
    rw [Statement.classes, Statement.registering, List.cons_append, List.foldlM_cons, hfirst]
    show List.foldlM _ _ _ = _
    rw [List.foldlM_append, exec_variants List.lookup_cons_self fun v hv =>
      ⟨h.owner v hv, fun heq => hfresh (heq ▸ List.mem_map_of_mem hv)⟩]
    show List.foldlM _ _ _ = _
    rw [List.foldlM_append, exec_attach hname hvariants]
    show List.foldlM _ _ _ = _
    rw [List.foldlM_cons, exec_list hname hvariants h.variants]
    rfl

/-! ### Later scenes -/

/-- Whether a scene extends another one by some names: it has the same names otherwise, and more
classes behind those of the other at most. -/
structure Extends (s : Scene) (added : List String) (t : Scene) : Prop where
  /-- Other names stand for what they stood for. -/
  names : ∀ name ∉ added, t.names.lookup name = s.names.lookup name
  /-- The classes of enumerations are kept. -/
  enumerations : s.enumerations <+: t.enumerations
  /-- The classes of variants are kept. -/
  variants : s.variants <+: t.variants

/-- A scene extends itself. -/
theorem Extends.refl (s : Scene) : s.Extends [] s :=
  ⟨fun _ _ => rfl, List.prefix_rfl, List.prefix_rfl⟩

/-- What extends an extension extends the scene. -/
theorem Extends.trans {u : Scene} {added added' : List String} (h : s.Extends added t)
    (h' : t.Extends added' u) : s.Extends (added ++ added') u where
  names name hname := by
    rw [List.mem_append, not_or] at hname
    rw [h'.names name hname.2, h.names name hname.1]
  enumerations := h.enumerations.trans h'.enumerations
  variants := h.variants.trans h'.variants

/-- A scene with one name more. -/
theorem extends_cons (s : Scene) (name : String) (referent : Referent) :
    s.Extends [name] { s with names := (name, referent) :: s.names } where
  names other hother := by
    rw [List.lookup_cons, beq_false_of_ne (by simpa using hother)]
  enumerations := List.prefix_rfl
  variants := List.prefix_rfl

/-- The names that the statements for the classes of an enumeration take. -/
def namesOfClasses (e : Enumeration) : List String :=
  e.name :: e.variants.map Variant.className

/-- What the statements for an enumeration make extends a scene. -/
theorem extends_after (s : Scene) (e : Enumeration) :
    s.Extends (namesOfClasses e) (s.after e) where
  names name hname := by
    rw [namesOfClasses, List.mem_cons, not_or] at hname
    rw [after, List.lookup_append, lookup_classNames_eq_none hname.2, Option.none_or,
      List.lookup_cons, beq_false_of_ne hname.1]
  enumerations := List.prefix_append _ _
  variants := List.prefix_append _ _

/-! ### Registered enumerations -/

/-- Whether an enumeration is registered in a scene, with a number for its class, and numbers for
those of its variants from `first` on. -/
structure IsRegistered (s : Scene) (e : Enumeration) (number first : Nat) : Prop where
  /-- Its name stands for its class. -/
  named : s.names.lookup e.name = some (.enumeration number)
  /-- The names of the classes of its variants stand for these, which are shown by the name of the
  variant behind that of the enumeration, and are based on the class of the enumeration. -/
  classes : ∀ p ∈ e.variants.zipIdx first,
    s.names.lookup p.1.className = some (.variant p.2) ∧
      s.variants[p.2]? = some ⟨p.1.className, e.name ++ "." ++ p.1.name, number⟩
  /-- Its attributes are those that registering makes. -/
  attributes : s.enumerations[number]? = some (registeredAttributes e first)

/-- What holds for an enumeration after the statements for it. -/
theorem isRegistered_after {e : Enumeration} (h : IsDistinct e) (s : Scene) :
    (s.after e).IsRegistered e s.enumerations.length s.variants.length where
  named := by
    obtain ⟨hfresh, -⟩ := List.nodup_cons.mp h.classes
    rw [after, List.lookup_append, lookup_classNames_eq_none hfresh, Option.none_or]
    exact List.lookup_cons_self
  classes := by
    rintro ⟨v, q⟩ hp
    refine ⟨lookup_classNames (List.nodup_cons.mp h.classes).2 _ _ _ hp, ?_⟩
    obtain ⟨hfirst, hget⟩ := List.mk_mem_zipIdx_iff_le_and_getElem?_sub.mp hp
    simp [after, List.getElem?_append_right hfirst, hget, classOf]
  attributes := by simp [after]

/-- **A registered enumeration stays registered** where other names are taken. -/
theorem IsRegistered.extend {e : Enumeration} {number first : Nat} {added : List String}
    (h : s.IsRegistered e number first) (hext : s.Extends added t)
    (hother : ∀ name ∈ namesOfClasses e, name ∉ added) : t.IsRegistered e number first := by
  rw [namesOfClasses, List.forall_mem_cons, List.forall_mem_map] at hother
  have hkept : ∀ {α : Type} {as bs : List α} {i : Nat} {a : α}, as <+: bs → as[i]? = some a →
      bs[i]? = some a := by
    rintro α as bs i a ⟨more, rfl⟩ hget
    obtain ⟨hlt, -⟩ := List.getElem?_eq_some_iff.mp hget
    rw [List.getElem?_append_left hlt, hget]
  refine ⟨?_, fun p hp => ?_, hkept hext.enumerations h.attributes⟩
  · rw [hext.names _ hother.1, h.named]
  · obtain ⟨hname, hclass⟩ := h.classes p hp
    have hmem : p.1 ∈ e.variants := List.fst_mem_of_mem_zipIdx hp
    exact ⟨(hext.names _ (hother.2 p.1 hmem)).trans hname, hkept hext.variants hclass⟩

/-! ### Runs -/

/-- A module is reached if its name stands for it. -/
theorem reach_eq_ok_iff {name member : String} {expected : Referent} :
    s.reach name expected member = .ok () ↔ s.names.lookup name = some expected := by
  unfold reach
  split
  · next hnone => simp [hnone]
  · next found hfound =>
    rw [hfound, Option.some.injEq]
    split <;> simp_all

/-- The names that the header of a module imports its support under. -/
def supportNames : List String :=
  ["_eg_rt", "_eg_dataclasses"]

/-- Whether the support of a module goes by its names. -/
structure HasSupport (s : Scene) : Prop where
  /-- The support module does. -/
  runtime : s.names.lookup "_eg_rt" = some .runtime
  /-- So does the one for data classes. -/
  dataclasses : s.names.lookup "_eg_dataclasses" = some .dataclasses

/-- The support keeps its names if no other names are taken. -/
theorem HasSupport.extend {added : List String} (h : s.HasSupport) (hext : s.Extends added t)
    (hfree : ∀ name ∈ supportNames, name ∉ added) : t.HasSupport where
  runtime := (hext.names _ (hfree _ List.mem_cons_self)).trans h.runtime
  dataclasses :=
    (hext.names _ (hfree _ (List.mem_cons_of_mem _ List.mem_cons_self))).trans h.dataclasses

/-- The support has its names at first, unless something is imported under one of them. -/
theorem hasSupport_start {imported : List String} (hfree : ∀ name ∈ supportNames, name ∉ imported) :
    (start imported).HasSupport := by
  have hfirst : ∀ name ∈ supportNames, (start imported).names.lookup name =
      [("_eg_rt", Referent.runtime), ("_eg_dataclasses", .dataclasses)].lookup name := by
    intro name hname
    rw [start, List.lookup_append, List.lookup_eq_none_iff.mpr, Option.none_or]
    intro p hp
    obtain ⟨other, hmem, rfl⟩ := List.mem_map.mp (List.mem_reverse.mp hp)
    exact bne_iff_ne.mpr fun heq => hfree name hname (heq ▸ hmem)
  exact ⟨(hfirst _ List.mem_cons_self).trans (by decide),
    (hfirst _ (List.mem_cons_of_mem _ List.mem_cons_self)).trans (by decide)⟩

/-- The statements for an enumeration and for others, if they can be run. -/
theorem exec_classes_append {e : Enumeration} (h : IsDistinct e) {statements : List Statement}
    (hrun : (Statement.classes e ++ statements).foldlM (exec evaluate) s = .ok t) :
    statements.foldlM (exec evaluate) (s.after e) = .ok t := by
  rw [List.foldlM_append, exec_classes h] at hrun
  obtain ⟨u, hu, hrun⟩ := Outcome.bind_eq_ok_iff.mp hrun
  obtain ⟨-, -, rfl⟩ := Outcome.map_eq_ok_iff.mp hu
  exact hrun

/-- The statements for enumerations take their names. -/
theorem extends_of_exec_enumerations {es : List Enumeration} (hes : ∀ e ∈ es, IsDistinct e)
    (h : (es.flatMap Statement.classes).foldlM (exec evaluate) s = .ok t) :
    s.Extends (es.flatMap namesOfClasses) t := by
  induction es generalizing s with
  | nil =>
    cases h
    exact Extends.refl _
  | cons e es ih =>
    rw [List.forall_mem_cons] at hes
    exact (extends_after s e).trans (ih hes.2 (exec_classes_append hes.1 h))

/-- **The statements for enumerations** register each of them, if no name is taken twice. -/
theorem isRegistered_of_exec_enumerations {es : List Enumeration} (hes : ∀ e ∈ es, IsDistinct e)
    (hnames : (es.flatMap namesOfClasses).Nodup)
    (h : (es.flatMap Statement.classes).foldlM (exec evaluate) s = .ok t) :
    ∀ e ∈ es, ∃ number first, t.IsRegistered e number first := by
  induction es generalizing s with
  | nil => exact List.forall_mem_nil _
  | cons e es ih =>
    rw [List.forall_mem_cons] at hes ⊢
    rw [List.flatMap_cons, List.nodup_append] at hnames
    have hlater := exec_classes_append hes.1 h
    refine ⟨⟨_, _, (isRegistered_after hes.1 s).extend (extends_of_exec_enumerations hes.2 hlater)
      fun name hname hmem => ?_⟩, ih hes.2 hnames.2.1 hlater⟩
    exact hnames.2.2 name hname name hmem rfl

/-- The statements for enumerations can be run if none of them takes the name of a support. -/
theorem exists_exec_enumerations
    (evaluate : List (String × Referent) → Variant → Except Failure Unit) (hs : s.HasSupport)
    {es : List Enumeration} (hes : ∀ e ∈ es, IsDistinct e)
    (hfree : ∀ name ∈ supportNames, name ∉ es.flatMap namesOfClasses) :
    ∃ t, (es.flatMap Statement.classes).foldlM (exec evaluate) s = .ok t := by
  induction es generalizing s with
  | nil => exact ⟨s, rfl⟩
  | cons e es ih =>
    rw [List.forall_mem_cons] at hes
    simp only [List.flatMap_cons, List.mem_append, not_or] at hfree
    rw [List.flatMap_cons, List.foldlM_append, exec_classes hes.1, reach_eq_ok_iff.mpr hs.runtime]
    exact ih (hs.extend (extends_after s e) fun name hname => (hfree name hname).1) hes.2
      fun name hname => (hfree name hname).2

/-- The names that the statements for the use of a variant take. -/
def namesOfBinding (v : Variant) : List String :=
  v.name :: v.constructor?.toList

/-- The statements for the use of a variant take its names. -/
theorem extends_of_exec_binding {v : Variant}
    (h : (Statement.binding v).foldlM (exec evaluate) s = .ok t) :
    s.Extends (namesOfBinding v) t := by
  rw [Statement.binding, List.foldlM_cons] at h
  obtain ⟨u, hu, h⟩ := Outcome.bind_eq_ok_iff.mp h
  have hselector : s.Extends [v.name] u := by
    obtain ⟨-, -, hu⟩ := Outcome.bind_eq_ok_iff.mp hu
    obtain ⟨-, -, hu⟩ := Outcome.bind_eq_ok_iff.mp hu
    obtain ⟨-, -, hu⟩ := Outcome.bind_eq_ok_iff.mp hu
    cases hu
    exact extends_cons s _ _
  unfold namesOfBinding
  cases hname : v.constructor? with
  | none =>
    rw [hname] at h
    cases h
    exact hselector
  | some name =>
    rw [hname] at h
    cases h
    exact hselector.trans (extends_cons u name _)

/-- The statements for the use of variants take their names. -/
theorem extends_of_exec_bindings {vs : List Variant}
    (h : (vs.flatMap Statement.binding).foldlM (exec evaluate) s = .ok t) :
    s.Extends (vs.flatMap namesOfBinding) t := by
  induction vs generalizing s with
  | nil =>
    cases h
    exact Extends.refl _
  | cons v vs ih =>
    rw [List.flatMap_cons, List.foldlM_append] at h
    obtain ⟨u, hu, h⟩ := Outcome.bind_eq_ok_iff.mp h
    exact (extends_of_exec_binding hu).trans (ih h)

/-- The statements for the use of variants can be run if the types of causes can be evaluated, and
none of them takes the name of a support. -/
theorem exists_exec_bindings (hevaluate : ∀ names v, evaluate names v = .ok ()) (hs : s.HasSupport)
    {vs : List Variant} (hfree : ∀ name ∈ supportNames, name ∉ vs.flatMap namesOfBinding) :
    ∃ t, (vs.flatMap Statement.binding).foldlM (exec evaluate) s = .ok t := by
  induction vs generalizing s with
  | nil => exact ⟨s, rfl⟩
  | cons v vs ih =>
    simp only [List.flatMap_cons, List.mem_append, not_or] at hfree
    have hselector : exec evaluate s (.selector v) =
        .ok { s with names := (v.name, .selector) :: s.names } := by
      simp [exec, reach_eq_ok_iff.mpr hs.dataclasses, reach_eq_ok_iff.mpr hs.runtime, hevaluate,
        bind, Except.bind, pure, Except.pure]
    obtain ⟨u, hu⟩ : ∃ u, (Statement.binding v).foldlM (exec evaluate) s = .ok u := by
      rw [Statement.binding, List.foldlM_cons, hselector]
      cases v.constructor? <;> exact ⟨_, rfl⟩
    rw [List.flatMap_cons, List.foldlM_append, hu]
    exact ih (hs.extend (extends_of_exec_binding hu) fun name hname => (hfree name hname).1)
      fun name hname => (hfree name hname).2

/-- The names that a module takes. -/
def namesOfModule (d : Descriptor) : List String :=
  d.enumerations.flatMap namesOfClasses ++
    (d.enumerations.flatMap Enumeration.variants).flatMap namesOfBinding

/-- **Every run registers all enumerations**, if no name is taken twice. -/
theorem isRegistered_of_run {imported : List String} {d : Descriptor}
    (hd : ∀ e ∈ d.enumerations, IsDistinct e) (hnames : (namesOfModule d).Nodup)
    (h : run evaluate imported d = .ok t) :
    ∀ e ∈ d.enumerations, ∃ number first, t.IsRegistered e number first := by
  rw [run, Statement.ofDescriptor, List.foldlM_append] at h
  obtain ⟨u, hu, h⟩ := Outcome.bind_eq_ok_iff.mp h
  obtain ⟨hclasses, -, hother⟩ := List.nodup_append.mp hnames
  intro e he
  obtain ⟨number, first, hregistered⟩ := isRegistered_of_exec_enumerations hd hclasses hu e he
  refine ⟨number, first, hregistered.extend (extends_of_exec_bindings h) fun name hname hmem => ?_⟩
  exact hother name (List.mem_flatMap.mpr ⟨e, he, hname⟩) name hmem rfl

/-- **A module can be run** if the types of causes can be evaluated, and if neither an import nor a
statement takes the name of a support. -/
theorem exists_run {imported : List String} {d : Descriptor}
    (hevaluate : ∀ names v, evaluate names v = .ok ()) (hd : ∀ e ∈ d.enumerations, IsDistinct e)
    (hfree : ∀ name ∈ supportNames, name ∉ imported ++ namesOfModule d) :
    ∃ t, run evaluate imported d = .ok t := by
  simp only [namesOfModule, List.mem_append, not_or] at hfree
  have hclasses : ∀ name ∈ supportNames, name ∉ d.enumerations.flatMap namesOfClasses :=
    fun name hname => (hfree name hname).2.1
  have hs : (start imported).HasSupport := hasSupport_start fun name hname => (hfree name hname).1
  obtain ⟨u, hu⟩ := exists_exec_enumerations evaluate hs hd hclasses
  have hlater : u.HasSupport := hs.extend (extends_of_exec_enumerations hd hu) hclasses
  obtain ⟨t, ht⟩ := exists_exec_bindings hevaluate hlater fun name hname => (hfree name hname).2.2
  refine ⟨t, ?_⟩
  rw [run, Statement.ofDescriptor, List.foldlM_append, hu]
  exact ht

end Scene

end Errata.Error
