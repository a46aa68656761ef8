import Errata.Proofs.Descriptor.Names
import Errata.Proofs.Descriptor.Severity
import Errata.Proofs.Descriptor.WellFormed

/-!
# Names in messages that are not those of fields

A message may show a bare name. If that is no field of the variant, it is a name of the module in
which the message is shown, and this deserves a warning. The warnings are given when all fields of
the variant are known, for one argument after the other. Whether an argument is a bare name is
decided on its text as it is written, with the white space around it; the expression that is made
of it has none.

* `Argument.ReadsModule`: arguments that show a name of the module.
* `Variant.outsiders`: those of them that are written without white space around.
* `Tells`: steps of which it matters what they make and which names they warn about; `Tells.bind`
  puts them together.
* **`tells_variant`**: describing a variant warns about its outsiders, one after the other.
* **`outsiders_of_describe`**: so does describing a file without errors.
-/

set_option linter.unusedSectionVars false

namespace Errata

namespace Descriptor

/-! ### Arguments -/

/-- Whether the expression of an argument is a bare name. -/
def Argument.IsBareName (a : Argument) : Prop :=
  Unicode.isIdentifier a.expression.toList = true ∧ isKeyword a.expression = false

instance (a : Argument) : Decidable a.IsBareName :=
  inferInstanceAs (Decidable (_ ∧ _))

/-- Whether an argument of a variant shows a name of the module: its expression is a bare name that
is no field. -/
def Argument.ReadsModule (v : Variant) (a : Argument) : Prop :=
  a.IsBareName ∧ a.expression ∉ v.fieldNames

instance (v : Variant) (a : Argument) : Decidable (a.ReadsModule v) :=
  inferInstanceAs (Decidable (_ ∧ _))

/-- What is known of a described argument: its expression is its text without the white space around
it, and it is known for a name exactly if it is a bare name without such white space. -/
structure Argument.IsRead (a : Argument) : Prop where
  /-- Its expression is its text without the white space around it. -/
  trimmed : a.expression.toList = stripBy Unicode.isBlank a.text.toList
  /-- It is known for a name exactly if it is a bare name without white space around it. -/
  isField_iff : a.isField = true ↔ a.IsBareName ∧ a.text = a.expression

/-- The characters that are left of a text without the white space around it. -/
theorem filterMap_strip_ofString (s : String) :
    (Text.ofString s).strip.filterMap CodePoint.char? = stripBy Unicode.isBlank s.toList := by
  rw [Text.strip, Text.ofString, Text.ofChars, stripBy_map, List.filterMap_map]
  exact List.filterMap_some

/-- The expression of a described argument is its text without the white space around it. -/
theorem trimmed_of_argument [Expression.Capacity]
    {span : Span} {a : Placeholder.Argument} {b : Argument}
    (h : argument span a = .ok b) :
    b.expression.toList = stripBy Unicode.isBlank b.text.toList := by
  have htext := (eq_of_argument h).2.2
  unfold argument at h
  dsimp only at h
  split at h
  · next hname =>
    cases h
    rw [String.toList_ofList]
    exact (isWhole_of_isName hname).isStripped.symm
  · obtain ⟨e, he, hb⟩ := Outcome.bind_eq_ok_iff.mp h
    cases hb
    rcases expression_eq a.text span with ⟨-, hok | ⟨reason, hbad⟩⟩ | ⟨-, u, hunreadable⟩
    · cases hok.symm.trans he
      rw [← filterMap_strip_ofString, htext, String.toList_ofList]
    · cases hbad.symm.trans he
    · cases hunreadable.symm.trans he

/-- A described argument is read. -/
theorem isRead_of_argument [Expression.Capacity]
    {span : Span} {a : Placeholder.Argument} {b : Argument}
    (h : argument span a = .ok b) : b.IsRead := by
  have hwell := isWellFormed_of_argument h
  refine ⟨trimmed_of_argument h, fun hfield => ?_, fun ⟨hname, hsame⟩ => ?_⟩
  · rw [Argument.IsBareName, hwell.expression hfield]
    exact ⟨hwell.isField_iff.mp hfield, rfl⟩
  · rw [hwell.isField_iff, hsame]
    exact hname

/-- The arguments of a compiled literal are read. -/
theorem isRead_of_compileLiteral [Expression.Capacity]
    {strict : Bool} {literal : Syntax.Token} {m : Message}
    (h : compileLiteral strict literal = .ok m) : ∀ a ∈ m.arguments, a.IsRead := by
  rcases compileLiteral_cases strict literal with ⟨e, -, heq⟩ | ⟨d, -, ⟨f, -, heq⟩ | ⟨m', -, heq⟩⟩
  · cases heq.symm.trans h
  · cases heq.symm.trans h
  · rw [heq, Outcome.map_eq_ok_iff] at h
    obtain ⟨arguments, harguments, rfl⟩ := h
    intro b hb
    obtain ⟨a, -, ha⟩ := Outcome.exists_of_mem_mapM harguments hb
    exact isRead_of_argument ha

/-! ### Outsiders -/

/-- The arguments of a variant: those of its messages, and then those of its help texts. -/
def Variant.arguments (v : Variant) : List Argument :=
  (v.messages ++ v.helps).flatMap Message.arguments

/-- The arguments of a variant that show names of the module and are written without white space
around them. -/
def Variant.outsiders (v : Variant) : List Argument :=
  v.arguments.filter fun a => a.ReadsModule v ∧ a.text = a.expression

/-- The warning about a name in a variant that is not that of a field. -/
def Variant.warning (v : Variant) (a : Argument) : Finding :=
  ⟨.notAField a.text v.name, a.span⟩

/-- The outsiders of an enumeration, as the warnings about them. -/
def Enumeration.outsiders (e : Enumeration) : List Finding :=
  e.variants.flatMap fun v => v.outsiders.map v.warning

end Descriptor

/-- The outsiders of a file, as the warnings about them, in the order of the declarations. -/
def Descriptor.outsiders (d : Descriptor) : List Finding :=
  d.enumerations.flatMap Descriptor.Enumeration.outsiders

namespace Descriptor

/-! ### Warnings about names -/

variable {α β : Type}

/-- The warnings about names that are not those of fields. -/
def aboutNames (found : List Finding) : List Finding :=
  found.filter fun f => f.problem.code = .notAField

/-- The warnings about names among findings and further ones. -/
theorem aboutNames_append (found more : List Finding) :
    aboutNames (found ++ more) = aboutNames found ++ aboutNames more :=
  List.filter_append _ _

/-- A step tells of names if it is steady, and what it makes is in a relation with the warnings that
it gives about names. -/
structure Tells (P : α → List Finding → Prop) (x : Describing α) : Prop where
  /-- It is steady. -/
  steady : IsSteady x
  /-- What it makes is in the relation with its warnings. -/
  holds : ∀ a, outcome x = .ok a → P a (aboutNames (findings x))

/-- Handing on a value. -/
theorem tells_pure {P : α → List Finding → Prop} {a : α} (h : P a []) :
    Tells P (pure a : Describing α) where
  steady := isSteady_pure a
  holds := by
    rintro _ ⟨⟩
    exact h

/-- Meeting an obstacle. -/
theorem tells_throw {P : α → List Finding → Prop} (e : Obstacle) :
    Tells P (throw e : Describing α) where
  steady := isSteady_throw e
  holds := nofun

/-- Meeting a violation. -/
theorem tells_refuse {P : α → List Finding → Prop} (problem : Problem) (span : Span) :
    Tells P (refuse problem span : Describing α) :=
  tells_throw _

/-- Two steps, the second of which relies on what the first makes and warns about. -/
theorem Tells.bind {P : α → List Finding → Prop} {Q : β → List Finding → Prop} {x : Describing α}
    {f : α → Describing β} (hx : Tells P x)
    (hf : ∀ a found, P a found → Tells (fun b more => Q b (found ++ more)) (f a)) :
    Tells Q (x >>= f) := by
  have hsteady : ∀ a, outcome x = .ok a → IsSteady (f a) := fun a ha =>
    (hf a _ (hx.holds a ha)).steady
  refine ⟨hx.steady.bind hsteady, fun b hb => ?_⟩
  obtain ⟨a, ha, hb⟩ := (bind_eq_ok_iff hx.steady hsteady).mp hb
  have hboth := (hf a _ (hx.holds a ha)).holds b hb
  rw [findings_bind_of_ok hx.steady ha (hsteady a ha), aboutNames_append]
  exact hboth

/-- A step that gives no warning about a name leaves the warnings to the next one. -/
theorem Tells.bind_of_mute {P : α → Prop} {Q : β → List Finding → Prop} {x : Describing α}
    {f : α → Describing β} (hx : Tells (fun a found => found = [] ∧ P a) x)
    (hf : ∀ a, P a → Tells Q (f a)) : Tells Q (x >>= f) := by
  refine hx.bind ?_
  rintro a _ ⟨rfl, ha⟩
  exact hf a ha

/-- A step for every entry of a list warns about what it warns about for each of them. -/
theorem tells_forM {g : α → List Finding} {f : α → Describing PUnit} {as : List α}
    (hf : ∀ a ∈ as, Tells (fun _ found => found = g a) (f a)) :
    Tells (fun _ found => found = as.flatMap g) (as.forM f) := by
  induction as with
  | nil => exact tells_pure rfl
  | cons a as ih =>
    obtain ⟨ha, has⟩ := List.forall_mem_cons.mp hf
    refine ha.bind ?_
    rintro _ _ rfl
    refine ⟨(ih has).steady, fun u hu => ?_⟩
    rw [(ih has).holds u hu, List.flatMap_cons]

/-! ### Mute steps -/

/-- Whether a step gives no warning about a name. -/
abbrev IsMute (x : Describing α) : Prop :=
  Tells (fun _ found => found = [] ∧ True) x

/-- Handing on a value. -/
theorem isMute_pure (a : α) : IsMute (pure a : Describing α) :=
  tells_pure ⟨rfl, trivial⟩

/-- Noting anything else. -/
theorem isMute_note {problem : Problem} (h : problem.code ≠ .notAField) (span : Option Span) :
    IsMute (note problem span) where
  steady := isSteady_note problem span
  holds := fun _ _ => by
    rw [findings_note, aboutNames, List.filter_cons_of_neg (by simpa using h)]
    exact ⟨rfl, trivial⟩

/-- A mute step for every entry of a list. -/
theorem isMute_forM {f : α → Describing PUnit} (hf : ∀ a, IsMute (f a)) (as : List α) :
    IsMute (as.forM f) := by
  induction as with
  | nil => exact isMute_pure _
  | cons a as ih => exact (hf a).bind_of_mute fun _ _ => ih

/-- Checking a name. -/
theorem isMute_checkName (what : String) (reserved : List String) (name : Syntax.Token) :
    IsMute (checkName what reserved name) := by
  unfold checkName
  dsimp only
  split
  · exact tells_refuse _ _
  · exact isMute_pure ()

/-- Noting an attribute. -/
theorem isMute_noteUnknown (a : Syntax.Attribute) : IsMute (noteUnknown a) := by
  unfold noteUnknown
  split
  · exact isMute_pure ()
  · exact isMute_note (by simp [Problem.code]) a.span

/-- Giving a field its role. -/
theorem isMute_role (earlier : List Field) (f : Syntax.Field) : IsMute (role earlier f) := by
  unfold role
  dsimp only
  split
  · split
    · exact tells_refuse _ _
    · split
      · exact tells_refuse _ _
      · exact isMute_pure _
  · split
    · split
      · exact tells_refuse _ _
      · split
        · exact tells_refuse _ _
        · exact isMute_pure _
    · exact isMute_pure _

/-- Describing a field. -/
theorem isMute_field (variant : String) (earlier : List Field) (f : Syntax.Field) :
    IsMute (field variant earlier f) := by
  unfold field
  dsimp only
  split
  · refine (isMute_checkName _ _ _).bind_of_mute fun _ _ => ?_
    refine Tells.bind_of_mute (isMute_forM (fun a => ?_) f.attributes) fun _ _ => ?_
    · split
      · exact isMute_pure _
      · exact isMute_noteUnknown a
    · refine (isMute_role earlier f).bind_of_mute fun role _ => ?_
      split
      · exact tells_refuse _ _
      · exact isMute_pure _
  · exact tells_refuse _ _

/-- Describing fields. -/
theorem isMute_fields (variant : String) (earlier : List Field) (fs : List Syntax.Field) :
    IsMute (fields variant earlier fs) := by
  induction fs generalizing earlier with
  | nil => exact isMute_pure earlier
  | cons f rest ih => exact (isMute_field variant earlier f).bind_of_mute fun g _ => ih _

/-- Looking for the mark of a top-level enumeration. -/
theorem isMute_topLevel (marked : Bool) (as : List Syntax.Attribute) :
    IsMute (topLevel marked as) := by
  induction as generalizing marked with
  | nil => exact isMute_pure marked
  | cons a rest ih =>
    unfold topLevel
    split
    · split
      · exact (isMute_note (by simp [Problem.code]) _).bind_of_mute fun _ _ => ih true
      · exact ih true
    · exact (isMute_noteUnknown a).bind_of_mute fun _ _ => ih marked

variable [Expression.Capacity]

/-- Compiling the message of an attribute gives no warning about a name, and reads the arguments. -/
theorem tells_message (strict : Bool) (a : Syntax.Attribute) :
    Tells (fun m found => found = [] ∧ ∀ b ∈ m.arguments, b.IsRead) (message strict a) := by
  unfold message
  split
  · exact tells_refuse _ _
  · next literal _ =>
    cases hmade : compileLiteral strict literal with
    | error e => exact tells_throw e
    | ok m => exact tells_pure ⟨rfl, isRead_of_compileLiteral hmade⟩

/-- Compiling the messages of a variant gives no warning about a name, and reads the arguments. -/
theorem tells_messages (strict : Bool) (as : List Syntax.Attribute) :
    Tells (fun ms found => found = [] ∧ ∀ m ∈ ms.1 ++ ms.2, ∀ a ∈ m.arguments, a.IsRead)
      (messages strict as) := by
  induction as with
  | nil => exact tells_pure (by simp)
  | cons a rest ih =>
    unfold messages
    split
    · refine (tells_message strict a).bind_of_mute fun m hm =>
        ih.bind_of_mute fun ms hms => tells_pure ⟨rfl, ?_⟩
      exact List.forall_mem_cons.mpr ⟨hm, hms⟩
    · split
      · refine (tells_message strict a).bind_of_mute fun m hm =>
          ih.bind_of_mute fun ms hms => tells_pure ⟨rfl, ?_⟩
        rw [List.forall_mem_append] at hms ⊢
        exact ⟨hms.1, List.forall_mem_cons.mpr ⟨hm, hms.2⟩⟩
      · exact (isMute_noteUnknown a).bind_of_mute fun _ _ => ih

/-! ### Variants -/

/-- Noting the names in a message warns about those arguments that show names of the module and are
written without white space around them. -/
theorem tells_noteNonFields (v : Variant) {m : Message} (h : ∀ a ∈ m.arguments, a.IsRead) :
    Tells (fun _ found => found =
      (m.arguments.filter fun a => a.ReadsModule v ∧ a.text = a.expression).map v.warning)
      (noteNonFields v m) := by
  have hnoted : ∀ a ∈ m.arguments,
      Tells (fun _ found => found =
          if a.ReadsModule v ∧ a.text = a.expression then [v.warning a] else [])
        (if a.isField ∧ a.text ∉ v.fieldNames then note (.notAField a.text v.name) a.span
          else return ()) := by
    intro a ha
    -- the check is made on the text, which here is the expression
    have hsame : (a.isField ∧ a.text ∉ v.fieldNames) ↔
        a.ReadsModule v ∧ a.text = a.expression := by
      rw [(h a ha).isField_iff, Argument.ReadsModule, and_right_comm]
      exact and_congr_left fun heq => by rw [heq]
    rw [if_congr hsame rfl rfl]
    split
    · exact ⟨isSteady_note _ _, fun _ _ => rfl⟩
    · exact tells_pure rfl
  refine ⟨(tells_forM hnoted).steady, fun u hu => ?_⟩
  rw [noteNonFields, (tells_forM hnoted).holds u hu]
  clear h hnoted hu
  induction m.arguments with
  | nil => rfl
  | cons a as ih =>
    rw [List.flatMap_cons, ih, List.filter_cons]
    simp only [decide_eq_true_eq]
    split <;> rfl

/-- **Describing a variant warns about its outsiders**, one after the other, and reads its
arguments. -/
theorem tells_variant (strict : Bool) (enumeration : String) (v : Syntax.Variant) :
    Tells (fun w found => found = w.outsiders.map w.warning ∧ ∀ a ∈ w.arguments, a.IsRead)
      (variant strict enumeration v) := by
  unfold variant
  dsimp only
  refine (isMute_checkName _ _ _).bind_of_mute fun _ _ =>
    (tells_messages strict v.attributes).bind_of_mute fun ms hread => ?_
  obtain ⟨errors, helps⟩ := ms
  dsimp only
  -- what is left is the same whichever shape the variant has
  have hdescribed : ∀ w : Variant, w.messages = errors → w.helps = helps →
      Tells (fun w found => found = w.outsiders.map w.warning ∧ ∀ a ∈ w.arguments, a.IsRead)
        ((errors ++ helps).forM (noteNonFields w) >>= fun _ => pure w) := by
    intro w hmessages hhelps
    refine (tells_forM fun m hm => tells_noteNonFields w (hread m hm)).bind ?_
    rintro _ _ rfl
    refine tells_pure ⟨?_, ?_⟩
    · rw [List.append_nil, Variant.outsiders, Variant.arguments, hmessages, hhelps,
        List.filter_flatMap, List.map_flatMap]
    · rw [Variant.arguments, hmessages, hhelps]
      exact List.forall_mem_flatMap.mpr hread
  split
  · exact tells_refuse _ _
  · split
    · exact hdescribed _ rfl rfl
    · exact tells_refuse _ _
    · exact tells_refuse _ _
    · exact (isMute_fields _ _ _).bind_of_mute fun declared _ => hdescribed _ rfl rfl

/-- Describing variants warns about the outsiders of the new ones. -/
theorem tells_variants (strict : Bool) (enumeration : String) {earlier : List Variant}
    (hearlier : ∀ w ∈ earlier, ∀ a ∈ w.arguments, a.IsRead) (vs : List Syntax.Variant) :
    Tells (fun ws found =>
        (ws.flatMap fun w => w.outsiders.map w.warning) =
          (earlier.flatMap fun w => w.outsiders.map w.warning) ++ found ∧
        ∀ w ∈ ws, ∀ a ∈ w.arguments, a.IsRead)
      (variants strict enumeration earlier vs) := by
  induction vs generalizing earlier with
  | nil => exact tells_pure ⟨(List.append_nil _).symm, hearlier⟩
  | cons v rest ih =>
    refine (tells_variant strict enumeration v).bind ?_
    rintro w _ ⟨rfl, hw⟩
    split
    · exact tells_refuse _ _
    · have hrest := ih (forall_mem_append_singleton hearlier hw)
      refine ⟨hrest.steady, fun ws hws => ?_⟩
      obtain ⟨hfound, hread⟩ := hrest.holds ws hws
      refine ⟨?_, hread⟩
      rw [hfound, List.flatMap_append, List.flatMap_singleton, List.append_assoc]

/-! ### Declarations -/

/-- Describing a declaration warns about its outsiders. -/
theorem tells_enumeration (strict : Bool) (d : Syntax.Declaration) :
    Tells (fun e found => found = e.outsiders ∧ ∀ w ∈ e.variants, ∀ a ∈ w.arguments, a.IsRead)
      (enumeration strict d) := by
  by_cases h : d.kind.terminal = .enumWord ∧ d.innerAttributes = []
  · have hdeclared : Tells (fun ws found =>
        found = (ws.flatMap fun w => w.outsiders.map w.warning) ∧
          ∀ w ∈ ws, ∀ a ∈ w.arguments, a.IsRead) (declared strict d) := by
      unfold declared
      split
      · exact tells_refuse _ _
      · exact tells_pure ⟨rfl, by simp⟩
      · next vs _ =>
        have hnone : ∀ w ∈ ([] : List Variant), ∀ a ∈ w.arguments, a.IsRead := by simp
        have hvariants := tells_variants strict (String.ofList d.name.text) hnone vs
        exact ⟨hvariants.steady, fun ws hws =>
          ⟨(hvariants.holds ws hws).1.symm, (hvariants.holds ws hws).2⟩⟩
    rw [enumeration_eq h.1 h.2]
    refine (isMute_checkName _ _ _).bind_of_mute fun _ _ =>
      (isMute_topLevel _ _).bind_of_mute fun _ _ => hdeclared.bind ?_
    rintro ws _ ⟨rfl, hread⟩
    exact tells_pure ⟨List.append_nil _, hread⟩
  · obtain ⟨problem, span, -, hrefuse⟩ := enumeration_eq_refuse h
    rw [hrefuse]
    exact tells_refuse problem span

/-! ### Files -/

/-- Whether all arguments in a file are read. -/
def IsRead (d : Descriptor) : Prop :=
  ∀ e ∈ d.enumerations, ∀ v ∈ e.variants, ∀ a ∈ v.arguments, a.IsRead

/-- Adding an item without an error warns about its outsiders. -/
theorem outsiders_of_addItem {strict : Bool} {d d' : Descriptor} {item : Syntax.Item}
    (h : outcome (addItem strict d item) = .ok d') (hread : d.IsRead)
    (hfound : ∀ f ∈ findings (addItem strict d item), f.problem.severity = .warning) :
    d'.outsiders = d.outsiders ++ aboutNames (findings (addItem strict d item)) ∧ d'.IsRead := by
  cases item with
  | importModule path newName span =>
    cases h
    exact ⟨(List.append_nil _).symm, hread⟩
  | importNames dots path names span =>
    cases h
    exact ⟨(List.append_nil _).symm, hread⟩
  | declaration declaration =>
    obtain ⟨e, hmade, hsame, rfl⟩ := addItem_of_warnings h hfound
    obtain ⟨htold, he⟩ := (tells_enumeration strict declaration).holds e hmade
    refine ⟨?_, forall_mem_append_singleton hread he⟩
    rw [hsame, htold, outsiders, List.flatMap_append, List.flatMap_singleton]
    rfl

/-- Adding items without an error warns about their outsiders, in order. -/
theorem outsiders_of_addItems {strict : Bool} {d d' : Descriptor} {items : List Syntax.Item}
    (h : outcome (items.foldlM (addItem strict) d) = .ok d') (hread : d.IsRead)
    (hfound : ∀ f ∈ findings (items.foldlM (addItem strict) d), f.problem.severity = .warning) :
    d'.outsiders = d.outsiders ++ aboutNames (findings (items.foldlM (addItem strict) d)) ∧
      d'.IsRead := by
  induction items generalizing d with
  | nil =>
    cases h
    exact ⟨(List.append_nil _).symm, hread⟩
  | cons item items ih =>
    obtain ⟨first, hfirst, hrest⟩ := addItems_cons_eq_ok_iff.mp h
    rw [List.foldlM_cons, findings_bind_of_ok (isSteady_addItem strict d item) hfirst
      (isSteady_addItems strict first items)] at hfound ⊢
    rw [List.forall_mem_append] at hfound
    obtain ⟨hsame, hread⟩ := outsiders_of_addItem hfirst hread hfound.1
    obtain ⟨hsame', hread'⟩ := ih hrest hread hfound.2
    refine ⟨?_, hread'⟩
    rw [hsame', hsame, List.append_assoc, aboutNames_append]

end Descriptor

/-- **Describing a file without errors warns about its outsiders**, in the order of the
declarations, and about no other name. All its arguments are read. -/
theorem outsiders_of_describe [Expression.Capacity]
    {strict : Bool} {items : List Syntax.Item} {description : Description}
    (h : describe strict items = .ok description)
    (hwarnings : ∀ f ∈ description.findings, f.problem.severity = .warning) :
    Descriptor.aboutNames description.findings = description.descriptor.outsiders ∧
      description.descriptor.IsRead := by
  obtain ⟨hmade, hfound⟩ := describe_eq_ok_iff.mp h
  rw [hfound, List.forall_mem_append] at hwarnings
  obtain ⟨hsame, hread⟩ := Descriptor.outsiders_of_addItems hmade (by simp [Descriptor.IsRead])
    hwarnings.1
  refine ⟨?_, hread⟩
  rw [hfound, Descriptor.collisions_eq_nil_of_warnings hwarnings.2, List.append_nil, hsame]
  rfl

end Errata
