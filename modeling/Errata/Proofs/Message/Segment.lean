import Errata.Proofs.Message.Format

/-!
# Segments read in step

A literal is cut into segments, the segments are written as a template, and the template is read
again. The two readings keep *in step* if the template is read segment by segment. Placeholders that
vanish may bring closing braces together that stand apart in the literal, so a reading in step has a
state: whether a closing brace is owed.

* `Segment.IsCut`: what the segments of a literal are, and `isCut_of_segments`: they are.
* `Segment.InStep`: segments that a template does not read in another way.
* `readInStep`: segments read one by one.
* `Segment.Closes`: closing braces in text, and placeholders that leave nothing. All others are read
  by themselves.
* **`items_template_append`**, `items_template`: segments that keep in step are read from their
  template one by one.
-/

namespace Errata.Placeholder

open Outcome
open Template (Field Item fields items)

/-! ### Segments of literals -/

/-- The field that a segment writes. -/
def Segment.field? : Segment → Option Field
  | field _ format => some (fieldOfFormat format)
  | _ => none

@[simp] theorem Segment.field?_plain (c : CodePoint) : (plain c).field? = none := rfl

@[simp] theorem Segment.field?_brace : brace.field? = none := rfl

@[simp] theorem Segment.field?_swallowed : swallowed.field? = none := rfl

@[simp] theorem Segment.field?_shown (format : Text) : (shown format).field? = none := rfl

@[simp] theorem Segment.field?_field (argument : Argument) (format : Text) :
    (field argument format).field? = some (fieldOfFormat format) := rfl

/-- What the segments of a literal are. -/
def Segment.IsCut : Segment → Prop
  | plain c => c ≠ .char '{'
  | shown format | field _ format => IsFormat format
  | brace | swallowed => True

/-- A literal is cut into a segment and the segments of the rest. -/
theorem cons_eq_ok_iff {ε : Type} {x : Except ε (List Segment)} {s : Segment}
    {segs : List Segment} :
    (do return s :: (← x)) = .ok segs ↔ ∃ more, x = .ok more ∧ s :: more = segs := by
  cases x <;> simp [bind, Except.bind, pure, Except.pure]

/-- The format of a placeholder that ends at the first closing brace. -/
theorem isFormat_of_splitAtFirst {text inner after argument format : Text}
    (h : splitAtFirst (.char '}') text = some (inner, after))
    (hp : parts inner = (argument, format)) : IsFormat format := by
  have hf := isFormat_parts (splitAtFirst_eq_some_iff.mp h).2
  rwa [hp] at hf

/-- The segments of a literal are what segments are. -/
theorem isCut_of_segments {strict : Bool} {offset : Nat} {literal : Text} {segs : List Segment}
    (h : segments strict offset literal = .ok segs) : ∀ s ∈ segs, s.IsCut := by
  fun_induction segments strict offset literal generalizing segs with
  | case1 =>
    cases h
    simp
  | case2 offset rest ih =>
    obtain ⟨more, hm, rfl⟩ := cons_eq_ok_iff.mp h
    exact List.forall_mem_cons.mpr ⟨trivial, ih hm⟩
  | case3 => cases h
  | case4 =>
    rename_i ih
    obtain ⟨more, hm, rfl⟩ := cons_eq_ok_iff.mp h
    exact List.forall_mem_cons.mpr ⟨trivial, ih hm⟩
  | case5 => cases h
  | case6 _ _ _ _ _ hs =>
    rename_i hp _ ih
    obtain ⟨more, hm, rfl⟩ := cons_eq_ok_iff.mp h
    exact List.forall_mem_cons.mpr ⟨isFormat_of_splitAtFirst hs hp, ih hm⟩
  | case7 _ _ _ _ _ hs =>
    rename_i hp ih
    obtain ⟨more, hm, rfl⟩ := cons_eq_ok_iff.mp h
    exact List.forall_mem_cons.mpr ⟨isFormat_of_splitAtFirst hs hp, ih hm⟩
  | case8 offset c rest _ hc ih =>
    obtain ⟨more, hm, rfl⟩ := cons_eq_ok_iff.mp h
    exact List.forall_mem_cons.mpr ⟨hc, ih hm⟩

/-! ### One segment more -/

/-- A doubled opening brace is a segment. -/
theorem segments_brace (strict : Bool) (offset : Nat) (rest : Text) :
    segments strict offset (.char '{' :: .char '{' :: rest) =
      (segments strict (offset + 2) rest).map (.brace :: ·) := by
  rw [segments]
  cases segments strict (offset + 2) rest <;> rfl

/-- A code point other than an opening brace is a segment. -/
theorem segments_plain {c : CodePoint} (hc : c ≠ .char '{') (strict : Bool) (offset : Nat)
    (rest : Text) :
    segments strict offset (c :: rest) =
      (segments strict (offset + 1) rest).map (.plain c :: ·) := by
  rw [segments]
  · cases segments strict (offset + 1) rest <;> rfl
  · exact fun _ h => absurd h hc
  · exact hc

/-- A placeholder without a closing brace is a fault. -/
theorem segments_unclosed {rest : Text} (ho : rest.head? ≠ some (.char '{'))
    (h : splitAtFirst (.char '}') rest = none) (strict : Bool) (offset : Nat) :
    segments strict offset (.char '{' :: rest) =
      .error (.unterminated offset (rest.length + 1)) := by
  rw [segments]
  · split
    · rfl
    · next h' => simp [h] at h'
  · rintro _ rfl
    simp at ho

/-- A placeholder reaches to the first closing brace. -/
theorem segments_open {rest inner after : Text} (ho : ∀ more, rest = .char '{' :: more → False)
    (h : splitAtFirst (.char '}') rest = some (inner, after)) (strict : Bool) (offset : Nat) :
    segments strict offset (.char '{' :: rest) =
      if after.head? = some (.char '}') then do
        return .swallowed :: (← segments strict (offset + inner.length + 2 + 1) after.tail)
      else
        match parts inner with
        | ([], format) =>
          if strict then throw (.emptyArgument offset (inner.length + 2))
          else do return .shown format :: (← segments strict (offset + inner.length + 2) after)
        | (argument, format) => do
          return .field ⟨argument, offset + 1⟩ format ::
            (← segments strict (offset + inner.length + 2) after) := by
  rw [segments]
  · split
    · next h' => cases h.symm.trans h'
    · next h' =>
      cases h.symm.trans h'
      rfl
  · exact ho

/-- A placeholder that takes a second closing brace along leaves nothing. -/
theorem segments_swallowed {rest inner after : Text}
    (ho : ∀ more, rest = .char '{' :: more → False)
    (h : splitAtFirst (.char '}') rest = some (inner, .char '}' :: after)) (strict : Bool)
    (offset : Nat) :
    segments strict offset (.char '{' :: rest) =
      (segments strict (offset + inner.length + 2 + 1) after).map (.swallowed :: ·) := by
  rw [segments_open ho h, if_pos List.head?_cons, List.tail_cons]
  cases segments strict (offset + inner.length + 2 + 1) after <;> rfl

/-- A placeholder that takes no second closing brace along is shown, or is a field. -/
theorem segments_placeholder {rest inner after : Text} (ho : rest.head? ≠ some (.char '{'))
    (h : splitAtFirst (.char '}') rest = some (inner, after))
    (ha : after.head? ≠ some (.char '}')) (strict : Bool) (offset : Nat) :
    segments strict offset (.char '{' :: rest) =
      if (parts inner).1 = [] then
        if strict then .error (.emptyArgument offset (inner.length + 2))
        else (segments strict (offset + inner.length + 2) after).map
          (.shown (parts inner).2 :: ·)
      else (segments strict (offset + inner.length + 2) after).map
        (.field ⟨(parts inner).1, offset + 1⟩ (parts inner).2 :: ·) := by
  have hopen : ∀ more, rest = .char '{' :: more → False := by
    rintro _ rfl
    simp at ho
  rw [segments_open hopen h, if_neg ha]
  rcases parts inner with ⟨argument, format⟩
  cases argument with
  | nil =>
    cases strict with
    | true => rfl
    | false => cases segments false (offset + inner.length + 2) after <;> rfl
  | cons c argument => cases segments strict (offset + inner.length + 2) after <;> rfl

/-! ### Reading in step -/

/-- Segments that a template does not read in another way than the literal. -/
def Segment.InStep : Segment → Prop
  | shown format => hasLoneOpen format = false
  | field _ format => .char '{' ∉ format
  | _ => True

@[simp] theorem Segment.inStep_plain (c : CodePoint) : (plain c).InStep := trivial

@[simp] theorem Segment.inStep_brace : brace.InStep := trivial

@[simp] theorem Segment.inStep_swallowed : swallowed.InStep := trivial

@[simp] theorem Segment.inStep_shown (format : Text) :
    (shown format).InStep ↔ hasLoneOpen format = false := Iff.rfl

@[simp] theorem Segment.inStep_field (argument : Argument) (format : Text) :
    (field argument format).InStep ↔ .char '{' ∉ format := Iff.rfl

instance : DecidablePred Segment.InStep := fun s => by
  cases s <;> unfold Segment.InStep <;> infer_instance

/-- Segments read one by one, if every closing brace among them is doubled. `owed` says that a
closing brace in front of them is not yet doubled. -/
def readInStep (owed : Bool) : List Segment → Option (List Item)
  | [] => if owed then none else some []
  | .swallowed :: rest => readInStep owed rest
  | .plain c :: rest =>
    if c = .char '}' then
      if owed then (readInStep false rest).map (.text c :: ·) else readInStep true rest
    else if owed then none else (readInStep false rest).map (.text c :: ·)
  | .brace :: rest => if owed then none else (readInStep false rest).map (.text (.char '{') :: ·)
  | .shown format :: rest =>
    if owed then none
    else (readInStep false rest).map
      ((CodePoint.char '{' :: undoubled format ++ [CodePoint.char '}']).map .text ++ ·)
  | .field _ format :: rest =>
    if owed then none else (readInStep false rest).map (.field (fieldOfFormat format) :: ·)

/-- The fields that are read in step are those that the segments write. -/
theorem fields_readInStep {owed : Bool} {segs : List Segment} {its : List Item}
    (h : readInStep owed segs = some its) : fields its = segs.filterMap Segment.field? := by
  induction segs generalizing owed its with
  | nil => cases owed <;> simp_all [readInStep]
  | cons s segs ih =>
    cases s with
    | swallowed => exact ih h
    | plain c =>
      rw [readInStep] at h
      split at h
      · split at h
        · obtain ⟨more, hm, rfl⟩ := Option.map_eq_some_iff.mp h
          exact (Template.fields_cons_text _ _).trans (ih hm)
        · exact ih h
      · split at h
        · cases h
        · obtain ⟨more, hm, rfl⟩ := Option.map_eq_some_iff.mp h
          exact (Template.fields_cons_text _ _).trans (ih hm)
    | brace =>
      rw [readInStep] at h
      split at h
      · cases h
      · obtain ⟨more, hm, rfl⟩ := Option.map_eq_some_iff.mp h
        exact (Template.fields_cons_text _ _).trans (ih hm)
    | shown format =>
      rw [readInStep] at h
      split at h
      · cases h
      · obtain ⟨more, hm, rfl⟩ := Option.map_eq_some_iff.mp h
        rw [Template.fields_text_append]
        exact ih hm
    | field argument format =>
      rw [readInStep] at h
      split at h
      · cases h
      · obtain ⟨more, hm, rfl⟩ := Option.map_eq_some_iff.mp h
        exact congrArg _ (ih hm)

/-- A literal has a field for every argument. -/
theorem length_filterMap_field? (segs : List Segment) :
    (segs.filterMap Segment.field?).length = (segs.filterMap Segment.argument?).length := by
  induction segs with
  | nil => rfl
  | cons s segs ih => cases s <;> simp [List.filterMap_cons, Segment.argument?, ih]

/-- The fields of segments that keep in step are plain. -/
theorem isPlain_of_inStep {segs : List Segment} (hc : ∀ s ∈ segs, s.IsCut)
    (hs : ∀ argument format, .field argument format ∈ segs → .char '{' ∉ format) :
    ∀ f ∈ segs.filterMap Segment.field?, f.IsPlain := by
  intro f hf
  obtain ⟨s, hm, heq⟩ := List.mem_filterMap.mp hf
  cases s with
  | field argument format =>
    obtain rfl := Option.some.inj heq
    exact isPlain_fieldOfFormat (hc _ hm) (hs _ _ hm)
  | _ => cases heq

/-- The closing brace that is owed. -/
def owing (owed : Bool) : Text :=
  if owed then [.char '}'] else []

/-- Items in front of segments that are read in step, with more behind them. -/
theorem map_elim_map {α ε : Type} (x : Option (List α)) (e : ε) (front : List α)
    (y : Except ε (List α)) :
    (x.elim (.error e) fun l => y.map (l ++ ·)).map (front ++ ·) =
      (x.map (front ++ ·)).elim (.error e) fun l => y.map (l ++ ·) := by
  cases x with
  | none => rfl
  | some l => cases y <;> simp [Except.map]

/-- A placeholder with a plain format in front of a template is a field in front of its items. -/
theorem items_template_field {argument : Argument} {format : Text} (h : IsFormat format)
    (ho : .char '{' ∉ format) (rest : Text) :
    items (Segment.template (.field argument format) ++ rest) =
      (items rest).map (.field (fieldOfFormat format) :: ·) := by
  simpa [Segment.template] using items_field h ho rest

/-- Whether a segment is a closing brace in text, or a placeholder that leaves nothing. -/
def Segment.Closes (s : Segment) : Prop :=
  s = .plain (.char '}') ∨ s = .swallowed

instance : DecidablePred Segment.Closes := fun _ => inferInstanceAs (Decidable (_ ∨ _))

/-- A closing brace that is owed is not found in front of anything else. -/
theorem readInStep_owed {more : List Segment} (h : ∀ s, more.head? = some s → ¬s.Closes) :
    readInStep true more = none := by
  cases more with
  | nil => rfl
  | cons s more =>
    have hs := h s rfl
    cases s with
    | plain c =>
      have hc : c ≠ .char '}' := fun hc => hs (Or.inl (congrArg _ hc))
      rw [readInStep, if_neg hc, if_pos rfl]
    | swallowed => exact absurd (Or.inr rfl) hs
    | brace => rfl
    | shown format => rfl
    | field argument format => rfl

/-- What is written for a segment that does not close starts with no closing brace. -/
theorem head?_template_ne {back : List Segment} (h : ∀ s, back.head? = some s → ¬s.Closes) :
    (back.flatMap Segment.template).head? ≠ some (.char '}') := by
  cases back with
  | nil => simp
  | cons s back =>
    have hs := h s rfl
    cases s with
    | plain c =>
      have hc : c ≠ .char '}' := fun hc => hs (Or.inl (congrArg _ hc))
      simpa [Segment.template] using hc
    | swallowed => exact absurd (Or.inr rfl) hs
    | _ => simp [Segment.template]

/-- **A segment that does not close** is read by itself, from segments and from their template. -/
theorem exists_items_of_not_closes {s : Segment} (hcut : s.IsCut) (hstep : s.InStep)
    (hs : ¬s.Closes) :
    ∃ its, (∀ more, readInStep false (s :: more) = (readInStep false more).map (its ++ ·)) ∧
      ∀ rest, items (s.template ++ rest) = (items rest).map (its ++ ·) := by
  cases s with
  | plain c =>
    have hc : c ≠ .char '}' := fun hc => hs (Or.inl (congrArg _ hc))
    refine ⟨[.text c], fun more => ?_, Template.items_cons_plain hcut hc⟩
    rw [readInStep, if_neg hc]
    rfl
  | swallowed => exact absurd (Or.inr rfl) hs
  | brace => exact ⟨[.text (.char '{')], fun _ => rfl, Template.items_cons_open⟩
  | shown format =>
    obtain ⟨-, -, -, -, hclose⟩ := hcut
    exact ⟨_, fun _ => rfl, items_shown hclose hstep⟩
  | field argument format =>
    exact ⟨[.field (fieldOfFormat format)], fun _ => rfl, items_template_field hcut hstep⟩

/-- **Segments that keep in step** are read from their template one by one, whatever text follows
that does not start with a closing brace. If a closing brace stands alone then, that is the fault of
the template. -/
theorem items_template_append {segs : List Segment} (hc : ∀ s ∈ segs, s.IsCut)
    (hs : ∀ s ∈ segs, s.InStep) (owed : Bool) {rest : Text}
    (hrest : rest.head? ≠ some (.char '}')) :
    items (owing owed ++ segs.flatMap Segment.template ++ rest) =
      (readInStep owed segs).elim (.error .loneClose) fun its => (items rest).map (its ++ ·) := by
  induction segs generalizing owed with
  | nil =>
    cases owed with
    | false =>
      show items rest = (items rest).map ([] ++ ·)
      cases items rest <;> rfl
    | true => exact Template.items_cons_lone_close hrest
  | cons s segs ih =>
    obtain ⟨hcut, hcuts⟩ := List.forall_mem_cons.mp hc
    obtain ⟨hstep, hsteps⟩ := List.forall_mem_cons.mp hs
    have hmore : items (segs.flatMap Segment.template ++ rest) = _ := ih hcuts hsteps false
    by_cases hcloses : s.Closes
    · rcases hcloses with rfl | rfl
      · cases owed with
        | false => exact ih hcuts hsteps true
        | true =>
          show items (.char '}' :: .char '}' :: (segs.flatMap Segment.template ++ rest)) = _
          rw [Template.items_cons_close, hmore]
          exact map_elim_map _ _ [_] _
      · exact ih hcuts hsteps owed
    · cases owed with
      | false =>
        obtain ⟨its, hread, hitems⟩ := exists_items_of_not_closes hcut hstep hcloses
        show items (s.template ++ segs.flatMap Segment.template ++ rest) = _
        rw [hread, List.append_assoc, hitems, hmore]
        exact map_elim_map _ _ _ _
      | true =>
        have hends : ∀ t, (s :: segs).head? = some t → ¬t.Closes := by
          rintro t ⟨⟩
          exact hcloses
        have hhead : ((s :: segs).flatMap Segment.template ++ rest).head? ≠ some (.char '}') := by
          rw [List.head?_append]
          cases hfirst : ((s :: segs).flatMap Segment.template).head? with
          | none => exact hrest
          | some c =>
            rw [Option.some_or, ← hfirst]
            exact head?_template_ne hends
        rw [readInStep_owed hends]
        exact Template.items_cons_lone_close hhead

/-- **Segments that keep in step** are read from their template one by one. If a closing brace
stands alone then, that is the fault of the template. -/
theorem items_template {segs : List Segment} (hc : ∀ s ∈ segs, s.IsCut)
    (hs : ∀ s ∈ segs, s.InStep) (owed : Bool) :
    items (owing owed ++ segs.flatMap Segment.template) =
      (readInStep owed segs).elim (.error .loneClose) .ok := by
  have hnil : ([] : Text).head? ≠ some (.char '}') := nofun
  have happend := items_template_append hc hs owed hnil
  rw [List.append_nil] at happend
  rw [happend]
  cases readInStep owed segs <;> simp [Except.map]

/-! ### Compiled messages -/

/-- A literal is compiled if it can be cut into segments and their template can be read. -/
theorem compile_eq_ok_iff {strict : Bool} {literal : Text} {m : Message} :
    compile strict literal = .ok m ↔ ∃ segs its, segments strict 0 literal = .ok segs ∧
      items (Message.ofSegments segs).template = .ok its ∧ Message.ofSegments segs = m := by
  unfold compile
  cases segments strict 0 literal with
  | error fault => simp [bind, Except.bind]
  | ok segs =>
    cases hc : Template.chunks (Message.ofSegments segs).template with
    | error fault =>
      simp [bind, Except.bind, hc, items, Except.map, throw, throwThe, MonadExceptOf.throw]
    | ok chunks => simp [bind, Except.bind, hc, items, Except.map, pure, Except.pure]

end Errata.Placeholder
