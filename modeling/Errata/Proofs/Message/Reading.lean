import Errata.Proofs.Emission.Message
import Errata.Proofs.Message.Segment

/-!
# Reading literals from left to right

What a message literal says is read off it from left to right, without a template: text is copied, a
doubled brace gives a brace, and a placeholder gives the value of its argument. This file defines
that reading and shows that the emitted expression amounts to it.

* `Part` and `cut`: a literal cut into the parts that a reader sees.
* `Part.IsRegular`: parts about which template and reader agree: placeholders in whose specification
  no brace opens and behind which no brace closes.
* `Part.IsSound`: parts that give something.
* `readOut`: what the parts give for values of the arguments.
* **`compile_reads`**: a literal of regular parts is compiled exactly if its parts are sound, and
  the expression emitted for it amounts to what is read out.
-/

namespace Errata.Placeholder

open Outcome
open Template (Field Item fields items Conversion)

/-! ### Placeholders -/

/-- What stands in a placeholder before the first colon. -/
def beforeColon (inner : Text) : Text :=
  inner.takeWhile (· ≠ .char ':')

/-- The specification of a placeholder, with the colon before it. -/
def fromColon (inner : Text) : Text :=
  inner.dropWhile (· ≠ .char ':')

/-- The specification of a placeholder starts with its colon, or there is none. -/
theorem fromColon_eq (inner : Text) :
    ∃ spec : Option Text, fromColon inner = spec.elim [] (.char ':' :: ·) := by
  induction inner with
  | nil => exact ⟨none, rfl⟩
  | cons c inner ih =>
    by_cases hc : c = .char ':'
    · exact ⟨some inner, by simp [fromColon, hc]⟩
    · simpa [fromColon, hc] using ih

/-- The argument of a placeholder. -/
def argumentText (inner : Text) : Text :=
  (splitConversion (beforeColon inner)).1

/-- The conversion of a placeholder, with the exclamation mark before it. -/
def conversionText (inner : Text) : Text :=
  (splitConversion (beforeColon inner)).2

/-- The parts of a placeholder. -/
theorem parts_eq (inner : Text) :
    parts inner = (argumentText inner, conversionText inner ++ fromColon inner) := by
  have hcolon : (splitAtFirst (.char ':') inner).elim
      (beforeColon inner = inner ∧ fromColon inner = []) fun halves =>
        beforeColon inner = halves.1 ∧ fromColon inner = .char ':' :: halves.2 := by
    induction inner with
    | nil => exact ⟨rfl, rfl⟩
    | cons c inner ih =>
      by_cases hc : c = .char ':'
      · simp [splitAtFirst, hc, beforeColon, fromColon]
      · rw [splitAtFirst, if_neg hc]
        cases hs : splitAtFirst (.char ':') inner <;>
          simp_all [beforeColon, fromColon]
  unfold parts argumentText conversionText
  cases hs : splitAtFirst (.char ':') inner with
  | none =>
    rw [hs] at hcolon
    simp [hcolon.1, hcolon.2]
  | some halves =>
    rw [hs] at hcolon
    simp [hcolon.1, hcolon.2]

/-! ### Parts -/

/-- A part of a literal, as a reader sees it. -/
inductive Part where
  /-- A code point that is no brace. -/
  | text (c : CodePoint)
  /-- A doubled opening brace. -/
  | brace
  /-- Closing braces, as many as follow one another. -/
  | closes (count : Nat)
  /-- A placeholder up to the first closing brace, and whether one more follows. -/
  | placeholder (inner : Text) (followed : Bool)
  /-- An opening brace without a closing one. -/
  | unclosed
deriving DecidableEq, Repr

/-- The parts of a literal. -/
def cut : Text → List Part
  | [] => []
  | .char '{' :: .char '{' :: rest => .brace :: cut rest
  | .char '{' :: rest =>
    match h : splitAtFirst (.char '}') rest with
    | none => [.unclosed]
    | some (inner, after) =>
      have := length_splitAtFirst_lt h
      .placeholder inner (after.head? = some (.char '}')) :: cut after
  | .char '}' :: rest =>
    .closes ((rest.takeWhile (· = .char '}')).length + 1) :: cut (rest.dropWhile (· = .char '}'))
  | c :: rest => .text c :: cut rest
termination_by text => text.length
decreasing_by
  · simp only [List.length_cons]
    omega
  · simp only [List.length_cons]
    omega
  · exact Nat.lt_succ_of_le (List.dropWhile_sublist _).length_le
  · exact Nat.lt_succ_self _

/-- Parts that the template does not read in another way: no brace opens in the specification of a
placeholder, and none closes right behind it. -/
def Part.IsRegular : Part → Prop
  | placeholder inner followed => .char '{' ∉ fromColon inner ∧ followed = false
  | _ => True

instance : DecidablePred Part.IsRegular := fun p => by
  cases p <;> unfold Part.IsRegular <;> infer_instance

/-- Parts that give something: placeholders are closed, closing braces come in pairs, and in strict
mode every placeholder has an argument. -/
def Part.IsSound (strict : Bool) : Part → Prop
  | unclosed => False
  | closes count => Even count
  | placeholder inner _ => strict = true → argumentText inner ≠ []
  | text _ | brace => True

/-- The conversion of a placeholder, if it has one. -/
def conversion? (inner : Text) : Option Conversion :=
  Conversion.ofLetter? (conversionText inner)[1]?

variable {α ε : Type}

instance (strict : Bool) : DecidablePred (Part.IsSound strict) := fun p => by
  cases p <;> unfold Part.IsSound <;> infer_instance

/-- What parts give, the arguments of the placeholders having the given values. A placeholder
without an argument gives its conversion and its specification between braces. -/
def readOut (format : α → Option Conversion → Text → Except ε Text) :
    List α → List Part → Except ε Text
  | _, [] => .ok []
  | values, .text c :: rest => (readOut format values rest).map (c :: ·)
  | values, .brace :: rest => (readOut format values rest).map (.char '{' :: ·)
  | values, .closes count :: rest =>
    (readOut format values rest).map (List.replicate (count / 2) (.char '}') ++ ·)
  | values, .unclosed :: rest => readOut format values rest
  | values, .placeholder inner _ :: rest =>
    if argumentText inner = [] then
      (readOut format values rest).map
        ([.char '{'] ++ conversionText inner ++ fromColon inner ++ [.char '}'] ++ ·)
    else
      match values with
      | [] => .ok []
      | v :: values => do
        let shown ← format v (conversion? inner) ((fromColon inner).drop 1)
        let after ← readOut format values rest
        return shown ++ after

/-- The items that the parts of a literal make in a template. -/
def Part.items : Part → List Item
  | text c => [.text c]
  | brace => [.text (.char '{')]
  | closes count => List.replicate (count / 2) (.text (.char '}'))
  | unclosed => []
  | placeholder inner _ =>
    if argumentText inner = [] then
      (CodePoint.char '{' :: (conversionText inner ++ fromColon inner) ++ [CodePoint.char '}']).map
        .text
    else [.field (fieldOfFormat (conversionText inner ++ fromColon inner))]

/-- The field of a placeholder has its conversion and its specification. -/
theorem fieldOfFormat_parts (inner : Text) :
    fieldOfFormat (conversionText inner ++ fromColon inner) =
      ⟨[], (conversionText inner)[1]?, (fromColon inner).drop 1⟩ := by
  obtain ⟨letter, hletter, -⟩ := splitConversion_snd (beforeColon inner)
  obtain ⟨spec, hspec⟩ := fromColon_eq inner
  rw [conversionText, hletter, hspec]
  cases letter <;> cases spec <;> rfl

/-- What parts give is what their items are rendered as. -/
theorem readOut_eq_render (format : α → Option Conversion → Text → Except ε Text)
    (values : List α) (ps : List Part) :
    readOut format values ps = Template.render format values (ps.flatMap Part.items) := by
  induction ps generalizing values with
  | nil => cases values <;> rfl
  | cons p ps ih =>
    rw [List.flatMap_cons]
    cases p with
    | text c =>
      cases values <;> simp [readOut, Part.items, Template.render, ih]
    | brace =>
      cases values <;> simp [readOut, Part.items, Template.render, ih]
    | closes count =>
      have hitems : (Part.closes count).items =
          (List.replicate (count / 2) (CodePoint.char '}')).map .text := by simp [Part.items]
      rw [readOut, ih, hitems, Template.render_text_append]
    | unclosed => simp [readOut, Part.items, ih]
    | placeholder inner followed =>
      by_cases ha : argumentText inner = []
      · rw [readOut.eq_def]
        simp only [if_pos ha, Part.items, Template.render_text_append, ih]
        simp
      · rw [readOut.eq_def]
        simp only [if_neg ha, Part.items, List.singleton_append, fieldOfFormat_parts]
        cases values with
        | nil => rfl
        | cons v values => simp [Template.render, conversion?, ih]

/-! ### Parts and segments -/

/-- The segments that a part is cut into, without their places. -/
def Part.segments : Part → List Segment
  | text c => [.plain c]
  | brace => [.brace]
  | closes count => List.replicate count (.plain (.char '}'))
  | unclosed => []
  | placeholder inner _ =>
    if argumentText inner = [] then [.shown (conversionText inner ++ fromColon inner)]
    else [.field ⟨argumentText inner, 0⟩ (conversionText inner ++ fromColon inner)]

/-- A segment without its place. -/
def Segment.unplaced : Segment → Segment
  | field argument format => field ⟨argument.text, 0⟩ format
  | s => s

/-- Whether a part can be cut into segments. -/
def Part.IsClosed (strict : Bool) : Part → Prop
  | unclosed => False
  | placeholder inner _ => strict = true → argumentText inner ≠ []
  | _ => True

instance (strict : Bool) : DecidablePred (Part.IsClosed strict) := fun p => by
  cases p <;> unfold Part.IsClosed <;> infer_instance

/-- Closing braces are segments of their own. -/
theorem segments_closes (strict : Bool) (offset count : Nat) (rest : Text) :
    segments strict offset (List.replicate count (.char '}') ++ rest) =
      (segments strict (offset + count) rest).map
        (List.replicate count (.plain (.char '}')) ++ ·) := by
  induction count generalizing offset with
  | zero => cases h : segments strict offset rest <;> simp [h, Except.map]
  | succ count ih =>
    rw [List.replicate_succ, List.cons_append, segments_plain (by decide), ih,
      Nat.add_right_comm, Nat.add_assoc]
    cases segments strict (offset + (count + 1)) rest <;> rfl

/-- A text that does not start with a brace, in the form of the cases of `cut`. -/
theorem head?_ne_of_forall {c : CodePoint} {text : Text} (h : ∀ rest, text = c :: rest → False) :
    text.head? ≠ some c := by
  cases text with
  | nil => simp
  | cons d text => simpa using fun heq => h text (by rw [heq])

/-- The segments of a part in front of those of the rest. -/
theorem unplaced_append {ε : Type} {strict : Bool} {x : Except ε (List Segment)} {p : Part}
    {ps : List Part} {f : List Segment} (hp : p.IsClosed strict)
    (hf : f.map Segment.unplaced = p.segments)
    (h : x.toOption.map (·.map Segment.unplaced) =
      if ∀ q ∈ ps, q.IsClosed strict then some (ps.flatMap Part.segments) else none) :
    (x.map (f ++ ·)).toOption.map (·.map Segment.unplaced) =
      if ∀ q ∈ p :: ps, q.IsClosed strict then some ((p :: ps).flatMap Part.segments)
      else none := by
  by_cases hps : ∀ q ∈ ps, q.IsClosed strict
  · rw [if_pos hps] at h
    rw [if_pos (List.forall_mem_cons.mpr ⟨hp, hps⟩), List.flatMap_cons, ← hf]
    cases x with
    | error e => simp [Except.toOption] at h
    | ok more =>
      obtain h : more.map Segment.unplaced = _ := by simpa [Except.toOption] using h
      simp [Except.map, Except.toOption, ← h]
  · rw [if_neg hps] at h
    rw [if_neg fun hall => hps (List.forall_mem_cons.mp hall).2]
    cases x with
    | error e => rfl
    | ok more => simp [Except.toOption] at h

/-- A run of closing braces and what is behind it. -/
theorem closes_append (rest : Text) :
    .char '}' :: rest =
      List.replicate ((rest.takeWhile (· = .char '}')).length + 1) (.char '}') ++
        rest.dropWhile (· = .char '}') := by
  have hrun : rest.takeWhile (· = .char '}') =
      List.replicate (rest.takeWhile (· = .char '}')).length (.char '}') :=
    List.eq_replicate_of_mem fun c hc => by
      simpa using List.all_eq_true.mp List.all_takeWhile c hc
  rw [List.replicate_succ, List.cons_append, ← hrun, List.takeWhile_append_dropWhile]

/-- A literal of regular parts is cut into their segments, unless a part cannot be cut. -/
theorem segments_cut {literal : Text} (hr : ∀ p ∈ cut literal, p.IsRegular) (strict : Bool)
    (offset : Nat) :
    (segments strict offset literal).toOption.map (·.map Segment.unplaced) =
      if ∀ p ∈ cut literal, p.IsClosed strict then some ((cut literal).flatMap Part.segments)
      else none := by
  fun_induction cut literal generalizing offset with
  | case1 => simp [segments, pure, Except.pure, Except.toOption]
  | case2 rest ih =>
    rw [segments_brace]
    exact unplaced_append (f := [.brace]) trivial rfl (ih (List.forall_mem_cons.mp hr).2 _)
  | case3 rest hopen hs =>
    rw [segments_unclosed (head?_ne_of_forall hopen) hs]
    simp [Except.toOption, Part.IsClosed]
  | case4 rest hopen inner after hs _ ih =>
    obtain ⟨hp, hr⟩ := List.forall_mem_cons.mp hr
    have ha : after.head? ≠ some (.char '}') := by simpa using hp.2
    rw [segments_placeholder (head?_ne_of_forall hopen) hs ha, parts_eq]
    by_cases harg : argumentText inner = []
    · rw [if_pos harg]
      cases strict with
      | true => simp [Except.toOption, Part.IsClosed, harg]
      | false =>
        exact unplaced_append (f := [.shown _]) (by simp [Part.IsClosed])
          (by simp [Part.segments, harg, Segment.unplaced]) (ih hr _)
    · rw [if_neg harg]
      exact unplaced_append (f := [.field _ _]) (fun _ => harg)
        (by simp [Part.segments, harg, Segment.unplaced]) (ih hr _)
  | case5 rest ih =>
    rw [closes_append rest, segments_closes]
    exact unplaced_append (p := .closes _) trivial (by simp [Part.segments, Segment.unplaced])
      (ih (List.forall_mem_cons.mp hr).2 _)
  | case6 c rest _ hopen hclose ih =>
    rw [segments_plain hopen]
    exact unplaced_append (f := [.plain c]) trivial rfl (ih (List.forall_mem_cons.mp hr).2 _)

/-! ### Parts and templates -/

/-- Whether closing braces come in pairs. -/
def Part.IsPaired : Part → Prop
  | closes count => Even count
  | _ => True

instance : DecidablePred Part.IsPaired := fun p => by
  cases p <;> unfold Part.IsPaired <;> infer_instance

/-- The place of an argument does not matter to the template. -/
theorem readInStep_unplaced (owed : Bool) (segs : List Segment) :
    readInStep owed (segs.map Segment.unplaced) = readInStep owed segs := by
  induction segs generalizing owed with
  | nil => rfl
  | cons s segs ih => cases s <;> simp [readInStep, Segment.unplaced, ih]

/-- A run of closing braces is read in pairs. -/
theorem readInStep_closes (count : Nat) (segs : List Segment) :
    readInStep false (List.replicate (2 * count) (.plain (.char '}')) ++ segs) =
      (readInStep false segs).map (List.replicate count (.text (.char '}')) ++ ·) := by
  induction count with
  | zero => simp
  | succ count ih =>
    rw [Nat.mul_succ, List.replicate_succ, List.replicate_succ]
    simp only [List.cons_append, readInStep, if_true, Bool.false_eq_true, if_false, ih,
      List.replicate_succ, Option.map_map]
    rfl

/-- A part of a literal that does not start with a closing brace does not pair with one in front. -/
theorem readInStep_owed_cut {literal : Text} (h : literal.head? ≠ some (.char '}')) :
    readInStep true ((cut literal).flatMap Part.segments) = none := by
  fun_cases cut literal with
  | case1 => rfl
  | case2 rest => simp [Part.segments, readInStep]
  | case3 => simp [Part.segments, readInStep]
  | case4 rest hopen inner after hs =>
    by_cases ha : argumentText inner = [] <;> simp [Part.segments, ha, readInStep]
  | case5 rest => simp at h
  | case6 c rest _ hopen hclose =>
    have hc : c ≠ .char '}' := hclose
    simp [Part.segments, readInStep, hc]

/-- The format of a regular placeholder has no opening brace. -/
theorem not_mem_format {inner : Text} (h : .char '{' ∉ fromColon inner) :
    .char '{' ∉ conversionText inner ++ fromColon inner := by
  obtain ⟨letter, hletter, hconversion⟩ := splitConversion_snd (beforeColon inner)
  rw [List.mem_append, not_or]
  refine ⟨?_, h⟩
  rw [conversionText, hletter]
  cases letter with
  | none => simp [formatText]
  | some c =>
    have hc := hconversion c rfl
    simp only [isConversion, Bool.or_eq_true, beq_iff_eq] at hc
    rcases hc with (rfl | rfl) | rfl <;> decide

/-- The items of a part in front of those of the rest. -/
theorem readInStep_append {p : Part} {ps : List Part} (hp : p.IsPaired)
    (hs : ∀ segs, readInStep false (p.segments ++ segs) =
      (readInStep false segs).map (p.items ++ ·))
    (h : readInStep false (ps.flatMap Part.segments) =
      if ∀ q ∈ ps, q.IsPaired then some (ps.flatMap Part.items) else none) :
    readInStep false ((p :: ps).flatMap Part.segments) =
      if ∀ q ∈ p :: ps, q.IsPaired then some ((p :: ps).flatMap Part.items) else none := by
  rw [List.flatMap_cons, hs, h]
  by_cases hps : ∀ q ∈ ps, q.IsPaired
  · rw [if_pos hps, if_pos (List.forall_mem_cons.mpr ⟨hp, hps⟩)]
    rfl
  · rw [if_neg hps, if_neg fun hall => hps (List.forall_mem_cons.mp hall).2]
    rfl

/-- The segments of regular parts are read in step, unless a closing brace is left over. -/
theorem readInStep_cut {literal : Text} (hr : ∀ p ∈ cut literal, p.IsRegular) :
    readInStep false ((cut literal).flatMap Part.segments) =
      if ∀ p ∈ cut literal, p.IsPaired then some ((cut literal).flatMap Part.items) else none := by
  fun_induction cut literal with
  | case1 => simp [readInStep]
  | case2 rest ih =>
    refine readInStep_append trivial (fun segs => ?_) (ih (List.forall_mem_cons.mp hr).2)
    simp [Part.segments, Part.items, readInStep]
  | case3 => simp [Part.segments, Part.items, readInStep, Part.IsPaired]
  | case4 rest hopen inner after hs _ ih =>
    obtain ⟨hp, hr⟩ := List.forall_mem_cons.mp hr
    refine readInStep_append trivial (fun segs => ?_) (ih hr)
    by_cases ha : argumentText inner = []
    · simp [Part.segments, Part.items, ha, readInStep, undoubled_of_not_mem (not_mem_format hp.1)]
    · simp [Part.segments, Part.items, ha, readInStep]
  | case5 rest ih =>
    have ih := ih (List.forall_mem_cons.mp hr).2
    generalize (rest.takeWhile (· = .char '}')).length + 1 = count
    rcases Nat.even_or_odd' count with ⟨half, rfl | rfl⟩
    · refine readInStep_append (even_two_mul half) (fun segs => ?_) ih
      simp [Part.segments, Part.items, readInStep_closes]
    · -- the brace that is left over is not followed by another one
      have hrest : (rest.dropWhile (· = .char '}')).head? ≠ some (.char '}') := by
        intro hhead
        obtain ⟨tail, htail⟩ := List.head?_eq_some_iff.mp hhead
        have hall := List.head?_dropWhile_not (fun c => decide (c = CodePoint.char '}')) rest
        simp [htail] at hall
      have hsegs : (Part.closes (2 * half + 1)).segments =
          List.replicate (2 * half) (.plain (.char '}')) ++ [.plain (.char '}')] := by
        rw [Part.segments, List.replicate_succ']
      have hodd : ¬ Part.IsPaired (.closes (2 * half + 1)) := by simp [Part.IsPaired]
      rw [if_neg fun hall => hodd (List.forall_mem_cons.mp hall).1, List.flatMap_cons, hsegs,
        List.append_assoc, readInStep_closes, List.singleton_append, readInStep, if_pos rfl,
        if_neg (by decide), readInStep_owed_cut hrest]
      rfl
  | case6 c rest _ hopen hclose ih =>
    have hc : c ≠ .char '}' := hclose
    refine readInStep_append trivial (fun segs => ?_) (ih (List.forall_mem_cons.mp hr).2)
    simp [Part.segments, Part.items, readInStep, hc]

/-- The segments of regular parts keep in step. -/
theorem inStep_segments {p : Part} (hp : p.IsRegular) : ∀ s ∈ p.segments, s.InStep := by
  intro s hs
  cases p with
  | placeholder inner followed =>
    have hno := not_mem_format hp.1
    by_cases ha : argumentText inner = []
    · obtain rfl : s = .shown _ := by simpa [Part.segments, ha] using hs
      exact hasLoneOpen_of_not_mem hno
    · obtain rfl : s = .field _ _ := by simpa [Part.segments, ha] using hs
      exact hno
  | _ => simp_all [Part.segments]

/-- Keeping in step does not depend on places. -/
theorem inStep_unplaced (s : Segment) : s.unplaced.InStep ↔ s.InStep := by
  cases s <;> exact Iff.rfl

/-- The argument of a part, if it has one. -/
def Part.argument? : Part → Option Text
  | placeholder inner _ => if argumentText inner = [] then none else some (argumentText inner)
  | _ => none

/-- The arguments of the segments of a part are those of the part. -/
theorem filterMap_argument?_segments (p : Part) :
    p.segments.filterMap (fun s => s.argument?.map Argument.text) = p.argument?.toList := by
  cases p with
  | closes count =>
    induction count with
    | zero => rfl
    | succ count ih => exact ih
  | placeholder inner followed =>
    by_cases ha : argumentText inner = [] <;>
      simp [Part.segments, Part.argument?, Segment.argument?, ha]
  | _ => rfl

/-- An argument has its text wherever it is. -/
theorem argument?_unplaced (s : Segment) :
    s.unplaced.argument?.map Argument.text = s.argument?.map Argument.text := by
  cases s <;> rfl

/-- A part gives something if it can be cut and its closing braces come in pairs. -/
theorem isSound_iff {strict : Bool} {p : Part} :
    p.IsSound strict ↔ p.IsClosed strict ∧ p.IsPaired := by
  cases p <;> simp [Part.IsSound, Part.IsClosed, Part.IsPaired]

/-- What a literal of regular parts is cut into. -/
structure Follows (literal : Text) (segs : List Segment) : Prop where
  /-- The segments keep in step. -/
  inStep : ∀ s ∈ segs, s.InStep
  /-- They are what segments are. -/
  isCut : ∀ s ∈ segs, s.IsCut
  /-- Their arguments are those of the parts. -/
  arguments : (segs.filterMap Segment.argument?).map Argument.text =
    (cut literal).filterMap Part.argument?
  /-- Their template is read as the items of the parts. -/
  read : readInStep false segs =
    if ∀ p ∈ cut literal, p.IsPaired then some ((cut literal).flatMap Part.items) else none

/-- Segments of a literal of regular parts follow the parts. -/
theorem follows_of_segments {strict : Bool} {literal : Text} {segs : List Segment}
    (hr : ∀ p ∈ cut literal, p.IsRegular) (h : segments strict 0 literal = .ok segs) :
    Follows literal segs := by
  have hcut := segments_cut hr strict 0
  rw [h] at hcut
  split at hcut
  · have hsegs : segs.map Segment.unplaced = (cut literal).flatMap Part.segments := by
      simpa [Except.toOption] using hcut
    refine ⟨fun s hs => ?_, isCut_of_segments h, ?_, ?_⟩
    · have hmem : s.unplaced ∈ (cut literal).flatMap Part.segments :=
        hsegs ▸ List.mem_map_of_mem hs
      obtain ⟨p, hp, hs⟩ := List.mem_flatMap.mp hmem
      exact (inStep_unplaced s).mp (inStep_segments (hr p hp) _ hs)
    · have hplace : segs.filterMap (fun s => s.argument?.map Argument.text) =
          (segs.map Segment.unplaced).filterMap fun s => s.argument?.map Argument.text := by
        simp [List.filterMap_map, argument?_unplaced]
      rw [List.map_filterMap, hplace, hsegs, List.filterMap_flatMap]
      simp only [filterMap_argument?_segments, ← List.filterMap_eq_flatMap_toList]
    · rw [← readInStep_unplaced, hsegs]
      exact readInStep_cut hr
  · simp [Except.toOption] at hcut

/-! ### Emitted expressions -/

/-- Without braces, a template is text. -/
theorem items_of_isPlain {template : Text} (h : Emission.isPlain template = true) :
    items template = .ok (template.map .text) := by
  induction template with
  | nil => exact Template.items_nil
  | cons c template ih =>
    obtain ⟨⟨ho, hc⟩, hrest⟩ : (c ≠ .char '{' ∧ c ≠ .char '}') ∧
        Emission.isPlain template = true := by
      simpa [Emission.isPlain] using h
    rw [Template.items_cons_plain ho hc, ih hrest]
    rfl

/-- Whichever form the expression for a message has, it amounts to the filled template. -/
theorem evaluate_messageForm (d : Descriptor.Message) (values : List α)
    (misfit : Template.Misfit α → ε) (format : α → Option Conversion → Text → Except ε Text) :
    (Emission.messageForm d).evaluate values misfit format =
      Template.fill values misfit format d.template := by
  unfold Emission.messageForm
  split
  · next h =>
    have hitems := items_of_isPlain (Bool.and_eq_true_iff.mp h).2
    have hnone : fields (d.template.map Item.text) = [] := by
      simpa using Template.fields_text_append d.template []
    have hrender := Template.render_text_append format values d.template []
    rw [List.append_nil] at hrender
    rw [Template.fill_eq_render values misfit format hitems (by simp [hnone]) (by simp [hnone]),
      hrender]
    cases values <;> simp [Template.render, Except.map, Emission.Form.evaluate]
  · rfl

/-- **A literal of regular parts is compiled** exactly if its parts are sound. Its arguments are
then those of the placeholders, and the expression emitted for it amounts to what is read out of the
literal from left to right. -/
theorem compile_reads {strict : Bool} {literal : Text} (hr : ∀ p ∈ cut literal, p.IsRegular) :
    ((∃ m, compile strict literal = .ok m) ↔ ∀ p ∈ cut literal, p.IsSound strict) ∧
      ∀ m, compile strict literal = .ok m →
        m.arguments.map Argument.text = (cut literal).filterMap Part.argument? ∧
        ∀ d : Descriptor.Message, d.template = m.template →
          ∀ {α ε : Type} (values : List α) (misfit : Template.Misfit α → ε)
            (format : α → Option Conversion → Text → Except ε Text),
            values.length = m.arguments.length →
            (Emission.Form.read? (Emission.message d).toList).map
                (·.evaluate values misfit format) =
              some (readOut format values (cut literal)) := by
  have hread : ∀ {segs its}, segments strict 0 literal = .ok segs →
      items (Message.ofSegments segs).template = .ok its →
      (∀ p ∈ cut literal, p.IsPaired) ∧ its = (cut literal).flatMap Part.items := by
    intro segs its hsegs hits
    have hf := follows_of_segments hr hsegs
    have htemplate := items_template hf.isCut hf.inStep false
    rw [hf.read, show owing false ++ segs.flatMap Segment.template =
      (Message.ofSegments segs).template from rfl, hits] at htemplate
    split at htemplate
    · next hpaired => exact ⟨hpaired, by simpa using htemplate⟩
    · simp at htemplate
  refine ⟨⟨?_, fun hs => ?_⟩, ?_⟩
  · rintro ⟨m, h⟩ p hp
    obtain ⟨segs, its, hsegs, hits, -⟩ := compile_eq_ok_iff.mp h
    have hcut := segments_cut hr strict 0
    rw [hsegs] at hcut
    split at hcut
    · next hclosed => exact isSound_iff.mpr ⟨hclosed p hp, (hread hsegs hits).1 p hp⟩
    · simp [Except.toOption] at hcut
  · have hclosed : ∀ p ∈ cut literal, p.IsClosed strict := fun p hp => (isSound_iff.mp (hs p hp)).1
    have hpaired : ∀ p ∈ cut literal, p.IsPaired := fun p hp => (isSound_iff.mp (hs p hp)).2
    have hcut := segments_cut hr strict 0
    rw [if_pos hclosed] at hcut
    cases hsegs : segments strict 0 literal with
    | error fault => simp [hsegs, Except.toOption] at hcut
    | ok segs =>
      have hf := follows_of_segments hr hsegs
      have htemplate := items_template hf.isCut hf.inStep false
      rw [hf.read, if_pos hpaired] at htemplate
      exact ⟨_, compile_eq_ok_iff.mpr ⟨segs, _, hsegs, htemplate, rfl⟩⟩
  · intro m h
    obtain ⟨segs, its, hsegs, hits, rfl⟩ := compile_eq_ok_iff.mp h
    have hf := follows_of_segments hr hsegs
    refine ⟨hf.arguments, fun d hd α ε values misfit format hl => ?_⟩
    obtain ⟨hpaired, rfl⟩ := hread hsegs hits
    have hfields : fields ((cut literal).flatMap Part.items) = segs.filterMap Segment.field? := by
      have hsome := hf.read
      rw [if_pos hpaired] at hsome
      exact fields_readInStep hsome
    have hplain : ∀ f ∈ fields ((cut literal).flatMap Part.items), f.IsPlain := by
      rw [hfields]
      exact isPlain_of_inStep hf.isCut fun argument format hm => hf.inStep _ hm
    have hvalues : (fields ((cut literal).flatMap Part.items)).length ≤ values.length := by
      rw [hfields, length_filterMap_field?, hl]
      exact Nat.le_refl _
    rw [Emission.read?_message, Option.map_some, evaluate_messageForm, hd,
      Template.fill_eq_render values misfit format hits hplain hvalues, readOut_eq_render]

/-- The expression for a literal with a placeholder and doubled braces, for any form of the
value. -/
theorem compile_reads_width :
    ∃ m, compile true (Text.ofString "\x7b\x7b\x7bx!r:>4\x7d\x7b\x7b\x7d\x7d") = .ok m ∧
      ∀ (d : Descriptor.Message) (shown : Text), d.template = m.template →
        (Emission.Form.read? (Emission.message d).toList).map
            (·.evaluate [()] (fun _ => ()) fun _ _ _ => .ok shown) =
          some (.ok (.char '{' :: (shown ++ Text.ofString "\x7b\x7d"))) := by
  have hr : ∀ p ∈ cut (Text.ofString "\x7b\x7b\x7bx!r:>4\x7d\x7b\x7b\x7d\x7d"), p.IsRegular := by
    decide +kernel
  obtain ⟨m, hm⟩ := (@compile_reads true _ hr).1.mpr (by decide +kernel)
  obtain ⟨hargs, heval⟩ := (@compile_reads true _ hr).2 m hm
  have hlen : [()].length = m.arguments.length := by
    rw [← List.length_map (f := Argument.text), hargs]
    decide +kernel
  refine ⟨m, hm, fun d shown hd => ?_⟩
  have hcut : cut (Text.ofString "\x7b\x7b\x7bx!r:>4\x7d\x7b\x7b\x7d\x7d") =
      [.brace, .placeholder (Text.ofString "x!r:>4") false, .brace, .closes 2] := by decide +kernel
  rw [heval d hd [()] (fun _ => ()) (fun _ _ _ => .ok shown) hlen, hcut]
  rfl

end Errata.Placeholder
