import Errata.Message.Filling
import Errata.Message.Placeholder
import Errata.Proofs.Outcome

/-!
# Filling templates item by item

What a template says is a sequence of items, and filling it goes item by item. A template of plain
fields takes the values one after the other.

* `items`: the items of a template, or its first fault.
* `items_cons_plain`, `items_cons_open`, `items_cons_close`: **one item at a time**, by the code
  points that the template starts with.
* `items_cons_field`: a field is read by `readField`, and reading goes on behind it.
* `Field.IsPlain`: plain fields.
* `render`: items with the fields replaced by formatted values, from left to right.
* `fillItems`, **`fillFrom_eq_fillItems`**: a template of any fields is filled item by item.
* **`fill_eq_render`**: a template whose fields are plain and not more than there are values is
  filled by `render`. Whatever fails then fails in formatting a value; the template never misses a
  value and never asks for one by name.
* `follows_fill`: a template is filled alike with related values that are formatted alike.
-/

/-! ## Items

`chunks` reads a template in chunks, because filling one stops at the first fault behind fields that
are already filled. What a template says does not depend on where its chunks end: it is a sequence
of items, each a code point or a field. Each form of text begins one.
-/

namespace Errata.Template

/-! ### Items -/

/-- A part of a template that cannot be cut further. -/
inductive Item where
  /-- A code point, for a doubled brace the brace. -/
  | text (c : CodePoint)
  /-- A field. -/
  | field (f : Field)
deriving DecidableEq, Repr

/-- The fields among items. -/
def fields : List Item → List Field
  | [] => []
  | .text _ :: rest => fields rest
  | .field f :: rest => f :: fields rest

@[simp] theorem fields_nil : fields [] = [] := rfl

@[simp] theorem fields_cons_text (c : CodePoint) (rest : List Item) :
    fields (.text c :: rest) = fields rest := rfl

@[simp] theorem fields_cons_field (f : Field) (rest : List Item) :
    fields (.field f :: rest) = f :: fields rest := rfl

@[simp] theorem fields_text_append (literal : Text) (rest : List Item) :
    fields (literal.map .text ++ rest) = fields rest := by
  induction literal with
  | nil => rfl
  | cons c literal ih => simpa using ih

/-- The items of a chunk. -/
def Chunk.items (c : Chunk) : List Item :=
  c.literal.map .text ++ (c.field.map .field).toList

/-- The items of a template, or its first fault. -/
def items (template : Text) : Except Fault (List Item) :=
  (chunks template).map fun cs => cs.flatMap Chunk.items

/-! ### Reading one chunk more -/

/-- The chunks of a template that is not empty are its first chunk and those of the rest. -/
theorem chunks_eq_bind {template : Text} (ht : template ≠ []) :
    chunks template =
      (next template).bind fun (chunk, rest) => (chunks rest).map (chunk :: ·) := by
  rw [chunks, dif_neg ht]
  split
  · next fault h => rw [h]; rfl
  · next chunk rest h => simp only [h, Except.bind]

/-- There are no items in an empty template. -/
@[simp] theorem items_nil : items [] = .ok [] := by
  simp [items, chunks, Except.map]

/-- The items of a template that is not empty are those of its first chunk and of the rest. -/
theorem items_eq_bind {template : Text} (ht : template ≠ []) :
    items template =
      (next template).bind fun (chunk, rest) => (items rest).map (chunk.items ++ ·) := by
  rw [items, chunks_eq_bind ht]
  cases next template with
  | error fault => rfl
  | ok result =>
    simp only [Except.bind, items]
    cases chunks result.2 <;> simp [Except.map]

/-! ### Reading one item more -/

/-- The first chunk of a template that starts with a code point other than a brace. -/
theorem next_cons_plain {c : CodePoint} (ho : c ≠ .char '{') (hc : c ≠ .char '}') (rest : Text) :
    next (c :: rest) =
      (next rest).map fun (chunk, after) => (⟨c :: chunk.literal, chunk.field⟩, after) := by
  have hl : literalRun (c :: rest) = (c :: (literalRun rest).1, (literalRun rest).2) := by
    rw [literalRun]
    · simpa using ho
    · simpa using hc
  unfold next
  rw [hl]
  rcases literalRun rest with ⟨literal, stop⟩
  cases stop with
  | atEnd => rfl
  | atDoubled after => rfl
  | atFault fault => rfl
  | atField after =>
    simp only
    cases readField after <;> rfl

/-- A code point other than a brace is an item. -/
theorem items_cons_plain {c : CodePoint} (ho : c ≠ .char '{') (hc : c ≠ .char '}') (rest : Text) :
    items (c :: rest) = (items rest).map (.text c :: ·) := by
  rw [items_eq_bind (List.cons_ne_nil c rest), next_cons_plain ho hc]
  by_cases hr : rest = []
  · subst hr
    rfl
  · rw [items_eq_bind hr]
    cases next rest with
    | error fault => rfl
    | ok result =>
      simp only [Except.map, Except.bind]
      cases items result.2 <;> rfl

/-- A doubled opening brace is an item. -/
theorem items_cons_open (rest : Text) :
    items (.char '{' :: .char '{' :: rest) = (items rest).map (.text (.char '{') :: ·) := by
  rw [items_eq_bind (List.cons_ne_nil _ _)]
  simp only [next, literalRun, Except.bind]
  cases items rest <;> rfl

/-- A doubled closing brace is an item. -/
theorem items_cons_close (rest : Text) :
    items (.char '}' :: .char '}' :: rest) = (items rest).map (.text (.char '}') :: ·) := by
  rw [items_eq_bind (List.cons_ne_nil _ _)]
  simp only [next, literalRun, Except.bind]
  cases items rest <;> rfl

/-- A closing brace that stands alone is a fault. -/
theorem items_cons_lone_close {rest : Text} (h : rest.head? ≠ some (.char '}')) :
    items (.char '}' :: rest) = .error .loneClose := by
  have hl : literalRun (.char '}' :: rest) = ([], .atFault .loneClose) := by
    match rest, h with
    | [], _ => rfl
    | c :: after, h =>
      have hc : c ≠ .char '}' := by simpa using h
      simp [literalRun, hc]
  rw [items_eq_bind (List.cons_ne_nil _ _), next, hl]
  rfl

/-- A single opening brace starts a field, and reading goes on behind the field. -/
theorem items_cons_field {rest : Text} (hn : rest ≠ []) (h : rest.head? ≠ some (.char '{')) :
    items (.char '{' :: rest) =
      (readField rest).bind fun (field, after) => (items after).map (.field field :: ·) := by
  have hl : literalRun (.char '{' :: rest) = ([], .atField rest) := by
    match rest, hn, h with
    | c :: after, _, h =>
      have hc : c ≠ .char '{' := by simpa using h
      simp [literalRun, hc]
  rw [items_eq_bind (List.cons_ne_nil _ _), next, hl]
  cases hf : readField rest with
  | error fault => simp [hf, Except.map, Except.bind]
  | ok result => simp [hf, Except.map, Except.bind, Chunk.items]

end Errata.Template

/-! ## Filling

A field is *plain* if it has no name, a conversion that has a meaning, and a specification without
fields of its own. Filling a template of plain fields takes the values one after the other.
-/

namespace Errata.Template

/-! ### Plain fields -/

/-- What the letter of a conversion means. -/
def Conversion.ofLetter? : Option CodePoint → Option Conversion
  | some (.char 's') => some .plain
  | some (.char 'r') => some .written
  | some (.char 'a') => some .ascii
  | _ => none

/-- A field that takes the next value and formats it as it says itself. -/
structure Field.IsPlain (f : Field) : Prop where
  /-- It has no name. -/
  name : f.name = []
  /-- Its conversion means something. -/
  conversion : ∀ c ∈ f.conversion, Placeholder.isConversion c = true
  /-- Its specification has no fields. -/
  spec : CodePoint.char '{' ∉ f.spec

/-- The conversion of a plain field has its meaning when the field is filled. -/
theorem Field.IsPlain.conversion?_eq {α : Type} {f : Field} (h : f.IsPlain) :
    conversion? (α := α) f.conversion = .ok (Conversion.ofLetter? f.conversion) := by
  cases hc : f.conversion with
  | none => rfl
  | some c =>
    have hletter := h.conversion c (by simp [hc])
    simp only [Placeholder.isConversion, Bool.or_eq_true, beq_iff_eq] at hletter
    rcases hletter with (rfl | rfl) | rfl <;> rfl

/-! ### Rendering items -/

variable {α ε : Type}

/-- Items with each field replaced by the next value, formatted. -/
def render (format : α → Option Conversion → Text → Except ε Text) :
    List α → List Item → Except ε Text
  | _, [] => .ok []
  | values, .text c :: rest => (render format values rest).map (c :: ·)
  | [], .field _ :: _ => .ok []
  | v :: values, .field f :: rest => do
    let shown ← format v (Conversion.ofLetter? f.conversion) f.spec
    let after ← render format values rest
    return shown ++ after

/-- Text in front of items stays as it is. -/
theorem render_text_append (format : α → Option Conversion → Text → Except ε Text)
    (values : List α) (literal : Text) (its : List Item) :
    render format values (literal.map .text ++ its) =
      (render format values its).map (literal ++ ·) := by
  induction literal with
  | nil => cases h : render format values its <;> simp [h, Except.map]
  | cons c literal ih =>
    rw [List.map_cons, List.cons_append, render, ih]
    cases render format values its <;> rfl

/-! ### Taking values in order -/

/-- The number of the value that the next field without a name takes. -/
def Numbering.next? : Numbering → Option Nat
  | unused => some 0
  | inOrder next => some next
  | byNumber => none

/-- A field without a name takes the next value. -/
theorem choose_unnamed {values : List α} {numbering : Numbering} {k : Nat}
    (hk : numbering.next? = some k) (h : k < values.length) :
    choose values numbering [] = .ok (values[k], .inOrder (k + 1)) := by
  cases numbering with
  | unused =>
    obtain rfl : 0 = k := by simpa [Numbering.next?] using hk
    simp [choose, index?, Spec.number?, bind, Except.bind, pure, Except.pure, h]
  | inOrder next =>
    obtain rfl : next = k := by simpa [Numbering.next?] using hk
    simp [choose, index?, Spec.number?, bind, Except.bind, pure, Except.pure, h]
  | byNumber => simp [Numbering.next?] at hk

/-- What a field of a chunk is filled with, and the numbering behind it. -/
def fillField (values : List α) (misfit : Misfit α → ε)
    (format : α → Option Conversion → Text → Except ε Text) (depth : Nat) (numbering : Numbering) :
    Option Field → Except ε (Text × Numbering)
  | none => pure ([], numbering)
  | some field => do
    let (value, numbering) ← (choose values numbering field.name).mapError misfit
    let conversion ← (conversion? field.conversion).mapError misfit
    let (spec, numbering) ←
      if .char '{' ∈ field.spec then fillFrom values misfit format depth numbering field.spec
      else pure (field.spec, numbering)
    let shown ← format value conversion spec
    pure (shown, numbering)

/-- Filling a template that is not empty fills its first chunk and then the rest. -/
theorem fillFrom_eq_bind (values : List α) (misfit : Misfit α → ε)
    (format : α → Option Conversion → Text → Except ε Text) (depth : Nat) (numbering : Numbering)
    {template : Text} (ht : template ≠ []) :
    fillFrom values misfit format (depth + 1) numbering template =
      ((next template).mapError fun fault => misfit (.malformed fault)).bind fun (chunk, rest) =>
        (fillField values misfit format depth numbering chunk.field).bind fun (shown, numbering) =>
          (fillFrom values misfit format (depth + 1) numbering rest).map fun (after, numbering) =>
            (chunk.literal ++ shown ++ after, numbering) := by
  rw [fillFrom, dif_neg ht]
  split
  · next fault h => simp [h, Except.bind]
  · next chunk rest h =>
    simp only [h, Outcome.mapError_ok, Except.bind]
    cases hf : chunk.field with
    | none =>
      simp only [fillField, pure, Except.pure, bind, Except.bind]
      cases fillFrom values misfit format (depth + 1) numbering rest <;> rfl
    | some field =>
      simp only [fillField, bind, Except.bind, pure, Except.pure, Except.map]
      cases choose values numbering field.name with
      | error e => rfl
      | ok chosen =>
        cases conversion? (α := α) field.conversion with
        | error e => rfl
        | ok conversion =>
          simp only [Outcome.mapError_ok]
          by_cases hs : .char '{' ∈ field.spec
          · simp only [if_pos hs]
            cases fillFrom values misfit format depth chosen.2 field.spec with
            | error e => rfl
            | ok filled =>
              simp only
              cases format chosen.1 conversion filled.1 <;> simp
          · simp only [if_neg hs]
            cases format chosen.1 conversion field.spec <;> simp

/-- A plain field is filled with the next value. -/
theorem fillField_plain {values : List α} (misfit : Misfit α → ε)
    (format : α → Option Conversion → Text → Except ε Text) (depth : Nat) {numbering : Numbering}
    {k : Nat} (hk : numbering.next? = some k) (h : k < values.length) {field : Field}
    (hp : field.IsPlain) :
    fillField values misfit format depth numbering (some field) =
      (format values[k] (Conversion.ofLetter? field.conversion) field.spec).map
        (·, .inOrder (k + 1)) := by
  simp only [fillField, hp.name, choose_unnamed hk h, hp.conversion?_eq, Outcome.mapError_ok,
    if_neg hp.spec, bind, Except.bind, pure, Except.pure]
  cases format values[k] (Conversion.ofLetter? field.conversion) field.spec <;> rfl

/-! ### Filling item by item -/

/-- The items of the rest of a template, when those of the whole are known. -/
theorem items_eq_ok {template : Text} (ht : template ≠ []) {its : List Item}
    (h : items template = .ok its) :
    ∃ chunk rest more, next template = .ok (chunk, rest) ∧ items rest = .ok more ∧
      its = chunk.items ++ more := by
  rw [items_eq_bind ht] at h
  cases hn : next template with
  | error fault => simp [hn, Except.bind] at h
  | ok result =>
    cases hm : items result.2 with
    | error fault => simp [hn, hm, Except.bind, Except.map] at h
    | ok more =>
      refine ⟨result.1, result.2, more, rfl, hm, ?_⟩
      simpa [hn, hm, Except.bind, Except.map] using h.symm

/-- Items with each field filled, and the numbering behind them. -/
def fillItems (values : List α) (misfit : Misfit α → ε)
    (format : α → Option Conversion → Text → Except ε Text) (depth : Nat) :
    Numbering → List Item → Except ε (Text × Numbering)
  | numbering, [] => .ok ([], numbering)
  | numbering, .text c :: rest =>
    (fillItems values misfit format depth numbering rest).map
      fun (after, last) => (c :: after, last)
  | numbering, .field f :: rest => do
    let (shown, next) ← fillField values misfit format depth numbering (some f)
    let (after, last) ← fillItems values misfit format depth next rest
    return (shown ++ after, last)

section Items

variable (values : List α) (misfit : Misfit α → ε)
  (format : α → Option Conversion → Text → Except ε Text) (depth : Nat)

/-- **Items are filled one behind the other.** -/
theorem fillItems_append (numbering : Numbering) (front back : List Item) :
    fillItems values misfit format depth numbering (front ++ back) =
      (fillItems values misfit format depth numbering front).bind fun (shown, next) =>
        (fillItems values misfit format depth next back).map fun (after, last) =>
          (shown ++ after, last) := by
  induction front generalizing numbering with
  | nil =>
    simp only [List.nil_append, fillItems, Except.bind]
    cases fillItems values misfit format depth numbering back <;> rfl
  | cons item front ih =>
    cases item with
    | text c =>
      simp only [List.cons_append, fillItems, ih]
      cases fillItems values misfit format depth numbering front with
      | error e => rfl
      | ok first =>
        simp only [Except.bind, Except.map]
        cases fillItems values misfit format depth first.2 back <;> rfl
    | field f =>
      simp only [List.cons_append, fillItems, ih, bind, Except.bind]
      cases fillField values misfit format depth numbering (some f) with
      | error e => rfl
      | ok filled =>
        simp only
        cases fillItems values misfit format depth filled.2 front with
        | error e => rfl
        | ok first =>
          simp only [Except.map, pure, Except.pure]
          cases fillItems values misfit format depth first.2 back with
          | error e => rfl
          | ok last => simp

/-- Text is filled as it is, and takes no value. -/
@[simp] theorem fillItems_text (numbering : Numbering) (literal : Text) :
    fillItems values misfit format depth numbering (literal.map .text) =
      .ok (literal, numbering) := by
  induction literal with
  | nil => rfl
  | cons c literal ih =>
    rw [List.map_cons, fillItems, ih]
    rfl

/-- Text in front of items stays as it is. -/
theorem fillItems_text_append (numbering : Numbering) (literal : Text) (its : List Item) :
    fillItems values misfit format depth numbering (literal.map .text ++ its) =
      (fillItems values misfit format depth numbering its).map fun (after, last) =>
        (literal ++ after, last) := by
  rw [fillItems_append, fillItems_text]
  rfl

/-- **A template is filled item by item.** -/
theorem fillFrom_eq_fillItems (numbering : Numbering) {template : Text} {its : List Item}
    (hi : items template = .ok its) :
    fillFrom values misfit format (depth + 1) numbering template =
      fillItems values misfit format depth numbering its := by
  induction hn : template.length using Nat.strongRecOn generalizing template its numbering with
  | ind n ih =>
    by_cases ht : template = []
    · subst ht
      obtain rfl : [] = its := by simpa using hi
      simp [fillFrom, fillItems]
    obtain ⟨chunk, rest, more, hnext, hm, rfl⟩ := items_eq_ok ht hi
    have hshort : rest.length < n := hn ▸ length_next_lt hnext ht
    have hrest := fun numbering => ih rest.length hshort numbering hm rfl
    rw [fillFrom_eq_bind values misfit format depth numbering ht, hnext, Chunk.items,
      List.append_assoc, fillItems_append, fillItems_text]
    simp only [Outcome.mapError_ok, Except.bind, hrest]
    cases chunk.field with
    | none =>
      simp only [fillField, pure, Except.pure, Option.map_none, Option.toList_none,
        List.nil_append, List.append_nil]
    | some field =>
      simp only [Option.map_some, Option.toList_some, List.singleton_append, fillItems, bind,
        Except.bind]
      cases fillField values misfit format depth numbering (some field) with
      | error e => rfl
      | ok filled =>
        simp only [Except.map]
        cases fillItems values misfit format depth filled.2 more <;> simp [pure, Except.pure]

end Items

/-! ### Filling plain templates -/

/-- Plain fields are filled with the values from that of number `k` on. -/
theorem fillItems_eq_render (values : List α) (misfit : Misfit α → ε)
    (format : α → Option Conversion → Text → Except ε Text) (depth : Nat) {numbering : Numbering}
    {k : Nat} (hk : numbering.next? = some k) {its : List Item} (hp : ∀ f ∈ fields its, f.IsPlain)
    (hl : k + (fields its).length ≤ values.length) :
    (fillItems values misfit format depth numbering its).map Prod.fst =
      render format (values.drop k) its := by
  induction its generalizing numbering k with
  | nil => simp [fillItems, render, Except.map]
  | cons item its ih =>
    cases item with
    | text c =>
      rw [fields_cons_text] at hp hl
      rw [fillItems, render, ← ih hk hp hl]
      cases fillItems values misfit format depth numbering its <;> rfl
    | field f =>
      rw [fields_cons_field] at hp hl
      rw [List.length_cons] at hl
      have hlt : k < values.length := by omega
      have hlater : (Numbering.inOrder (k + 1)).next? = some (k + 1) := rfl
      have hrest := ih hlater (fun g hg => hp g (List.mem_cons_of_mem f hg)) (by omega)
      rw [fillItems, fillField_plain misfit format depth hk hlt (hp f List.mem_cons_self),
        List.drop_eq_getElem_cons hlt, render, ← hrest]
      cases format values[k] (Conversion.ofLetter? f.conversion) f.spec with
      | error e => rfl
      | ok shown =>
        simp only [Except.map, bind, Except.bind]
        cases fillItems values misfit format depth (.inOrder (k + 1)) its <;> rfl

/-- **Plain templates are filled by rendering**: with as many values as there are fields, the filled
template is its items, each field in its place with the value of its number. -/
theorem fill_eq_render (values : List α) (misfit : Misfit α → ε)
    (format : α → Option Conversion → Text → Except ε Text) {template : Text} {its : List Item}
    (hi : items template = .ok its) (hp : ∀ f ∈ fields its, f.IsPlain)
    (hl : (fields its).length ≤ values.length) :
    fill values misfit format template = render format values its := by
  have hfirst : Numbering.unused.next? = some 0 := rfl
  have h := fillItems_eq_render values misfit format 1 hfirst hp (by simpa using hl)
  rw [fill, fillFrom_eq_fillItems values misfit format 1 .unused hi]
  simpa using h

/-- If rendering fails, it fails in formatting a value. -/
theorem exists_format_of_render {format : α → Option Conversion → Text → Except ε Text}
    {values : List α} {its : List Item} {e : ε} (h : render format values its = .error e) :
    ∃ v conversion spec, format v conversion spec = .error e := by
  induction its generalizing values with
  | nil => cases values <;> cases h
  | cons item its ih =>
    cases item with
    | text c =>
      have hr : (render format values its).map (c :: ·) = .error e := by
        cases values <;> exact h
      cases hrest : render format values its with
      | error e' =>
        rw [hrest] at hr
        cases hr
        exact ih hrest
      | ok shown => simp [hrest, Except.map] at hr
    | field f =>
      cases values with
      | nil => cases h
      | cons v values =>
        rw [render] at h
        cases hv : format v (Conversion.ofLetter? f.conversion) f.spec with
        | error e' =>
          rw [hv] at h
          cases h
          exact ⟨v, _, _, hv⟩
        | ok shown =>
          cases hrest : render format values its with
          | error e' =>
            rw [hv, hrest] at h
            cases h
            exact ih hrest
          | ok after => simp [hv, hrest, bind, Except.bind, pure, Except.pure] at h

/-! ### Related values -/

section

open Outcome (Follows)

variable {P : α → α → Prop} {values values' : List α}
  {format format' : α → Option Conversion → Text → Except ε Text}

/-- The number of the value that a field takes, and the numbering behind it. -/
def numberOf (numbering : Numbering) (head : Text) (explicit : Option Nat) :
    Except (Misfit α) (Nat × Numbering) :=
  match head, explicit, numbering with
  | [], _, .byNumber => throw .unnamedAfterNumbered
  | [], _, .inOrder next => pure (next, .inOrder (next + 1))
  | [], _, .unused => pure (0, .inOrder 1)
  | _, some _, .inOrder _ => throw .numberedAfterUnnamed
  | _, some n, _ => pure (n, .byNumber)
  | _, none, _ => throw (.named head)

/-- The value of a number, of which no part is asked for. -/
def valueAt (values : List α) (path : Text) (number : Nat × Numbering) :
    Except (Misfit α) (α × Numbering) := do
  let some value := values[number.1]? | throw (.missing number.1)
  if path.isEmpty then return (value, number.2) else throw (.part value path)

/-- A value is chosen by its number. -/
theorem choose_eq_bind (values : List α) (numbering : Numbering) (name : Text) :
    choose values numbering name =
      index? (name.takeWhile fun c => !startsPart c) >>= fun explicit =>
        numberOf numbering (name.takeWhile fun c => !startsPart c) explicit >>=
          valueAt values (name.dropWhile fun c => !startsPart c) := by
  unfold choose numberOf
  refine congrArg _ (funext fun explicit => ?_)
  dsimp only
  generalize name.takeWhile (fun c => !startsPart c) = head
  cases head <;> cases explicit <;> cases numbering <;> rfl

/-- Of related values, related ones are chosen. -/
theorem follows_choose (h : List.Forall₂ P values values') (numbering : Numbering) (name : Text) :
    Follows (fun a b => P a.1 b.1 ∧ a.2 = b.2) (choose values numbering name)
      (choose values' numbering name) := by
  rw [choose_eq_bind, choose_eq_bind]
  refine (Follows.refl _).bind ?_
  rintro explicit _ rfl
  refine (Follows.refl _).bind ?_
  rintro ⟨index, behind⟩ _ rfl
  have hat : Option.Rel P values[index]? values'[index]? := by
    clear explicit
    induction h generalizing index with
    | nil => exact .none
    | cons hfirst _ ih =>
      cases index with
      | zero => exact .some hfirst
      | succ index => exact ih index
  unfold valueAt
  dsimp only
  generalize values[index]? = found at hat ⊢
  generalize values'[index]? = found' at hat ⊢
  cases hat with
  | none => exact Follows.of_error _ _
  | some hab =>
    dsimp only
    split
    · exact Follows.of_ok ⟨hab, rfl⟩
    · exact Follows.of_error _ _

/-- A field is filled alike with related values that are formatted alike. -/
theorem follows_fillField (h : List.Forall₂ P values values') (misfit : Misfit α → ε) {depth : Nat}
    (hformat : ∀ a b, P a b → ∀ c specification,
      Follows Eq (format a c specification) (format' b c specification))
    (hnested : ∀ numbering specification,
      Follows Eq (fillFrom values misfit format depth numbering specification)
        (fillFrom values' misfit format' depth numbering specification))
    (numbering : Numbering) (field : Option Field) :
    Follows Eq (fillField values misfit format depth numbering field)
      (fillField values' misfit format' depth numbering field) := by
  cases field with
  | none => exact Follows.refl _
  | some field =>
    refine (follows_choose h numbering field.name).mapError.bind ?_
    rintro ⟨a, behind⟩ ⟨b, _⟩ ⟨hab, rfl⟩
    refine (Follows.refl _).bind ?_
    rintro conversion _ rfl
    have hshown : ∀ filled : Text × Numbering,
        Follows Eq (format a conversion filled.1 >>= fun shown => pure (shown, filled.2))
          (format' b conversion filled.1 >>= fun shown => pure (shown, filled.2)) := by
      intro filled
      refine (hformat a b hab conversion filled.1).bind ?_
      rintro shown _ rfl
      exact Follows.refl _
    dsimp only
    split
    · refine (hnested _ _).bind ?_
      rintro filled _ rfl
      exact hshown filled
    · exact hshown (field.spec, behind)

/-- The rest of a template is filled alike with related values that are formatted alike. -/
theorem follows_fillFrom (h : List.Forall₂ P values values') (misfit : Misfit α → ε)
    (hformat : ∀ a b, P a b → ∀ c specification,
      Follows Eq (format a c specification) (format' b c specification))
    (depth : Nat) (numbering : Numbering) (template : Text) :
    Follows Eq (fillFrom values misfit format depth numbering template)
      (fillFrom values' misfit format' depth numbering template) := by
  induction depth generalizing numbering template with
  | zero =>
    rw [fillFrom, fillFrom]
    exact Follows.refl _
  | succ depth hnested =>
    induction hn : template.length using Nat.strongRecOn generalizing numbering template with
    | ind n ih =>
      by_cases ht : template = []
      · subst ht
        rw [fillFrom, fillFrom]
        exact Follows.refl _
      rw [fillFrom_eq_bind values misfit format depth numbering ht,
        fillFrom_eq_bind values' misfit format' depth numbering ht]
      intro filled hfilled
      obtain ⟨⟨chunk, rest⟩, hnext, hfilled⟩ := Outcome.bind_eq_ok_iff.mp hfilled
      have hshort : rest.length < n :=
        hn ▸ length_next_lt (Outcome.mapError_eq_ok_iff.mp hnext) ht
      refine ⟨filled, Outcome.bind_eq_ok_iff.mpr ⟨(chunk, rest), hnext, ?_⟩, rfl⟩
      obtain ⟨⟨shown, behind⟩, hshown, hfilled⟩ := Outcome.bind_eq_ok_iff.mp hfilled
      obtain ⟨_, hshown', rfl⟩ :=
        follows_fillField h misfit hformat hnested numbering chunk.field _ hshown
      obtain ⟨after, hafter, rfl⟩ := Outcome.map_eq_ok_iff.mp hfilled
      obtain ⟨_, hafter', rfl⟩ := ih rest.length hshort behind rest rfl _ hafter
      exact Outcome.bind_eq_ok_iff.mpr ⟨_, hshown', Outcome.map_eq_ok_iff.mpr ⟨_, hafter', rfl⟩⟩

/-- A template is filled alike with related values that are formatted alike. -/
theorem follows_fill (h : List.Forall₂ P values values') (misfit : Misfit α → ε)
    (hformat : ∀ a b, P a b → ∀ c specification,
      Follows Eq (format a c specification) (format' b c specification)) (template : Text) :
    Follows Eq (fill values misfit format template) (fill values' misfit format' template) :=
  (follows_fillFrom h misfit hformat 2 .unused template).map (by rintro a _ rfl; rfl)

end

end Errata.Template
