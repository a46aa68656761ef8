import Errata.Error.Render
import Errata.Proofs.Error.Alike
import Errata.Proofs.Message.Filling
import Mathlib.Data.Finset.Prod
import Mathlib.Order.Monotone.Basic

/-!
# The forms of objects

The form of an object is found from the forms of the objects it contains, down to a depth of one
more than there are forms, two for each object. This file shows that no depth beyond that adds
anything: the forms are those that every object has if all objects have them. Where one store
mirrors another, and the interpreter tells no partners apart, partners have the same forms.

* `Interpreter.Agrees`: whether the interpreter tells no partners apart.
* `Forms.Match`: whether related objects have the same forms; `Store.Mirrors.match_objectText`:
  **partners have the same forms** if the objects they contain do.
* `Forms.Le`: whether objects keep the forms they have; `le_objectText`: an object keeps its forms
  if the objects it contains do.
* `Store.shown`: the forms that there are; `Store.le_formsUpTo`: beyond their number, a greater
  depth adds nothing.
* **`Store.forms_eq_ok_iff`**: the form of an object is what comes of the forms of all objects.
* **`Store.Mirrors.str_eq_ok_iff`**: values that are alike have the same plain form.
-/

namespace Errata.Error

open Outcome (Follows Le)

variable {R : Ref → Ref → Prop}

/-! ### Arguments that are alike -/

/-- Among arguments that are alike, those for files are. -/
theorem filesOf_alike (kind : Class) {vs ws : List Value}
    (hvs : List.Forall₂ (Value.Alike R) vs ws) :
    List.Forall₂ (Value.Alike R) (filesOf kind vs) (filesOf kind ws) := by
  have hhead : vs.head?.any Value.isNumber = ws.head?.any Value.isNumber := by
    cases hvs with
    | nil => rfl
    | cons hv => exact hv.isNumber_eq
  unfold filesOf
  rw [hhead]
  split
  · exact .nil
  · exact hvs

/-- Errors of the system keep arguments that are alike if they were made with such. -/
theorem systemArguments_alike (kind : Class) {vs ws : List Value}
    (hvs : List.Forall₂ (Value.Alike R) vs ws) :
    List.Forall₂ (Value.Alike R) (systemArguments kind vs) (systemArguments kind ws) := by
  cases hvs with
  | nil => exact .nil
  | cons hnumber hvs =>
    cases hvs with
    | nil => exact .cons hnumber .nil
    | @cons _ _ rest rest' hwording hrest =>
      have hfile : ((filesOf kind rest).head?.any fun file => !file.isNone) =
          (filesOf kind rest').head?.any fun file => !file.isNone := by
        have hfiles := filesOf_alike kind hrest
        generalize filesOf kind rest = files at hfiles ⊢
        generalize filesOf kind rest' = files' at hfiles ⊢
        cases hfiles with
        | nil => rfl
        | cons hfile => exact congrArg Bool.not hfile.isNone_eq
      simp only [systemArguments]
      rw [hrest.length_eq, hfile]
      split
      · exact .cons hnumber (.cons hwording .nil)
      · exact .cons hnumber (.cons hwording hrest)

/-- Places of errors of syntax that are alike have the same text. -/
theorem placeText_eq_of_alike {vs ws : List Value} (hvs : List.Forall₂ (Value.Alike R) vs ws) :
    placeText vs = placeText ws := by
  have hfile : vs.head?.bind Value.text? = ws.head?.bind Value.text? := by
    cases hvs with
    | nil => rfl
    | cons hv => exact hv.text?_eq
  have hline : vs.tail.head?.bind Value.int? = ws.tail.head?.bind Value.int? := by
    cases hvs with
    | nil => rfl
    | cons _ hvs =>
      cases hvs with
      | nil => rfl
      | cons hv => exact hv.int?_eq
  unfold placeText
  rw [hfile, hline]

variable [Interpreter]

/-! ### Forms that match -/

/-- Whether objects that are related have the same forms, as far as the first has any. -/
def Forms.Match (R : Ref → Ref → Prop) (f g : Forms) : Prop :=
  ∀ form a b, R a b → Follows Eq (f form a) (g form b)

/-! ### Forms of values -/

section

variable {f g : Forms}

mutual

/-- Values that are alike have the same written form. -/
theorem follows_written (h : f.Match R g) {v w : Value} (hv : v.Alike R w) :
    Follows Eq (written f v) (written g w) := by
  cases hv with
  | object hr =>
    rw [written, written]
    exact h .written _ _ hr
  | list hvs =>
    rw [written, written]
    refine (follows_writtenAll h hvs).bind ?_
    rintro shown _ rfl
    exact Follows.refl _
  | plain hobject hlist =>
    cases v with
    | object r => exact absurd rfl (hobject r)
    | list vs => exact absurd rfl (hlist vs)
    | _ =>
      rw [written, written]
      exact Follows.refl _

/-- Lists of values that are alike have the same written forms. -/
theorem follows_writtenAll (h : f.Match R g) {vs ws : List Value}
    (hvs : List.Forall₂ (Value.Alike R) vs ws) :
    Follows Eq (writtenAll f vs) (writtenAll g ws) := by
  cases hvs with
  | nil =>
    rw [writtenAll, writtenAll]
    exact Follows.refl _
  | cons hv hvs =>
    rw [writtenAll, writtenAll]
    refine (follows_written h hv).bind ?_
    rintro shown _ rfl
    refine (follows_writtenAll h hvs).bind ?_
    rintro others _ rfl
    exact Follows.refl _

end

variable {s t : Store} (h : f.Match R g)

include h

/-- Values that are alike have the same plain form. -/
theorem follows_plain {v w : Value} (hv : v.Alike R w) : Follows Eq (plain f v) (plain g w) := by
  cases hv with
  | object hr => exact h .plain _ _ hr
  | list hvs => exact follows_written h (.list hvs)
  | plain hobject hlist =>
    cases v with
    | object r => exact absurd rfl (hobject r)
    | list vs => exact absurd rfl (hlist vs)
    | text | location | help | other => exact Follows.refl _
    | _ => exact follows_written h (.plain hobject hlist)

/-- Values that are alike have the same text under a specification. -/
theorem follows_formatted {v w : Value} (hv : v.Alike R w) (specification : Text) :
    Follows Eq (formatted s f v specification) (formatted t g w specification) := by
  have hplain := follows_plain h hv
  cases hv with
  | object | list =>
    simp only [formatted]
    split
    · exact hplain
    · exact Follows.of_error _ _
  | plain =>
    cases v with
    | other => exact Follows.refl _
    | _ =>
      simp only [formatted]
      split
      · exact hplain
      · first
        | exact Follows.refl _
        | exact Follows.of_error _ _

/-- Values that are alike have the same text when they are converted. -/
theorem follows_converted {v w : Value} (hv : v.Alike R w)
    (conversion : Option Template.Conversion) (specification : Text) :
    Follows Eq (converted s f v conversion specification)
      (converted t g w conversion specification) := by
  have htext : ∀ text text', text = text' → Follows Eq (formatted s f (.text text) specification)
      (formatted t g (.text text') specification) := by
    rintro text _ rfl
    have hself : (Value.text text).Alike R (.text text) := .plain (by simp) (by simp)
    exact follows_formatted h hself specification
  cases conversion with
  | none => exact follows_formatted h hv specification
  | some conversion =>
    cases conversion with
    | plain => exact (follows_plain h hv).bind htext
    | written => exact (follows_written h hv).bind htext
    | ascii => exact ((follows_written h hv).map fun a b => congrArg inAscii).bind htext

/-! ### Forms of errors that are not generated -/

/-- Values that are alike have the same written form between parentheses. -/
theorem follows_tupleText {vs ws : List Value} (hvs : List.Forall₂ (Value.Alike R) vs ws) :
    Follows Eq (tupleText f vs) (tupleText g ws) := by
  refine (follows_writtenAll h hvs).bind ?_
  rintro shown _ rfl
  exact Follows.refl _

/-- Arguments that are alike have the same plain form. -/
theorem follows_argumentsText {vs ws : List Value} (hvs : List.Forall₂ (Value.Alike R) vs ws) :
    Follows Eq (argumentsText f vs) (argumentsText g ws) := by
  have htuple := follows_tupleText h hvs
  cases hvs with
  | nil => exact Follows.refl _
  | cons hv hvs =>
    cases hvs with
    | nil => exact follows_plain h hv
    | cons => exact htuple

/-- The same is told of files that are alike. -/
theorem follows_filesText {vs ws : List Value} (hvs : List.Forall₂ (Value.Alike R) vs ws) :
    Follows Eq (filesText f vs) (filesText g ws) := by
  cases hvs with
  | nil => exact Follows.refl _
  | cons hfile hvs =>
    simp only [filesText]
    rw [← hfile.isNone_eq]
    split
    · exact Follows.refl _
    · refine (follows_written h hfile).bind ?_
      rintro first _ rfl
      cases hvs with
      | nil => exact Follows.refl _
      | cons _ hvs =>
        cases hvs with
        | nil => exact Follows.refl _
        | cons hother hvs =>
          cases hvs with
          | nil =>
            dsimp only
            rw [← hother.isNone_eq]
            split
            · exact Follows.refl _
            · refine (follows_written h hother).bind ?_
              rintro second _ rfl
              exact Follows.refl _
          | cons => exact Follows.refl _

/-- Errors of the system have the same plain form if their arguments are alike. -/
theorem follows_systemText (kind : Class) {vs ws : List Value}
    (hvs : List.Forall₂ (Value.Alike R) vs ws) :
    Follows Eq (systemText f kind vs) (systemText g kind ws) := by
  have harguments := follows_argumentsText h hvs
  have htuple := follows_tupleText h hvs
  cases hvs with
  | nil => exact harguments
  | cons hnumber hvs =>
    cases hvs with
    | nil => exact harguments
    | cons hwording hrest =>
      simp only [systemText]
      rw [← hrest.length_eq]
      split
      · refine (follows_plain h hnumber).bind ?_
        rintro number _ rfl
        refine (follows_plain h hwording).bind ?_
        rintro wording _ rfl
        refine (follows_filesText h (filesOf_alike kind hrest)).bind ?_
        rintro files _ rfl
        exact Follows.refl _
      · exact htuple

/-- Errors of syntax have the same plain form if their arguments are alike. -/
theorem follows_syntaxText {vs ws : List Value} (hvs : List.Forall₂ (Value.Alike R) vs ws) :
    Follows Eq (syntaxText f vs) (syntaxText g ws) := by
  have hhead : (vs.head?.getD .none).Alike R (ws.head?.getD .none) := by
    cases hvs with
    | nil => exact .plain (by simp) (by simp)
    | cons hv => exact hv
  refine (follows_plain h hhead).bind ?_
  rintro wording _ rfl
  cases hvs with
  | nil => exact Follows.refl _
  | cons _ hvs =>
    cases hvs with
    | nil => exact Follows.refl _
    | cons hplace hvs =>
      cases hvs with
      | nil =>
        dsimp only
        rw [placeText_eq_of_alike hplace.items]
        exact Follows.refl _
      | cons => exact Follows.refl _

/-- Groups of errors have the same plain form if their arguments are alike. -/
theorem follows_groupText {vs ws : List Value} (hvs : List.Forall₂ (Value.Alike R) vs ws) :
    Follows Eq (groupText f vs) (groupText g ws) := by
  have harguments := follows_argumentsText h hvs
  cases hvs with
  | nil => exact harguments
  | cons hwording hvs =>
    cases hvs with
    | nil => exact harguments
    | cons herrors hvs =>
      cases hvs with
      | nil =>
        refine (follows_plain h hwording).bind ?_
        rintro wording _ rfl
        dsimp only
        rw [herrors.items.length_eq]
        exact Follows.refl _
      | cons => exact harguments

/-- Errors that are not generated have the same plain form if they were made with values that are
alike. -/
theorem follows_foreignPlain {vs ws : List Value} (kind : Class)
    (hvs : List.Forall₂ (Value.Alike R) vs ws) :
    Follows Eq (foreignPlain f kind vs) (foreignPlain g kind ws) := by
  have harguments := follows_argumentsText h hvs
  have htexts := map_eq_of_forall₂_alike Value.Alike.text?_eq hvs
  have hints := map_eq_of_forall₂_alike Value.Alike.int?_eq hvs
  unfold foreignPlain
  cases kind.manner with
  | arguments => exact harguments
  | key =>
    cases hvs with
    | nil => exact harguments
    | cons hv hvs =>
      cases hvs with
      | nil => exact follows_written h hv
      | cons => exact harguments
  | system => exact follows_systemText h kind hvs
  | syntaxError => exact follows_syntaxText h hvs
  | group => exact follows_groupText h hvs
  | encoding =>
    simp only [encodingText, htexts, hints]
    split
    · exact Follows.refl _
    · exact harguments
  | translation =>
    simp only [translationText, htexts, hints]
    split
    · exact Follows.refl _
    · exact harguments

/-- Errors that are not generated have the same written form if they were made with values that are
alike. -/
theorem follows_foreignWritten {vs ws : List Value} (kind : Class)
    (hvs : List.Forall₂ (Value.Alike R) vs ws) :
    Follows Eq (foreignWritten f kind vs) (foreignWritten g kind ws) := by
  have hkept : List.Forall₂ (Value.Alike R) (keptArguments kind vs) (keptArguments kind ws) := by
    unfold keptArguments
    split
    · exact systemArguments_alike kind hvs
    · exact hvs
  refine (follows_writtenAll h hkept).bind ?_
  rintro shown _ rfl
  exact Follows.refl _

/-- Selectors of one name have the same form if they hold values that are alike. -/
theorem follows_selectorText {x y : Selector} (hname : x.name = y.name)
    (hfields : List.Forall₂ (EntryAlike R) x.fields y.fields) :
    Follows Eq (selectorText f x) (selectorText g y) := by
  refine (Follows.mapM (Q := Eq) hfields ?_).bind ?_
  · rintro ⟨name, v⟩ ⟨_, w⟩ ⟨rfl, hv⟩
    refine (follows_written h hv).bind ?_
    rintro text _ rfl
    exact Follows.refl _
  · intro shown shown' hshown
    obtain rfl := List.forall₂_eq_eq_eq ▸ hshown
    rw [hname]
    exact Follows.refl _

/-! ### Messages -/

/-- Whether two scopes are alike. -/
structure Scope.Alike (R : Ref → Ref → Prop) (a b : Scope) : Prop where
  /-- They are those of related errors. -/
  self : R a.self b.self
  /-- They belong to one class. -/
  owner : a.owner = b.owner
  /-- The values of the fields are alike. -/
  fields : List.Forall₂ (EntryAlike R) a.fields b.fields

omit h in
/-- Expressions have values that are alike in scopes that are alike, if those have that the
interpreter evaluates. -/
theorem follows_value {a b : Scope} (hscope : a.Alike R b) {expression : String}
    (hvalue : Option.Rel (Value.Alike R) (Interpreter.evaluate s a expression).toOption
      (Interpreter.evaluate t b expression).toOption) :
    Follows (Value.Alike R) (a.value s expression) (b.value t expression) := by
  have hlookup := lookup_alike hscope.fields expression
  unfold Scope.value
  generalize a.fields.lookup expression = v at hlookup
  generalize b.fields.lookup expression = w at hlookup
  cases hlookup with
  | some hv => exact Follows.of_ok hv
  | none =>
    split
    · next heq => cases heq
    · exact Follows.of_ok (.object hscope.self)
    · exact Follows.of_ok (.plain (by simp) (by simp))
    · exact Follows.of_ok (.plain (by simp) (by simp))
    · exact Follows.of_ok (.plain (by simp) (by simp))
    · exact Follows.of_toOption hvalue

/-- Messages have the same text in scopes that are alike, if the interpreter evaluates what stands
in them to values that are alike. -/
theorem follows_messageText {a b : Scope} (hscope : a.Alike R b) (m : Descriptor.Message)
    (hvalues : ∀ argument ∈ m.arguments, Option.Rel (Value.Alike R)
      (Interpreter.evaluate s a argument.expression).toOption
      (Interpreter.evaluate t b argument.expression).toOption) :
    Follows Eq (messageText s f a m) (messageText t g b m) := by
  have hsame : List.Forall₂ (fun x y => x = y ∧ x ∈ m.arguments) m.arguments m.arguments :=
    List.forall₂_same.mpr fun argument hargument => ⟨rfl, hargument⟩
  refine (Follows.mapM (Q := Value.Alike R) hsame ?_).bind fun values values' hvalues => ?_
  · rintro argument _ ⟨rfl, hargument⟩
    exact follows_value hscope (hvalues argument hargument)
  · exact Template.follows_fill hvalues .template
      (fun v w hv c specification => follows_converted h hv c specification) m.template

end

/-! ### What messages can see -/

/-- Whether the interpreter tells no partners of two stores apart. What generated code does is
known, so that only two things are left to say. -/
structure Interpreter.Agrees (s t : Store) (R : Ref → Ref → Prop) : Prop where
  /-- What stands in a message comes to values that are alike for errors that are partners, or to
  none for either. -/
  evaluate : ∀ {a b : Ref} {error : ErrorObject} {e : Descriptor.Enumeration}
    {v : Descriptor.Variant} {x y : Scope}, R a b → s.get? a = some (.error error) →
      error.kind = .variant e v → scopeOf s a v = .ok x → scopeOf t b v = .ok y →
      ∀ message ∈ v.messages ++ v.helps, ∀ argument ∈ message.arguments,
        Option.Rel (Value.Alike R) (Interpreter.evaluate s x argument.expression).toOption
          (Interpreter.evaluate t y argument.expression).toOption
  /-- A class that is not generated gives partners the same form, if it gives them any. -/
  ownForm? : ∀ {a b : Ref} {error : ErrorObject}, R a b → s.get? a = some (.error error) →
    error.kind.isGenerated = false → ∀ form,
      Option.Rel (fun text text' => text.toOption = text'.toOption)
        (Interpreter.ownForm? s form a) (Interpreter.ownForm? t form b)

/-- The interpreter does not tell an object apart from itself. -/
theorem Interpreter.agrees_self (s : Store) : Interpreter.Agrees s s Eq where
  evaluate := by
    rintro a _ error e v x y rfl - - hx hy message - argument -
    cases hx.symm.trans hy
    cases (Interpreter.evaluate s x argument.expression).toOption with
    | none => exact .none
    | some value => exact .some (.of_refs fun _ _ => rfl)
  ownForm? := by
    rintro a _ error rfl - - form
    cases Interpreter.ownForm? s form a with
    | none => exact .none
    | some text => exact .some rfl

omit [Interpreter] in
/-- An interpreter that knows nothing tells nothing apart. -/
theorem Interpreter.agrees_bare {s t : Store} {R : Ref → Ref → Prop} :
    @Interpreter.Agrees Interpreter.bare s t R :=
  @Interpreter.Agrees.mk Interpreter.bare s t R (fun _ _ _ _ _ _ _ _ _ => .none)
    fun _ _ _ _ => .none

namespace Store.Mirrors

variable {s t : Store} {linked : Class → Prop} (m : s.Mirrors t R linked)

include m

/-- An interpreter that tells no partners apart does so the other way round. -/
theorem agrees_symm (hagrees : Interpreter.Agrees s t R) : Interpreter.Agrees t s (flip R) where
  evaluate := by
    intro b a error' e v x y hr ht hkind hx hy message hmessage argument hargument
    obtain ⟨error, hs, halike⟩ := m.symm.exists_error hr ht
    have hvalues := hagrees.evaluate hr hs (halike.kind.symm.trans hkind) hy hx message hmessage
      argument hargument
    generalize (Interpreter.evaluate s y argument.expression).toOption = value at hvalues ⊢
    generalize (Interpreter.evaluate t x argument.expression).toOption = value' at hvalues ⊢
    cases hvalues with
    | none => exact .none
    | some hvalue => exact .some hvalue.symm
  ownForm? := by
    intro b a error' hr ht hkind form
    obtain ⟨error, hs, halike⟩ := m.symm.exists_error hr ht
    have htexts := hagrees.ownForm? hr hs (halike.kind ▸ hkind) form
    generalize Interpreter.ownForm? s form a = text at htexts ⊢
    generalize Interpreter.ownForm? t form b = text' at htexts ⊢
    cases htexts with
    | none => exact .none
    | some htext => exact .some htext.symm

section

variable {a b : Ref} {error error' : ErrorObject} (hr : R a b)
  (hs : s.get? a = some (.error error)) (ht : t.get? b = some (.error error'))
  (halike : error.Alike R linked error')

include hr hs ht halike

omit [Interpreter] m hr in
/-- Errors that are alike have attributes that are alike. -/
theorem follows_attributeOf {name : String}
    (hname : name = Store.chainAttribute → linked error.kind) :
    Follows (Value.Alike R) (s.attributeOf (.object a) name) (t.attributeOf (.object b) name) := by
  have hlookup := lookup_alike halike.attributes name
  have hs' : s.error? (.object a) = some (a, error) := by simp [Store.error?, hs]
  have ht' : t.error? (.object b) = some (b, error') := by simp [Store.error?, ht]
  simp only [Store.attributeOf, Store.chainedTo, hs', ht']
  generalize error.attributes.lookup name = v at hlookup ⊢
  generalize error'.attributes.lookup name = w at hlookup ⊢
  cases hlookup with
  | some hv => exact Follows.of_ok hv
  | none =>
    dsimp only
    split
    · next hchain =>
      have hchained := halike.chained (hname hchain)
      generalize error.chained = c at hchained ⊢
      generalize error'.chained = d at hchained ⊢
      cases hchained with
      | some hcd => exact Follows.of_ok (.object hcd)
      | none => exact Follows.of_ok (.plain (by simp) (by simp))
    · exact Follows.of_error _ _

omit [Interpreter] in
/-- What messages of errors that are alike can see is alike. -/
theorem follows_scopeOf {e : Descriptor.Enumeration} {v : Descriptor.Variant}
    (hkind : error.kind = .variant e v) :
    Follows (Scope.Alike R) (scopeOf s a v) (scopeOf t b v) := by
  refine (Follows.mapM (P := fun name name' => name = name' ∧ name ∈ v.fieldNames)
    (Q := EntryAlike R) ?_ ?_).bind fun fields fields' hfields => ?_
  · exact List.forall₂_same.mpr fun name hname => ⟨rfl, hname⟩
  · rintro name _ ⟨rfl, hname⟩
    refine (follows_attributeOf hs ht halike fun hchain => ?_).bind fun value value' hvalue => ?_
    · exact (m.shown hr hs hkind).1 ⟨name, hname, hchain⟩
    · exact Follows.of_ok ⟨rfl, hvalue⟩
  · exact Follows.of_ok ⟨hr, rfl, hfields⟩

variable (hagrees : Interpreter.Agrees s t R) {f g : Forms} (h : f.Match R g)

include hagrees h

/-- Errors that are alike have the same messages. -/
theorem follows_messageTexts {e : Descriptor.Enumeration} {v : Descriptor.Variant}
    (hkind : error.kind = .variant e v) :
    Follows Eq (messageTexts s f a v) (messageTexts t g b v) := by
  refine (m.follows_scopeOf hr hs ht halike hkind).bind_of_eq fun scope scope' hx hy hscope => ?_
  refine (Follows.mapM (P := fun x y => x = y ∧ x ∈ v.messages) (Q := Eq)
    (List.forall₂_same.mpr fun message hmessage => ⟨rfl, hmessage⟩) ?_).bind ?_
  · rintro message _ ⟨rfl, hmessage⟩
    exact follows_messageText h hscope message
      (hagrees.evaluate hr hs hkind hx hy message (List.mem_append_left _ hmessage))
  · intro shown shown' hshown
    obtain rfl := List.forall₂_eq_eq_eq ▸ hshown
    have hlookup := lookup_alike hscope.fields locationField
    generalize scope.fields.lookup locationField = value at hlookup ⊢
    generalize scope'.fields.lookup locationField = value' at hlookup ⊢
    cases v.location? with
    | none => exact Follows.refl _
    | some field =>
      cases hlookup with
      | none => exact Follows.refl _
      | some hvalue =>
        refine (follows_formatted h hvalue []).bind ?_
        rintro place _ rfl
        exact Follows.refl _

/-- Errors that are alike have the same help text. -/
theorem follows_helpText {e : Descriptor.Enumeration} {v : Descriptor.Variant}
    (hkind : error.kind = .variant e v) : Follows Eq (helpText s f a v) (helpText t g b v) := by
  refine (m.follows_scopeOf hr hs ht halike hkind).bind_of_eq fun scope scope' hx hy hscope => ?_
  refine (Follows.mapM (P := fun x y => x = y ∧ x ∈ v.helps) (Q := Eq)
    (List.forall₂_same.mpr fun message hmessage => ⟨rfl, hmessage⟩) ?_).bind ?_
  · rintro message _ ⟨rfl, hmessage⟩
    refine (follows_messageText h hscope message
      (hagrees.evaluate hr hs hkind hx hy message (List.mem_append_right _ hmessage))).bind ?_
    rintro text _ rfl
    exact Follows.refl _
  · intro shown shown' hshown
    obtain rfl := List.forall₂_eq_eq_eq ▸ hshown
    exact Follows.refl _

omit [Interpreter] m h hr hagrees in
/-- Errors that are alike tell of causes that are alike. -/
theorem follows_causeOf : Follows (Value.Alike R) (s.causeOf a error) (t.causeOf b error') := by
  have hnone : (Value.none).Alike R .none := .plain (by simp) (by simp)
  unfold Store.causeOf
  rw [← halike.kind]
  split
  · split
    · exact follows_attributeOf hs ht halike fun hname => absurd hname (by decide)
    · exact Follows.of_ok hnone
  · exact Follows.of_ok hnone

end

/-- Values that are alike answer alike when asked for help. -/
theorem follows_answered (hagrees : Interpreter.Agrees s t R) {f g : Forms} (h : f.Match R g)
    {v w : Value} (hv : v.Alike R w) :
    Follows (Option.Rel (Value.Alike R)) (answered s f .help v) (answered t g .help w) := by
  have herror := m.error?_alike hv
  unfold answered provided
  generalize s.error? v = found at herror ⊢
  generalize ht : t.error? w = found' at herror ⊢
  cases herror with
  | none => exact Follows.of_ok .none
  | @some x y hxy =>
    obtain ⟨a, error⟩ := x
    obtain ⟨b, error'⟩ := y
    obtain ⟨rfl, rfl, hr, halike, hs⟩ := hxy
    obtain ⟨-, ht⟩ := Store.error?_object_eq_some_iff.mp ht
    have hkind := halike.kind
    obtain ⟨kind, arguments, attributes, chained⟩ := error
    obtain ⟨kind', arguments', attributes', chained'⟩ := error'
    obtain rfl : kind = kind' := hkind
    cases kind with
    | variant e v =>
      dsimp only
      split
      · exact Follows.of_ok .none
      · have hhelp := m.follows_helpText hr hs ht halike hagrees h rfl
        have hvalue := hhelp.map (Q := Value.Alike R) (f := Value.help) (g := Value.help) <| by
          rintro help _ rfl
          exact .plain (by simp) (by simp)
        have hrequest := hvalue.map
          (Q := fun a b : Request Aid Value => Option.Rel (Value.Alike R) a.answer b.answer)
          (f := fun help => { kind := .help, answer := some help })
          (g := fun help => { kind := .help, answer := some help }) fun _ _ hvw => .some hvw
        exact hrequest.bind fun _ _ hanswer => Follows.of_ok hanswer
    | _ => exact Follows.of_ok .none
/-! ### Chains -/

omit [Interpreter] in
/-- Values that are alike have causes that are alike, if it is kept what errors that are not
generated are chained to. -/
theorem follows_source (hlinked : ∀ c : Class, c.isGenerated = false → linked c) {v w : Value}
    (hv : v.Alike R w) : Follows (Value.Alike R) (s.source v) (t.source w) := by
  have herror := m.error?_alike hv
  unfold Store.source
  generalize hs : s.error? v = found at herror ⊢
  generalize ht : t.error? w = found' at herror ⊢
  cases herror with
  | none =>
    simp only [Store.chainedTo, hs]
    exact Follows.of_error _ _
  | @some x y hxy =>
    obtain ⟨a, error⟩ := x
    obtain ⟨b, error'⟩ := y
    obtain ⟨rfl, rfl, hr, halike, hs'⟩ := hxy
    obtain ⟨-, ht'⟩ := Store.error?_object_eq_some_iff.mp ht
    dsimp only
    rw [← halike.kind]
    split
    · exact follows_causeOf hs' ht' halike
    · next hforeign =>
      have hchained := halike.chained (hlinked _ (by simpa using hforeign))
      simp only [Store.chainedTo, hs, ht]
      generalize error.chained = c at hchained ⊢
      generalize error'.chained = d at hchained ⊢
      cases hchained with
      | some hcd => exact Follows.of_ok (.object hcd)
      | none => exact Follows.of_ok (.plain (by simp) (by simp))

omit [Interpreter] in
/-- **The rests of chains are alike** from values on that are alike, unless the first ends with a
failure. -/
theorem sourcesFrom_alike (hlinked : ∀ c : Class, c.isGenerated = false → linked c)
    {seen seen' : List Ref} (hseen : List.Forall₂ R seen seen') {v w : Value} (hv : v.Alike R w)
    (h : (s.sourcesFrom seen v).failure = none) :
    (t.sourcesFrom seen' w).failure = none ∧
      List.Forall₂ (Value.Alike R) (s.sourcesFrom seen v).members
        (t.sourcesFrom seen' w).members := by
  fun_induction s.sourcesFrom seen v generalizing seen' w with
  | case1 =>
    cases hv
    rw [Store.sourcesFrom]
    exact ⟨rfl, .nil⟩
  | case2 seen a hnew hless ih =>
    cases hv with
    | plain hobject => exact absurd rfl (hobject a)
    | @object _ b hr =>
      have hnew' : b < t.size ∧ b ∉ seen' :=
        ⟨(m.lt_size_iff hr).mp hnew.1, fun hmem => hnew.2 ((m.mem_iff hseen hr).mpr hmem)⟩
      have hsource := m.follows_source hlinked (.object hr)
      rw [Store.sourcesFrom, dif_pos hnew']
      cases hs : s.source (.object a) with
      | error failure =>
        rw [hs] at h
        cases h
      | ok next =>
        obtain ⟨next', ht, hnext⟩ := hsource next hs
        rw [hs] at h
        rw [ht]
        obtain ⟨hfailure, hmembers⟩ := ih next (.cons hr hseen) hnext h
        exact ⟨hfailure, .cons (.object hr) hmembers⟩
  | case3 seen a hold =>
    cases hv with
    | plain hobject => exact absurd rfl (hobject a)
    | @object _ b hr =>
      have hold' : ¬(b < t.size ∧ b ∉ seen') := by
        rwa [← m.lt_size_iff hr, ← m.mem_iff hseen hr]
      rw [Store.sourcesFrom, dif_neg hold']
      exact ⟨rfl, .nil⟩
  | case4 => cases h

/-- Chains that are alike come to the same help texts. -/
theorem follows_helpTexts (hlinked : ∀ c : Class, c.isGenerated = false → linked c)
    (hagrees : Interpreter.Agrees s t R) {f g : Forms} (h : f.Match R g) {v w : Value}
    (hv : v.Alike R w) :
    Follows Eq (helpTexts s f (s.sources v)) (helpTexts t g (t.sources w)) := by
  cases hfailure : (s.sources v).failure with
  | some failure =>
    intro texts htexts
    obtain ⟨helps, -, htexts⟩ := Outcome.bind_eq_ok_iff.mp htexts
    rw [hfailure] at htexts
    cases htexts
  | none =>
    obtain ⟨hfailure', hmembers⟩ := m.sourcesFrom_alike hlinked .nil hv hfailure
    unfold helpTexts
    refine Follows.bind (P := List.Forall₂ Eq) (Follows.mapM hmembers fun v w hvw => ?_)
      fun helps helps' hhelps => ?_
    · refine (m.follows_answered hagrees h hvw).bind fun answer answer' hanswer => ?_
      cases hanswer with
      | none => exact Follows.refl _
      | some hvalue => exact follows_plain h hvalue
    · obtain rfl := List.forall₂_eq_eq_eq ▸ hhelps
      rw [hfailure, Store.sources, hfailure']
      exact Follows.refl _

/-! ### Forms of objects -/

/-- Errors of variants that are alike have the same form. -/
theorem follows_variantText (hagrees : Interpreter.Agrees s t R) {f g : Forms} (h : f.Match R g)
    {a b : Ref} {error error' : ErrorObject} (hr : R a b) (hs : s.get? a = some (.error error))
    (ht : t.get? b = some (.error error'))
    (halike : error.Alike R linked error') {e : Descriptor.Enumeration} {v : Descriptor.Variant}
    (hkind : error.kind = .variant e v) :
    Follows Eq (variantText s f a error e v) (variantText t g b error' e v) := by
  have hhelp : ∀ told causedBy : Text, Follows Eq
      (do
        let help ←
          if e.isTopLevel then do
            let texts ← helpTexts s f (s.sources (.object a))
            pure (lineEnd ++ texts)
          else pure []
        return told ++ causedBy ++ help)
      (do
        let help ←
          if e.isTopLevel then do
            let texts ← helpTexts t g (t.sources (.object b))
            pure (lineEnd ++ texts)
          else pure []
        return told ++ causedBy ++ help) := by
    intro told causedBy
    split
    · next htop =>
      refine (m.follows_helpTexts ((m.shown hr hs hkind).2 htop) hagrees h (.object hr)).bind ?_
      rintro texts _ rfl
      exact Follows.refl _
    · exact Follows.refl _
  refine (m.follows_messageTexts hr hs ht halike hagrees h hkind).bind ?_
  rintro told _ rfl
  refine (follows_causeOf hs ht halike).bind fun cause cause' hcause => ?_
  dsimp only
  rw [← hcause.isNone_eq]
  split
  · exact hhelp told []
  · refine (follows_plain h hcause).bind ?_
    rintro text _ rfl
    exact hhelp told _

omit m in
/-- Errors that are alike and not generated have the same form. -/
theorem follows_foreignText (hagrees : Interpreter.Agrees s t R) {f g : Forms} (h : f.Match R g)
    {a b : Ref} {error error' : ErrorObject} (hr : R a b) (hs : s.get? a = some (.error error))
    (halike : error.Alike R linked error') (hkind : error.kind.isGenerated = false) (form : Form) :
    Follows Eq (foreignText s f form a error) (foreignText t g form b error') := by
  have htexts := hagrees.ownForm? hr hs hkind form
  unfold foreignText
  rw [← halike.kind]
  generalize Interpreter.ownForm? s form a = text at htexts ⊢
  generalize Interpreter.ownForm? t form b = text' at htexts ⊢
  cases htexts with
  | none =>
    cases form with
    | plain => exact follows_foreignPlain h _ halike.arguments
    | written => exact follows_foreignWritten h _ halike.arguments
  | @some text text' htext =>
    refine Follows.of_toOption ?_
    rw [htext]
    cases text'.toOption with
    | none => exact .none
    | some text => exact .some rfl

/-- **Partners have the same forms**, if the objects they contain do, and the interpreter tells none
of them apart. -/
theorem match_objectText (hagrees : Interpreter.Agrees s t R) {f g : Forms} (h : f.Match R g) :
    Forms.Match R (objectText s f) (objectText t g) := by
  intro form a b hr
  have hobjects := m.alike hr
  unfold objectText
  cases hs : s.get? a with
  | none =>
    rw [hs] at hobjects
    generalize t.get? b = object' at hobjects ⊢
    cases hobjects
    exact Follows.refl _
  | some object =>
    rw [hs] at hobjects
    generalize ht : t.get? b = found at hobjects ⊢
    cases hobjects with
    | some hobject =>
      cases hobject with
      | @error error error' halike =>
        dsimp only
        rw [← halike.kind]
        split
        · next hkind => exact m.follows_variantText hagrees h hr hs ht halike hkind
        · exact Follows.of_error _ _
        · next hvariant henumeration =>
          refine follows_foreignText hagrees h hr hs halike ?_ form
          cases hkind : error.kind with
          | enumeration e => exact absurd hkind (henumeration e)
          | variant e v => exact absurd hkind (hvariant e v)
          | _ => rfl
      | selector hsame hfields =>
        have hname := congrArg Selector.name hsame
        exact follows_selectorText h hname hfields

/-- Partners have the same forms down to any depth. -/
theorem match_formsUpTo (hagrees : Interpreter.Agrees s t R) (depth : Nat) :
    Forms.Match R (s.formsUpTo depth) (t.formsUpTo depth) := by
  induction depth with
  | zero => exact fun form a b hr => Follows.of_error _ _
  | succ depth ih => exact m.match_objectText hagrees ih

end Store.Mirrors

/-! ### Forms that are kept -/

/-- Whether objects keep the forms they have. -/
def Forms.Le (f g : Forms) : Prop :=
  ∀ form r, Outcome.Le (f form r) (g form r)

/-- **Objects keep their forms** if the objects they contain do. -/
theorem le_objectText {s : Store} {f g : Forms} (h : f.Le g) (form : Form) (r : Ref) :
    Le (objectText s f form r) (objectText s g form r) := by
  have hmatch : f.Match Eq g := by
    rintro form r _ rfl
    exact Outcome.follows_eq_iff.mpr (h form r)
  exact Outcome.follows_eq_iff.mp
    (s.mirrors_self.match_objectText (Interpreter.agrees_self s) hmatch form r r rfl)

/-! ### Enough depth -/

namespace Store

/-- With one more level, objects keep their forms. -/
theorem le_formsUpTo_succ (s : Store) (depth : Nat) :
    (s.formsUpTo depth).Le (s.formsUpTo (depth + 1)) := by
  induction depth with
  | zero => exact fun form r => Le.of_error _ _
  | succ depth ih => exact le_objectText ih

open Classical in
/-- The forms that there are of the objects of a store down to a depth. -/
noncomputable def shown (s : Store) (depth : Nat) : Finset (Form × Ref) :=
  ({.plain, .written} ×ˢ Finset.range s.size).filter fun x =>
    ∃ t, s.formsUpTo depth x.1 x.2 = .ok t

/-- A form that there is is that of an object of the store. -/
theorem mem_shown {s : Store} {depth : Nat} {form : Form} {r : Ref} :
    (form, r) ∈ s.shown depth ↔ r < s.size ∧ ∃ t, s.formsUpTo depth form r = .ok t := by
  have hform : form = .plain ∨ form = .written := by cases form <;> simp
  simp [shown, hform]

/-- There are two forms for each object at most. -/
theorem card_shown_le (s : Store) (depth : Nat) : (s.shown depth).card ≤ 2 * s.size := by
  classical
  refine (Finset.card_le_card (Finset.filter_subset _ _)).trans ?_
  rw [Finset.card_product, Finset.card_range, Finset.card_pair (by simp)]

/-- What has a form has it with one more level. -/
theorem shown_subset_succ (s : Store) (depth : Nat) : s.shown depth ⊆ s.shown (depth + 1) := by
  rintro ⟨form, r⟩ hr
  obtain ⟨hr, t, ht⟩ := mem_shown.mp hr
  exact mem_shown.mpr ⟨hr, t, s.le_formsUpTo_succ depth form r t ht⟩

/-- Objects that get no form from one more level have the forms they get from it. A reference to
nothing has its form from the first level on. -/
theorem le_of_shown_subset {s : Store} {depth : Nat}
    (h : s.shown (depth + 2) ⊆ s.shown (depth + 1)) :
    (s.formsUpTo (depth + 2)).Le (s.formsUpTo (depth + 1)) := by
  intro form r t ht
  by_cases hr : r < s.size
  · obtain ⟨-, t', ht'⟩ := mem_shown.mp (h (mem_shown.mpr ⟨hr, t, ht⟩))
    cases ht.symm.trans (s.le_formsUpTo_succ (depth + 1) form r t' ht')
    exact ht'
  · have hnothing : s.get? r = none := List.getElem?_eq_none (Nat.le_of_not_lt hr)
    simp only [formsUpTo, objectText, hnothing] at ht ⊢
    exact ht

/-- Beyond the number of forms, one more level adds nothing. -/
theorem le_formsUpTo (s : Store) :
    (s.formsUpTo (2 * s.size + 2)).Le (s.formsUpTo (2 * s.size + 1)) := by
  have hmono : Monotone fun depth => (s.shown (depth + 1)).card :=
    monotone_nat_of_le_succ fun depth => Finset.card_le_card (s.shown_subset_succ (depth + 1))
  have hsubset : ∀ depth, (s.shown (depth + 1)).card = (s.shown (depth + 2)).card →
      s.shown (depth + 2) ⊆ s.shown (depth + 1) := fun depth h =>
    (Finset.eq_of_subset_of_card_le (s.shown_subset_succ (depth + 1)) h.ge).ge
  have hstable : ∀ depth, (s.shown (depth + 1)).card = (s.shown (depth + 2)).card →
      (s.shown (depth + 2)).card = (s.shown (depth + 3)).card := by
    intro depth h
    have hkept := le_objectText (s := s) (le_of_shown_subset (hsubset depth h))
    refine Nat.le_antisymm (Finset.card_le_card (s.shown_subset_succ _)) (Finset.card_le_card ?_)
    rintro ⟨form, r⟩ hr
    obtain ⟨hr, t, ht⟩ := mem_shown.mp hr
    exact mem_shown.mpr ⟨hr, t, hkept form r t ht⟩
  refine le_of_shown_subset (hsubset (2 * s.size) ?_)
  exact (Nat.stabilises_of_monotone hmono (fun depth => s.card_shown_le (depth + 1)) hstable
    (Nat.le_succ (2 * s.size))).symm

/-- **The form of an object is what comes of the forms of all objects**, if it has one. -/
theorem forms_eq_ok_iff {s : Store} {form : Form} {r : Ref} {t : Text} :
    s.forms form r = .ok t ↔ objectText s s.forms form r = .ok t :=
  ⟨le_objectText (s.le_formsUpTo_succ (2 * s.size)) form r t, s.le_formsUpTo form r t⟩

/-- Down to no depth does an object have a form that is not its own. -/
theorem formsUpTo_le_forms (s : Store) (depth : Nat) : (s.formsUpTo depth).Le s.forms := by
  induction depth with
  | zero => exact fun form r => Outcome.Le.of_error _ _
  | succ depth ih =>
    intro form r text htext
    exact forms_eq_ok_iff.mpr (le_objectText ih form r text htext)

/-! ### Partners -/

namespace Mirrors

variable {s t : Store} {linked : Class → Prop}

/-- Partners have the same forms. -/
theorem match_forms (m : s.Mirrors t R linked) (hagrees : Interpreter.Agrees s t R) :
    s.forms.Match R t.forms := by
  intro form a b hr text htext
  obtain ⟨_, htext', rfl⟩ := m.match_formsUpTo hagrees (2 * s.size + 1) form a b hr text htext
  exact ⟨text, t.formsUpTo_le_forms _ form b text htext', rfl⟩

/-- **Values that are alike have the same plain form.** -/
theorem str_eq_ok_iff (m : s.Mirrors t R linked) (hagrees : Interpreter.Agrees s t R) {v w : Value}
    (hv : v.Alike R w) {text : Text} :
    s.str v = .ok text ↔ t.str w = .ok text := by
  constructor
  · intro h
    obtain ⟨_, htext, rfl⟩ := follows_plain (m.match_forms hagrees) hv text h
    exact htext
  · intro h
    obtain ⟨_, htext, rfl⟩ :=
      follows_plain (m.symm.match_forms (m.agrees_symm hagrees)) hv.symm text h
    exact htext

end Mirrors

end Store

end Errata.Error
