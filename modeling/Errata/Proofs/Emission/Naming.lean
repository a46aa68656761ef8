import Errata.Emission.Module
import Errata.Proofs.Emission.Module
import Errata.Proofs.Syntax.Spelling
import Mathlib.Data.List.SplitBy

/-!
# Names inside classes

What is written in the body of a generated class, part by part: wording that is always the same,
names that are declared or made of such names, and what the declarations give word by word.

* `identifiers`: the names in a text.
* `Part`, `Line`: parts of lines. The wording holds no name that would belong to a class alone.
* `Line.identifiers_eq`: **the names in a line** are those of its parts.
* `classBody`, `selectorBody`, `enumerationBody`: the bodies of the classes.
* `spells_variantClass`, `spells_selector`, `spells_enumerationClass`: **these are the bodies** that
  are emitted.
* `classBody_looksPrivate_iff`, `selectorBody_looksPrivate_iff`: **which bodies hold names** that
  would belong to the class alone.
-/

namespace Errata.Emission

open Descriptor (Enumeration Field Variant)
open Syntax (IsName isNameChar)

/-! ### Names in texts -/

/-- Whether a name would belong to a class alone inside it: it starts with two low lines and does
not end with two. -/
def looksPrivate (name : String) : Bool :=
  name.startsWith "__" && !name.endsWith "__"

/-- What a text ends with, character by character. -/
theorem endsWith_iff {text ending : String} :
    text.endsWith ending = true ↔ ending.toList <:+ text.toList := by
  rw [String.endsWith_eq_endsWith_toSlice, String.Slice.endsWith_string_iff]
  simp

/-- Whether a name goes on from one character to the next. -/
def goesOn (a b : Char) : Bool :=
  isNameChar a && isNameChar b

/-- The longest runs of characters of names in a text. -/
def nameRuns (chars : List Char) : List (List Char) :=
  (chars.splitBy goesOn).filter fun run => run.all isNameChar

/-- The names in a text: the longest runs of characters of names. -/
def identifiers (chars : List Char) : List String :=
  (nameRuns chars).map String.ofList

/-- Whether no name in a text would belong to a class alone. -/
def isHarmless (text : String) : Bool :=
  (identifiers text.toList).all fun n => !looksPrivate n

/-- Whether a text is harmless can be seen from its characters. -/
theorem isHarmless_ofList {chars : List Char}
    (h : ((nameRuns chars).all fun run =>
      ['_', '_'].isPrefixOf run → ['_', '_'].isSuffixOf run) = true) :
    isHarmless (String.ofList chars) = true := by
  simp only [List.all_eq_true, decide_eq_true_eq, List.isPrefixOf_iff_prefix,
    List.isSuffixOf_iff_suffix] at h
  rw [isHarmless, String.toList_ofList, identifiers, List.all_map, List.all_eq_true]
  intro run hrun
  have hends : looksPrivate (String.ofList run) = false := by
    rw [looksPrivate, Bool.and_eq_false_imp, String.startsWith_string_iff]
    intro hstart
    rw [Bool.not_eq_false', endsWith_iff]
    simpa using h run hrun (by simpa using hstart)
  simp [hends]

/-- The names in two texts, where no name goes on from one to the other. -/
theorem identifiers_append {front back : List Char}
    (h : ∀ a ∈ front.getLast?, ∀ b ∈ back.head?, goesOn a b = false) :
    identifiers (front ++ back) = identifiers front ++ identifiers back := by
  rw [identifiers, nameRuns, List.splitBy_append h, List.filter_append, List.map_append]
  rfl

/-- A name holds one name. -/
theorem identifiers_of_isName {name : String} (h : IsName name.toList) :
    identifiers name.toList = [name] := by
  have hchars := h.isNameChar
  have hne : name.toList ≠ [] := by
    obtain ⟨first, rest, hsplit, -⟩ := h
    simp [hsplit]
  have hwhole : name.toList.splitBy goesOn = [name.toList] := by
    refine List.splitBy_of_isChain hne (List.Pairwise.isChain ?_)
    refine List.pairwise_of_forall_mem_list fun a ha b hb => ?_
    rw [goesOn, hchars a ha, hchars b hb]
    rfl
  have hall : name.toList.all isNameChar = true := List.all_eq_true.mpr hchars
  simp [identifiers, nameRuns, hwhole, hall]

/-! ### Parts of lines -/

/-- A part of a line of generated code. -/
inductive Part where
  /-- Wording that is always the same. -/
  | fixed (text : String)
      (harmless : isHarmless text = true := by exact isHarmless_ofList (by decide))
  /-- A name that is declared, or made of names that are. -/
  | name (n : String)
  /-- What the declarations give word by word: types, expressions and descriptions. -/
  | given (text : String)

/-- A line of generated code. -/
abbrev Line := List Part

namespace Part

/-- The text of a part. -/
def text : Part → String
  | fixed text _ | given text => text
  | name n => n

/-- What the generator itself writes in a part. What is given by the declarations is left out. -/
def own : Part → List Char
  | fixed text _ => text.toList
  | name n => n.toList
  | given _ => [' ']

/-- The names in a part. -/
def identifiers : Part → List String
  | fixed text _ => Emission.identifiers text.toList
  | name n => [n]
  | given _ => []

/-- Whether a name might start before a part. -/
def isOpenBefore : Part → Bool
  | fixed text _ => text.toList.head?.all isNameChar
  | name _ => true
  | given _ => false

/-- Whether a name might go on behind a part. -/
def isOpenBehind : Part → Bool
  | fixed text _ => text.toList.getLast?.all isNameChar
  | name _ => true
  | given _ => false

/-- A name that would belong to a class alone is none of the wording. -/
theorem eq_name_of_looksPrivate {p : Part} {n : String} (hn : n ∈ p.identifiers)
    (h : looksPrivate n = true) : p = .name n := by
  cases p with
  | fixed text harmless =>
    have hpublic := List.all_eq_true.mp harmless n hn
    simp [h] at hpublic
  | name m => rw [List.mem_singleton.mp hn]
  | given text => cases hn

/-- What is left of a part that no name might go on behind ends with something else than a
character of names. -/
theorem goesOn_of_isOpenBehind {p : Part} (h : p.isOpenBehind = false) {a : Char}
    (ha : a ∈ p.own.getLast?) (b : Char) : goesOn a b = false := by
  have hlast : isNameChar a = false := by
    cases p with
    | fixed text _ =>
      rw [Option.mem_def] at ha
      rw [isOpenBehind, show text.toList.getLast? = some a from ha] at h
      exact h
    | name n => cases h
    | given text =>
      cases ha
      rfl
  rw [goesOn, hlast, Bool.false_and]

/-- A part that no name might start before starts with something else than a character of names. -/
theorem exists_own_of_isOpenBefore {p : Part} (h : p.isOpenBefore = false) :
    ∃ c rest, p.own = c :: rest ∧ isNameChar c = false := by
  cases p with
  | fixed text _ =>
    cases hchars : text.toList with
    | nil => simp [isOpenBefore, hchars] at h
    | cons c rest => exact ⟨c, rest, hchars, by simpa [isOpenBefore, hchars] using h⟩
  | name n => cases h
  | given text => exact ⟨' ', [], rfl, rfl⟩

/-- The names in what the generator writes in a part. -/
theorem identifiers_own {p : Part} (h : ∀ n, p = .name n → IsName n.toList) :
    Emission.identifiers p.own = p.identifiers := by
  cases p with
  | fixed text _ => rfl
  | name n => exact identifiers_of_isName (h n rfl)
  | given text =>
    show Emission.identifiers [' '] = []
    decide

end Part

namespace Line

/-- The characters of a line. -/
def chars (l : Line) : List Char :=
  l.flatMap fun p => p.text.toList

/-- What the generator itself writes in a line. -/
def own (l : Line) : List Char :=
  l.flatMap Part.own

/-- The names that the generator writes in a line. -/
def identifiers (l : Line) : List String :=
  Emission.identifiers l.own

/-- Whether names do not go on from one part of a line to the next. -/
def isApart : Line → Bool
  | p :: q :: rest => !(q.isOpenBefore && p.isOpenBehind) && isApart (q :: rest)
  | _ => true

/-- **The names in a line** are those of its parts, if names do not go on from one part to the next.
-/
theorem identifiers_eq {l : Line} (hapart : l.isApart = true)
    (hnames : ∀ n, .name n ∈ l → IsName n.toList) :
    l.identifiers = l.flatMap Part.identifiers := by
  induction l with
  | nil => rfl
  | cons p rest ih =>
    have hp : Emission.identifiers p.own = p.identifiers :=
      Part.identifiers_own fun n hn => hnames n (hn ▸ List.mem_cons_self)
    have hrest := fun happart => ih happart fun n hn => hnames n (List.mem_cons_of_mem p hn)
    cases rest with
    | nil => simpa [identifiers, own] using hp
    | cons q rest =>
      simp only [isApart, Bool.and_eq_true, Bool.not_eq_true', Bool.and_eq_false_iff] at hapart
      obtain ⟨hcut, hapart⟩ := hapart
      have hends : ∀ a ∈ p.own.getLast?, ∀ b ∈ (own (q :: rest)).head?, goesOn a b = false := by
        intro a ha b hb
        rcases hcut with hcut | hcut
        · obtain ⟨c, more, hown, hc⟩ := Part.exists_own_of_isOpenBefore hcut
          obtain rfl : c = b := by simpa [own, hown] using hb
          rw [goesOn, hc, Bool.and_false]
        · exact Part.goesOn_of_isOpenBehind hcut ha b
      have hsplit : own (p :: q :: rest) = p.own ++ own (q :: rest) := List.flatMap_cons
      rw [identifiers, hsplit, identifiers_append hends, hp, List.flatMap_cons]
      exact congrArg (p.identifiers ++ ·) (hrest hapart)

end Line

/-! ### Bodies of classes -/

/-- Parts with a comma between them. -/
def separated (ls : List Line) : Line :=
  [Part.fixed ", "].intercalate ls

/-- The parameter of a constructor for a field. -/
def parameterLine (f : Field) : Line :=
  [.name f.name, .fixed ": ", .given f.type] ++
    if f.role = .location then [.fixed " | None = None"] else []

/-- The statements that set a field. -/
def settingLines (f : Field) : List Line :=
  if f.role = .location then
    [[.fixed "self.", .name f.name, .fixed " = ", .name f.name, .fixed " if ", .name f.name,
      .fixed " is not None else _eg_rt.capture_location(1)"]]
  else if f.role = .source then
    [[.fixed "self.", .name f.name, .fixed " = ", .name f.name],
      [.fixed "self.__cause__ = ", .name f.name]]
  else [[.fixed "self.", .name f.name, .fixed " = ", .name f.name]]

/-- The constructor of the class of a variant with fields. -/
def initLines (fields : List Field) : List Line :=
  [[.fixed "def __init__(self, *, "] ++ separated (fields.map parameterLine) ++
      [.fixed ") -> None:"],
    [.fixed "_eg_rt.ErrorEnum.__init__(self)"]] ++ fields.flatMap settingLines

/-- The statements that give each field of a variant a local name. -/
def bindingLines (v : Variant) : List Line :=
  v.fieldNames.map fun n => [.name n, .fixed " = self.", .name n]

/-- The method that renders the messages of a variant. -/
def renderLines (v : Variant) : List Line :=
  [.fixed "def _eg_render(self, _eg_out: list[str]) -> None:"] ::
    (bindingLines v ++
    (v.messages.map fun m => [.fixed "_eg_out.append(", .given (message m), .fixed ")"]) ++
    (if v.location?.isSome then [[.fixed "_eg_out.append(\" (at \x7b\x7d)\".format(location))"]]
      else []) ++
    [[.fixed "_eg_out.append(\"\\n\")"]])

/-- The method that renders the help text of a variant. -/
def helpLines (v : Variant) : List Line :=
  [.fixed "def _eg_help(self) -> _eg_rt.Help:"] ::
    (bindingLines v ++
    [[.fixed "_eg_msg: list[str] = []"]] ++
    (v.helps.flatMap fun m =>
      [[.fixed "_eg_msg.append(\"Help: \")"],
        [.fixed "_eg_msg.append(", .given (message m), .fixed ")"],
        [.fixed "_eg_msg.append(\"\\n\")"]]) ++
    [[.fixed "return _eg_rt.Help(\"\".join(_eg_msg))"]])

/-- The methods that a variant has only if it wraps an error or helps. -/
def extraLines (v : Variant) : List (List Line) :=
  (if v.source?.isSome then
    [[[.fixed "def cause(self) -> BaseException | None:"], [.fixed "return self.source"]]]
    else []) ++
  if v.helps.isEmpty then [] else
    [helpLines v, [[.fixed "def provide(self, _eg_request: _eg_rt.Request) -> None:"],
      [.fixed "_eg_request.provide_value_with(_eg_rt.Help, self._eg_help)"]]]

/-- The body of the class of a variant. -/
def classBody (v : Variant) : List Line :=
  [[.given ((v.messages.head?.map fun m => m.literal.quoted).getD "")]] ++
    (if v.isUnit then [] else [] :: initLines v.fields) ++ [] :: renderLines v ++
    (extraLines v).flatMap fun lines => [] :: lines

/-- The call that makes an error of a variant. `valueOf` says where the value of a field comes from.
-/
def assemblyLine (v : Variant) (valueOf : Field → Line) : Line :=
  [.name v.className, .fixed "("] ++
    separated (v.fields.map fun f =>
      if f.role = .location then [.name f.name, .fixed "=_eg_rt.capture_location(1)"]
        else [.name f.name, .fixed "="] ++ valueOf f) ++ [.fixed ")"]

/-- A field of a selector. -/
def ownField (f : Field) : Line :=
  [.fixed "self.", .name f.name]

/-- The statements that make an error from a failure. -/
def bindLines (v : Variant) : List Line :=
  if v.source?.isSome then
    [[.fixed "source = _eg_rt.extract_cause(self, residual)"],
      [.fixed "return "] ++
        assemblyLine v fun f => if f.role = .source then [.fixed "source"] else ownField f]
  else
    [[.fixed "_eg_cause = _eg_rt.extract_cause(self, residual)"],
      [.fixed "_eg_error = "] ++ assemblyLine v ownField,
      [.fixed "_eg_error.__cause__ = _eg_cause"],
      [.fixed "return _eg_error"]]

/-- The body of the class of a selector. -/
def selectorBody (v : Variant) : List Line :=
  let declared : List Line := v.selectorFields.map fun f =>
    [.name f.name, .fixed ": ", .given f.type]
  [[.given ("\"\"\"Selector fields of " ++ v.enumeration ++ "." ++ v.name ++ ".\"\"\"")], []] ++
    declared ++ (if declared.isEmpty then [] else [[]]) ++
    [[.fixed "cause_type = ", .given ((v.source?.map causeType).getD "None")],
      [.fixed "shapes = ",
        if v.source?.isSome then .fixed "(_eg_rt.Shape.ERROR,)"
        else .fixed "(_eg_rt.Shape.ANY_ERROR, _eg_rt.Shape.EMPTY)"],
      [],
      [.fixed "def bind(self, residual: BaseException | None = None) ->", .fixed " ",
        .name v.enumeration, .fixed ":"]] ++
    bindLines v

/-- The method that renders an error of an enumeration. -/
def strLines (isTopLevel : Bool) : List Line :=
  [[.fixed "def __str__(self) -> str:"],
    [.fixed "_eg_out: list[str] = []"],
    [.fixed "self._eg_render(_eg_out)"],
    [.fixed "_eg_cause = self.cause()"],
    [.fixed "if _eg_cause is not None:"],
    [.fixed "_eg_out.append(\"Caused by: \")"],
    [.fixed "_eg_out.append(_eg_rt.render(_eg_cause))"]] ++
  (if isTopLevel then
    [[.fixed "_eg_out.append(\"\\n\")"],
      [.fixed "for _eg_error in _eg_rt.sources(self):"],
      [.fixed "_eg_help = _eg_rt.request_value(_eg_rt.Help, _eg_error)"],
      [.fixed "if _eg_help is not None:"],
      [.fixed "_eg_out.append(_eg_rt.render(_eg_help))"]]
  else []) ++
  [[.fixed "return \"\".join(_eg_out)"]]

/-- The body of the class of an enumeration. -/
def enumerationBody (e : Enumeration) : List Line :=
  [[.given ("\"\"\"Error enumeration " ++ e.name ++ ".\"\"\"")], []] ++
    (if e.isTopLevel then [[.fixed "top_level = True"], []] else []) ++ strLines e.isTopLevel

/-! ### What is emitted -/

/-- Whether lines are spelled out by parts, behind the blanks that indent them. -/
def Spells (body : List Line) (lines : Lines) : Prop :=
  List.Forall₂ (fun l line => ∃ n, line.toList = List.replicate n ' ' ++ l.chars) body lines

/-- No lines are spelled out by nothing. -/
theorem Spells.nil : Spells [] [] :=
  List.Forall₂.nil

/-- A line in front of others. -/
theorem Spells.cons {l : Line} {line : String} {body : List Line} {lines : Lines} (n : Nat)
    (hline : line.toList = List.replicate n ' ' ++ l.chars) (h : Spells body lines) :
    Spells (l :: body) (line :: lines) :=
  List.Forall₂.cons ⟨n, hline⟩ h

/-- A line that is wording. -/
theorem spells_fixed {chars chars' : List Char} {harmless} (n : Nat)
    (hchars : chars' = List.replicate n ' ' ++ chars) {body : List Line} {lines : Lines}
    (h : Spells body lines) :
    Spells ([.fixed (String.ofList chars) harmless] :: body) (String.ofList chars' :: lines) :=
  .cons n (by simp [hchars, Line.chars, Part.text]) h

/-- Lines behind others. -/
theorem Spells.append {body body' : List Line} {lines lines' : Lines} (h : Spells body lines)
    (h' : Spells body' lines') : Spells (body ++ body') (lines ++ lines') :=
  List.rel_append h h'

/-- Lines for the entries of a list. -/
theorem Spells.flatMap {α : Type} {as : List α} {body : α → List Line} {lines : α → Lines}
    (h : ∀ a ∈ as, Spells (body a) (lines a)) : Spells (as.flatMap body) (as.flatMap lines) := by
  induction as with
  | nil => exact .nil
  | cons a as ih =>
    obtain ⟨ha, has⟩ := List.forall_mem_cons.mp h
    exact ha.append (ih has)

/-- A line for each entry of a list. -/
theorem Spells.map {α : Type} {as : List α} {body : α → Line} {line : α → String} (n : Nat)
    (h : ∀ a ∈ as, (line a).toList = List.replicate n ' ' ++ (body a).chars) :
    Spells (as.map body) (as.map line) := by
  rw [Spells, List.forall₂_map_left_iff, List.forall₂_map_right_iff, List.forall₂_same]
  exact fun a ha => ⟨n, h a ha⟩

/-- Lines that are indented. -/
theorem Spells.indent {body : List Line} {lines : Lines} (h : Spells body lines) :
    Spells body (indent lines) := by
  induction h with
  | nil => exact .nil
  | @cons l line body lines hline _ ih =>
    obtain ⟨n, hline⟩ := hline
    rw [Emission.indent, List.map_cons]
    split
    · next hempty => exact .cons n (hempty ▸ hline) ih
    · refine .cons (4 + n) ?_ ih
      rw [String.toList_append, hline, ← List.append_assoc, List.replicate_add]
      rfl

/-- The characters of lines with commas between them. -/
theorem chars_separated (ls : List Line) :
    (separated ls).chars = ", ".toList.intercalate (ls.map Line.chars) := by
  induction ls with
  | nil => rfl
  | cons l ls ih =>
    cases ls with
    | nil => simp [separated, Line.chars]
    | cons l' ls =>
      rw [separated, List.intercalate_cons_cons, List.map_cons, List.map_cons,
        List.intercalate_cons_cons, ← List.map_cons, ← ih]
      simp [Line.chars, separated, Part.text]

/-- The parameter for a field, and the statements that set it. -/
theorem spells_parameter {f : Field} {p : String × Lines} (h : parameter f = .ok p) :
    p.1.toList = (parameterLine f).chars ∧ Spells (settingLines f) p.2 := by
  unfold parameter at h
  unfold parameterLine settingLines
  dsimp only at h
  split at h
  · next hrole =>
    cases h
    simp only [hrole, reduceCtorEq, ↓reduceIte]
    exact ⟨by simp [Line.chars, Part.text], .cons 4 (by simp [Line.chars, Part.text]) .nil⟩
  · next hrole =>
    cases h
    simp only [hrole, reduceCtorEq, ↓reduceIte]
    exact ⟨by simp [Line.chars, Part.text], .cons 4 (by simp [Line.chars, Part.text])
      (.cons 4 (by simp [Line.chars, Part.text]) .nil)⟩
  · next hrole =>
    cases h
    simp only [hrole, ↓reduceIte]
    exact ⟨by simp [Line.chars, Part.text], .cons 4 (by simp [Line.chars, Part.text]) .nil⟩
  · cases h

/-- The parameters for fields, and the statements that set them. -/
theorem spells_parameters {fields : List Field} {parameters : List (String × Lines)}
    (h : List.Forall₂ (fun f p => parameter f = .ok p) fields parameters) :
    (parameters.map Prod.fst).map String.toList = (fields.map parameterLine).map Line.chars ∧
      Spells (fields.flatMap settingLines) (parameters.flatMap Prod.snd) := by
  induction h with
  | nil => exact ⟨rfl, .nil⟩
  | cons hfirst _ ih =>
    obtain ⟨hparameter, hsets⟩ := spells_parameter hfirst
    simp only [List.map_cons, List.flatMap_cons]
    exact ⟨by rw [hparameter, ih.1], hsets.append ih.2⟩

/-- The constructor of the class of a variant. -/
theorem spells_initMethod {fields : List Field} {lines : Lines}
    (h : initMethod fields = .ok lines) : Spells (initLines fields) lines := by
  obtain ⟨parameters, hparameters, h⟩ := Outcome.bind_eq_ok_iff.mp h
  cases h
  obtain ⟨hnames, hsets⟩ := spells_parameters (Outcome.mapM_eq_ok_iff.mp hparameters)
  refine (Spells.cons 0 ?_ (spells_fixed 4 rfl .nil)).append hsets
  have hseparated := chars_separated (fields.map parameterLine)
  rw [← hnames, ← String.toList_intercalate] at hseparated
  rw [String.toList_append, String.toList_append, ← hseparated]
  simp [Line.chars, Part.text]

/-- The statements that give each field of a variant a local name. -/
theorem spells_fieldBindings (v : Variant) : Spells (bindingLines v) (fieldBindings v) :=
  .map 0 fun n _ => by simp [Line.chars, Part.text]

/-- The method that renders the messages of a variant. -/
theorem spells_renderMethod (v : Variant) : Spells (renderLines v) (renderMethod v) := by
  refine spells_fixed 0 rfl (Spells.indent ?_)
  refine (((spells_fieldBindings v).append ?_).append ?_).append (spells_fixed 0 rfl .nil)
  · exact .map 0 fun m _ => by simp [Line.chars, Part.text]
  · split
    · exact spells_fixed 0 rfl .nil
    · exact .nil

/-- The method that renders the help text of a variant. -/
theorem spells_helpMethod (v : Variant) : Spells (helpLines v) (helpMethod v) := by
  refine spells_fixed 0 rfl (Spells.indent ?_)
  refine (((spells_fieldBindings v).append (spells_fixed 0 rfl .nil)).append ?_).append
    (spells_fixed 0 rfl .nil)
  exact .flatMap fun m _ => spells_fixed 0 rfl
    (.cons 0 (by simp [Line.chars, Part.text]) (spells_fixed 0 rfl .nil))

/-- The methods that a variant has only if it wraps an error or helps. -/
theorem spells_extraMethods (v : Variant) :
    Spells ((extraLines v).flatMap fun lines => [] :: lines)
      ((extraMethods v).flatMap fun lines => "" :: lines) := by
  have hempty : "".toList = List.replicate 0 ' ' ++ Line.chars [] := rfl
  unfold extraLines extraMethods
  rw [List.flatMap_append, List.flatMap_append]
  refine Spells.append ?_ ?_
  · split
    · refine (Spells.cons 0 hempty ?_).append .nil
      exact spells_fixed 0 rfl (spells_fixed 4 rfl .nil)
    · exact .nil
  · split
    · exact .nil
    · refine (Spells.cons 0 hempty (spells_helpMethod v)).append ?_
      refine (Spells.cons 0 hempty ?_).append .nil
      exact spells_fixed 0 rfl (spells_fixed 4 rfl .nil)

/-- **The class of a variant** is a heading and the body. -/
theorem spells_variantClass {v : Variant} {lines : Lines} (h : variantClass v = .ok lines) :
    ∃ body, lines = ("class " ++ v.className ++ "(" ++ v.enumeration ++ "):") :: body ∧
      Spells (classBody v) body := by
  unfold variantClass at h
  cases hmessages : v.messages with
  | nil =>
    rw [hmessages] at h
    cases h
  | cons first rest =>
    have hempty : "".toList = List.replicate 0 ' ' ++ Line.chars [] := rfl
    have hbody : ∀ init, Spells (if v.isUnit then [] else [] :: initLines v.fields) init →
        Spells (classBody v) (("    " ++ first.literal.quoted) :: indent
          (init ++ "" :: renderMethod v ++ (extraMethods v).flatMap fun lines => "" :: lines)) := by
      intro init hinit
      have hmethods := (hinit.append (.cons 0 hempty (spells_renderMethod v))).append
        (spells_extraMethods v)
      exact .cons 4 (by simp [hmessages, Line.chars, Part.text]) hmethods.indent
    rw [hmessages] at h
    dsimp only at h
    split at h
    · next hunit =>
      cases h
      exact ⟨_, rfl, hbody [] (by simp [hunit, Spells.nil])⟩
    · next hunit =>
      obtain ⟨init, hinit, h⟩ := Outcome.bind_eq_ok_iff.mp h
      obtain ⟨made, hmade, rfl⟩ := Outcome.map_eq_ok_iff.mp hinit
      cases h
      exact ⟨_, rfl, hbody _ (by simpa [hunit] using .cons 0 hempty (spells_initMethod hmade))⟩

/-- The call that makes an error of a variant. -/
theorem chars_assemblyLine (v : Variant) {valueOf : Field → String} {lineOf : Field → Line}
    (h : ∀ f ∈ v.fields, (valueOf f).toList = (lineOf f).chars) :
    (assembly v valueOf).toList = (assemblyLine v lineOf).chars := by
  have harguments : ∀ hcaptured hgiven, (v.fields.map fun f =>
      if f.role = .location then f.name ++ "=_eg_rt.capture_location(1)"
      else f.name ++ "=" ++ valueOf f).map String.toList =
        (v.fields.map fun f =>
          if f.role = .location then [.name f.name, .fixed "=_eg_rt.capture_location(1)" hcaptured]
          else [.name f.name, .fixed "=" hgiven] ++ lineOf f).map Line.chars := by
    intro _ _
    rw [List.map_map, List.map_map]
    apply List.map_congr_left
    intro f hf
    by_cases hrole : f.role = .location
    · simp [hrole, Line.chars, Part.text]
    · simp [hrole, h f hf, Line.chars, Part.text]
  have hchars : ∀ hopen hclose, ∀ ls : List Line,
      Line.chars ([.name v.className, .fixed "(" hopen] ++ separated ls ++ [.fixed ")" hclose]) =
        v.className.toList ++ '(' :: ((separated ls).chars ++ [')']) := by
    intro _ _ ls
    simp [Line.chars, Part.text]
  rw [assembly, assemblyLine, hchars, chars_separated, ← harguments, ← String.toList_intercalate]
  simp

/-- The statements that make an error from a failure. -/
theorem spells_bindBody (v : Variant) : Spells (bindLines v) (bindBody v) := by
  unfold bindLines bindBody
  split
  · have hcall :
        (assembly v fun f => if f.role = .source then "source" else "self." ++ f.name).toList =
          (assemblyLine v fun f =>
            if f.role = .source then [.fixed "source"] else ownField f).chars := by
      refine chars_assemblyLine v fun f _ => ?_
      split <;> simp [ownField, Line.chars, Part.text]
    refine spells_fixed 0 rfl (.cons 0 ?_ .nil)
    rw [String.toList_append, hcall]
    simp [Line.chars, Part.text]
  · have hcall : (assembly v fun f => "self." ++ f.name).toList = (assemblyLine v ownField).chars :=
      chars_assemblyLine v fun f _ => by simp [ownField, Line.chars, Part.text]
    refine spells_fixed 0 rfl (.cons 0 ?_ (spells_fixed 0 rfl (spells_fixed 0 rfl .nil)))
    rw [String.toList_append, hcall]
    simp [Line.chars, Part.text]

/-- The shapes that errors of a variant can be made from, if all shapes have names. -/
theorem shapeTuple_eq (v : Variant) :
    shapeTuple [] v = .ok (if v.source?.isSome then "(_eg_rt.Shape.ERROR,)"
      else "(_eg_rt.Shape.ANY_ERROR, _eg_rt.Shape.EMPTY)") := by
  unfold shapeTuple acceptedShapes
  split <;> rfl

/-- **The selector of a variant** is a heading and the body. -/
theorem spells_selector (v : Variant) :
    ∃ body, selector [] v =
        .ok ("@_eg_dataclasses.dataclass(frozen=True)" :: ("class " ++ v.name ++ ":") :: body) ∧
      Spells (selectorBody v) body := by
  unfold selector
  rw [shapeTuple_eq]
  refine ⟨_, rfl, Spells.indent ?_⟩
  have hempty : "".toList = List.replicate 0 ' ' ++ Line.chars [] := rfl
  have hdeclared : ∀ hcolon,
      Spells (v.selectorFields.map fun f => [.name f.name, .fixed ": " hcolon, .given f.type])
        (v.selectorFields.map fun f => f.name ++ ": " ++ f.type) :=
    fun _ => .map 0 fun f _ => by simp [Line.chars, Part.text]
  have hgap : ∀ isEmpty : Bool,
      Spells (if isEmpty then [] else [[]]) (if isEmpty then [] else [""]) := by
    rintro ⟨⟩
    · exact .cons 0 hempty .nil
    · exact .nil
  refine ((((Spells.cons 0 ?_ (.cons 0 hempty .nil)).append (hdeclared _)).append ?_).append
    ?_).append (spells_bindBody v).indent
  · simp [Line.chars, Part.text]
  · simpa using hgap v.selectorFields.isEmpty
  · refine .cons 0 (by simp [Line.chars, Part.text]) (.cons 0 ?_ (.cons 0 hempty (.cons 0 ?_ .nil)))
    · split <;> simp [Line.chars, Part.text]
    · simp [Line.chars, Part.text]

/-- The method that renders an error of an enumeration. -/
theorem spells_strMethod (isTopLevel : Bool) :
    Spells (strLines isTopLevel) (strMethod isTopLevel) := by
  refine Spells.append (Spells.append ?_ ?_) (spells_fixed 4 rfl .nil)
  · exact spells_fixed 0 rfl (spells_fixed 4 rfl (spells_fixed 4 rfl
      (spells_fixed 4 rfl (spells_fixed 4 rfl (spells_fixed 8 rfl
        (spells_fixed 8 rfl .nil))))))
  · split
    · exact spells_fixed 4 rfl (spells_fixed 4 rfl (spells_fixed 8 rfl
        (spells_fixed 8 rfl (spells_fixed 12 rfl .nil))))
    · exact .nil

/-- **The class of an enumeration** is a heading and the body. -/
theorem spells_enumerationClass (e : Enumeration) :
    ∃ body, enumerationClass e = ("class " ++ e.name ++ "(_eg_rt.ErrorEnum):") :: body ∧
      Spells (enumerationBody e) body := by
  refine ⟨_, rfl, ?_⟩
  have hempty : "".toList = List.replicate 0 ' ' ++ Line.chars [] := rfl
  have hdescription : Spells
      [[.given ("\"\"\"Error enumeration " ++ e.name ++ ".\"\"\"")], []]
      ["    \"\"\"Error enumeration " ++ e.name ++ ".\"\"\"", ""] :=
    .cons 4 (by simp [Line.chars, Part.text]) (.cons 0 hempty .nil)
  refine (hdescription.append ?_).append (spells_strMethod e.isTopLevel).indent
  split
  · exact spells_fixed 4 rfl (.cons 0 hempty .nil)
  · exact .nil

/-! ### Names in bodies -/

/-- Whether names do not go on from one part of a line to the next, and all names in it are given
ones. -/
structure Line.IsOver (names : List String) (l : Line) : Prop where
  /-- Names do not go on. -/
  apart : l.isApart = true
  /-- The names are given ones. -/
  names : ∀ n, .name n ∈ l → n ∈ names

/-- Two lines make one if no name can go on from one to the other. -/
theorem Line.isApart_append {front back : Line} (hfront : front.isApart = true)
    (hback : back.isApart = true)
    (h : (∀ p ∈ front.getLast?, p.isOpenBehind = false) ∨
      ∀ q ∈ back.head?, q.isOpenBefore = false) :
    isApart (front ++ back) = true := by
  induction front with
  | nil => exact hback
  | cons p front ih =>
    cases front with
    | nil =>
      cases back with
      | nil => rfl
      | cons q back =>
        have hcut : (q.isOpenBefore && p.isOpenBehind) = false := by
          rcases h with h | h
          · rw [h p rfl, Bool.and_false]
          · rw [h q rfl, Bool.false_and]
        simp [isApart, hcut, hback]
    | cons p' front =>
      simp only [isApart, Bool.and_eq_true] at hfront
      have hrest := ih hfront.2 (by simpa using h)
      simp only [List.cons_append] at hrest ⊢
      simp [isApart, hfront.1, hrest]

/-- Lines with commas between them make one line. -/
theorem Line.isApart_separated {ls : List Line} (h : ∀ l ∈ ls, l.isApart = true) :
    (separated ls).isApart = true := by
  induction ls with
  | nil => rfl
  | cons l ls ih =>
    obtain ⟨hl, hls⟩ := List.forall_mem_cons.mp h
    cases ls with
    | nil => simpa [separated] using hl
    | cons l' ls =>
      rw [separated, List.intercalate_cons_cons]
      refine isApart_append (isApart_append hl rfl (.inr ?_)) (ih hls) (.inl ?_)
      · rintro q ⟨⟩
        rfl
      · simp only [List.getLast?_append, List.getLast?_singleton, Option.some_or]
        rintro p ⟨⟩
        rfl

/-- The names in lines with commas between them. -/
theorem mem_separated_iff {ls : List Line} {n : String} :
    .name n ∈ separated ls ↔ ∃ l ∈ ls, .name n ∈ l := by
  induction ls with
  | nil => simp [separated]
  | cons l ls ih =>
    cases ls with
    | nil => simp [separated]
    | cons l' ls =>
      rw [separated, List.intercalate_cons_cons, List.mem_append, List.mem_append,
        List.exists_mem_cons_iff]
      have hcomma : ∀ harmless, ¬.name n ∈ [Part.fixed ", " harmless] := by simp
      rw [or_iff_left (hcomma _)]
      exact or_congr_right ih

/-- Lines with commas between them, and closed wording in front and behind. -/
theorem Line.IsOver.separated {names : List String} {ls : List Line}
    (h : ∀ l ∈ ls, l.IsOver names) : (Emission.separated ls).IsOver names where
  apart := isApart_separated fun l hl => (h l hl).apart
  names n hn := by
    obtain ⟨l, hl, hn⟩ := mem_separated_iff.mp hn
    exact (h l hl).names n hn

/-- Two lines over some names make one if no name can go on from one to the other. -/
theorem Line.IsOver.append {names : List String} {front back : Line} (hfront : front.IsOver names)
    (hback : back.IsOver names)
    (h : (∀ p ∈ front.getLast?, p.isOpenBehind = false) ∨
      ∀ q ∈ back.head?, q.isOpenBefore = false) : Line.IsOver names (front ++ back) where
  apart := isApart_append hfront.apart hback.apart h
  names n hn := (List.mem_append.mp hn).elim (hfront.names n) (hback.names n)

/-- A line of wording holds no names. -/
theorem Line.isOver_of_fixed (names : List String) (text : String) {harmless} :
    Line.IsOver names [.fixed text harmless] :=
  ⟨rfl, by simp⟩

/-- The lines of a constructor are over the names of its fields. -/
theorem isOver_initLines (fields : List Field) :
    ∀ l ∈ initLines fields, l.IsOver (fields.map Field.name) := by
  have hparameter : ∀ f ∈ fields, (parameterLine f).IsOver (fields.map Field.name) := by
    intro f hf
    have hname : f.name ∈ fields.map Field.name := List.mem_map_of_mem hf
    unfold parameterLine
    split <;> exact ⟨rfl, by simpa using hname⟩
  have hset : ∀ f ∈ fields, ∀ l ∈ settingLines f, l.IsOver (fields.map Field.name) := by
    intro f hf l hl
    have hname : f.name ∈ fields.map Field.name := List.mem_map_of_mem hf
    unfold settingLines at hl
    split at hl
    · obtain rfl := List.mem_singleton.mp hl
      exact ⟨rfl, by simpa using hname⟩
    · split at hl
      · rcases List.mem_pair.mp hl with rfl | rfl <;> exact ⟨rfl, by simpa using hname⟩
      · obtain rfl := List.mem_singleton.mp hl
        exact ⟨rfl, by simpa using hname⟩
  have hparameters : (separated (fields.map parameterLine)).IsOver (fields.map Field.name) :=
    Line.IsOver.separated (List.forall_mem_map.mpr hparameter)
  simp only [initLines, List.forall_mem_append, List.forall_mem_cons, List.forall_mem_flatMap]
  refine ⟨⟨?_, Line.isOver_of_fixed _ _, nofun⟩, hset⟩
  refine ((Line.isOver_of_fixed _ _).append hparameters (.inl ?_)).append
    (Line.isOver_of_fixed _ _) (.inr ?_)
  · rintro p ⟨⟩
    rfl
  · rintro q ⟨⟩
    rfl

/-- The lines that give the fields local names are over the names of the fields. -/
theorem isOver_bindingLines (v : Variant) : ∀ l ∈ bindingLines v, l.IsOver v.fieldNames := by
  rw [bindingLines, List.forall_mem_map]
  exact fun n hn => ⟨rfl, by simpa using hn⟩

/-- **The body of the class of a variant** is over the names of its fields. -/
theorem isOver_classBody (v : Variant) : ∀ l ∈ classBody v, l.IsOver v.fieldNames := by
  have hempty : Line.IsOver v.fieldNames [] := ⟨rfl, by simp⟩
  have hgiven : ∀ text, Line.IsOver v.fieldNames [.given text] := fun text => ⟨rfl, by simp⟩
  have hbetween : ∀ front back text {hfront hback},
      Line.IsOver v.fieldNames [.fixed front hfront, .given text, .fixed back hback] :=
    fun _ _ _ => ⟨by simp [Line.isApart, Part.isOpenBefore, Part.isOpenBehind], by simp⟩
  have hinit : ∀ l ∈ if v.isUnit then [] else [] :: initLines v.fields,
      Line.IsOver v.fieldNames l := by
    split
    · exact nofun
    · exact List.forall_mem_cons.mpr ⟨hempty, isOver_initLines v.fields⟩
  have hrender : ∀ l ∈ renderLines v, l.IsOver v.fieldNames := by
    simp only [renderLines, List.forall_mem_append, List.forall_mem_cons, List.forall_mem_map]
    refine ⟨Line.isOver_of_fixed _ _, ⟨⟨isOver_bindingLines v, fun m _ => hbetween _ _ _⟩, ?_⟩,
      Line.isOver_of_fixed _ _, nofun⟩
    split
    · exact List.forall_mem_singleton.mpr (Line.isOver_of_fixed _ _)
    · exact nofun
  have hhelp : ∀ l ∈ helpLines v, l.IsOver v.fieldNames := by
    simp only [helpLines, List.forall_mem_append, List.forall_mem_cons, List.forall_mem_flatMap]
    exact ⟨Line.isOver_of_fixed _ _, ⟨⟨isOver_bindingLines v, Line.isOver_of_fixed _ _, nofun⟩,
      fun m _ => ⟨Line.isOver_of_fixed _ _, hbetween _ _ _, Line.isOver_of_fixed _ _, nofun⟩⟩,
      Line.isOver_of_fixed _ _, nofun⟩
  have hextra : ∀ lines ∈ extraLines v, ∀ l ∈ lines, l.IsOver v.fieldNames := by
    rw [extraLines, List.forall_mem_append]
    constructor
    · split
      · simp only [List.forall_mem_cons]
        exact ⟨⟨Line.isOver_of_fixed _ _, Line.isOver_of_fixed _ _, nofun⟩, nofun⟩
      · exact nofun
    · split
      · exact nofun
      · simp only [List.forall_mem_cons]
        exact ⟨hhelp, ⟨Line.isOver_of_fixed _ _, Line.isOver_of_fixed _ _, nofun⟩, nofun⟩
  simp only [classBody, List.forall_mem_append, List.forall_mem_cons, List.forall_mem_flatMap]
  exact ⟨⟨⟨⟨hgiven _, nofun⟩, hinit⟩, hempty, hrender⟩,
    fun lines hlines => ⟨hempty, hextra lines hlines⟩⟩

/-- The call of the class of a variant is over the names of its fields and that of the class. -/
theorem isOver_assemblyLine {v : Variant} {names : List String} (hfields : v.fieldNames ⊆ names)
    (hclass : v.className ∈ names) {lineOf : Field → Line}
    (h : ∀ f ∈ v.fields, (lineOf f).IsOver names) : (assemblyLine v lineOf).IsOver names := by
  have harguments : ∀ hcaptured hgiven, ∀ f ∈ v.fields, Line.IsOver names
      (if f.role = .location then [.name f.name, .fixed "=_eg_rt.capture_location(1)" hcaptured]
        else [.name f.name, .fixed "=" hgiven] ++ lineOf f) := by
    intro _ _ f hf
    have hname : f.name ∈ names := hfields (List.mem_map_of_mem hf)
    split
    · exact ⟨rfl, by simpa using hname⟩
    · refine Line.IsOver.append ⟨rfl, by simpa using hname⟩ (h f hf) (.inl ?_)
      rintro p ⟨⟩
      rfl
  refine (Line.IsOver.append ⟨rfl, by simpa using hclass⟩
    (Line.IsOver.separated (List.forall_mem_map.mpr (harguments _ _))) (.inl ?_)).append
    (Line.isOver_of_fixed _ _) (.inr ?_)
  · rintro p ⟨⟩
    rfl
  · rintro q ⟨⟩
    rfl

/-- **The body of the class of a selector** is over the names of the fields, of the class of the
variant and of the enumeration. -/
theorem isOver_selectorBody (v : Variant) :
    ∀ l ∈ selectorBody v, l.IsOver (v.enumeration :: v.className :: v.fieldNames) := by
  have hempty : ∀ names, Line.IsOver names [] := fun names => ⟨rfl, by simp⟩
  have hfields : v.fieldNames ⊆ v.enumeration :: v.className :: v.fieldNames := by
    intro n hn
    simp [hn]
  have hname : ∀ f ∈ v.fields, f.name ∈ v.enumeration :: v.className :: v.fieldNames :=
    fun f hf => hfields (List.mem_map_of_mem hf)
  have hown : ∀ f ∈ v.fields,
      (ownField f).IsOver (v.enumeration :: v.className :: v.fieldNames) := fun f hf =>
    ⟨rfl, by simpa [ownField] using hname f hf⟩
  have hclass : v.className ∈ v.enumeration :: v.className :: v.fieldNames := by simp
  have hcall : ∀ (text : String) (h) (lineOf : Field → Line),
      (∀ p ∈ [Part.fixed text h].getLast?, p.isOpenBehind = false) →
      (∀ f ∈ v.fields, (lineOf f).IsOver (v.enumeration :: v.className :: v.fieldNames)) →
        Line.IsOver (v.enumeration :: v.className :: v.fieldNames)
          ([.fixed text h] ++ assemblyLine v lineOf) := fun text h lineOf hclosed hlines =>
    (Line.isOver_of_fixed _ _).append (isOver_assemblyLine hfields hclass hlines) (.inl hclosed)
  have hbind : ∀ l ∈ bindLines v,
      Line.IsOver (v.enumeration :: v.className :: v.fieldNames) l := by
    unfold bindLines
    split
    · refine List.forall_mem_cons.mpr ⟨Line.isOver_of_fixed _ _, List.forall_mem_singleton.mpr ?_⟩
      refine hcall _ _ _ (by rintro p ⟨⟩; rfl) fun f hf => ?_
      split
      · exact Line.isOver_of_fixed _ _
      · exact hown f hf
    · simp only [List.forall_mem_cons]
      exact ⟨Line.isOver_of_fixed _ _, hcall _ _ _ (by rintro p ⟨⟩; rfl) hown,
        Line.isOver_of_fixed _ _, Line.isOver_of_fixed _ _, nofun⟩
  have hdeclared : ∀ hcolon, ∀ f ∈ v.selectorFields,
      Line.IsOver (v.enumeration :: v.className :: v.fieldNames)
        [.name f.name, .fixed ": " hcolon, .given f.type] := fun _ f hf =>
    ⟨rfl, by simpa using hname f (List.mem_of_mem_filter hf)⟩
  simp only [selectorBody, List.forall_mem_append, List.forall_mem_cons, List.forall_mem_map]
  refine ⟨⟨⟨⟨⟨⟨rfl, by simp⟩, hempty _, nofun⟩, hdeclared _⟩, ?_⟩, ⟨rfl, by simp⟩, ?_, hempty _,
    ⟨rfl, by simp⟩, nofun⟩, hbind⟩
  · split
    · exact nofun
    · exact List.forall_mem_singleton.mpr (hempty _)
  · split <;> exact ⟨rfl, by simp⟩

/-- The body of the class of an enumeration holds no names but wording. -/
theorem isOver_enumerationBody (e : Enumeration) : ∀ l ∈ enumerationBody e, l.IsOver [] := by
  have hempty : Line.IsOver [] [] := ⟨rfl, by simp⟩
  have hstr : ∀ l ∈ strLines e.isTopLevel, l.IsOver [] := by
    unfold strLines
    cases e.isTopLevel <;> simp [Line.isOver_of_fixed]
  simp only [enumerationBody, List.forall_mem_append, List.forall_mem_cons]
  refine ⟨⟨⟨⟨rfl, by simp⟩, hempty, nofun⟩, ?_⟩, hstr⟩
  split
  · exact List.forall_mem_cons.mpr ⟨Line.isOver_of_fixed _ _, List.forall_mem_singleton.mpr hempty⟩
  · exact nofun

/-- Which bodies hold names that would belong to a class alone: those over such names. -/
theorem exists_looksPrivate_iff {body : List Line} {names : List String}
    (hbody : ∀ l ∈ body, l.IsOver names) (hwritten : ∀ n ∈ names, ∃ l ∈ body, .name n ∈ l)
    (hnames : ∀ n ∈ names, IsName n.toList) :
    (∃ l ∈ body, ∃ n ∈ l.identifiers, looksPrivate n = true) ↔
      ∃ n ∈ names, looksPrivate n = true := by
  have hparts : ∀ l ∈ body, l.identifiers = l.flatMap Part.identifiers := fun l hl =>
    Line.identifiers_eq (hbody l hl).apart fun n hn => hnames n ((hbody l hl).names n hn)
  constructor
  · rintro ⟨l, hl, n, hn, hprivate⟩
    rw [hparts l hl] at hn
    obtain ⟨p, hp, hn⟩ := List.mem_flatMap.mp hn
    obtain rfl := p.eq_name_of_looksPrivate hn hprivate
    exact ⟨n, (hbody l hl).names n hp, hprivate⟩
  · rintro ⟨n, hn, hprivate⟩
    obtain ⟨l, hl, hwritten⟩ := hwritten n hn
    refine ⟨l, hl, n, ?_, hprivate⟩
    rw [hparts l hl]
    exact List.mem_flatMap.mpr ⟨.name n, hwritten, List.mem_singleton_self n⟩

/-- **The body of the class of a variant** holds a name that would belong to the class alone iff
the name of a field is such a name. -/
theorem classBody_looksPrivate_iff {v : Variant} (hnames : ∀ n ∈ v.fieldNames, IsName n.toList) :
    (∃ l ∈ classBody v, ∃ n ∈ l.identifiers, looksPrivate n = true) ↔
      ∃ n ∈ v.fieldNames, looksPrivate n = true := by
  refine exists_looksPrivate_iff (isOver_classBody v) (fun n hn => ?_) hnames
  obtain ⟨l, hrender, hwritten⟩ : ∃ l ∈ renderLines v, .name n ∈ l :=
    ⟨_, List.mem_cons_of_mem _ (List.mem_append_left _ (List.mem_append_left _
      (List.mem_append_left _ (List.mem_map_of_mem hn)))), List.mem_cons_self⟩
  exact ⟨l, List.mem_append_left _ (List.mem_append_right _ (List.mem_cons_of_mem _ hrender)),
    hwritten⟩

/-- The names in the call of the class of a variant: that of the class, and those of the fields. -/
theorem name_mem_assemblyLine {v : Variant} {n : String} (hn : n ∈ v.className :: v.fieldNames)
    (lineOf : Field → Line) : .name n ∈ assemblyLine v lineOf := by
  rcases List.mem_cons.mp hn with rfl | hn
  · exact List.mem_cons_self
  · obtain ⟨f, hf, rfl⟩ := List.mem_map.mp hn
    refine List.mem_append_left _ (List.mem_append_right _ (mem_separated_iff.mpr ?_))
    refine ⟨_, List.mem_map_of_mem hf, ?_⟩
    split <;> exact List.mem_cons_self

/-- The statements that make an error from a failure hold the names of the class and of the
fields. -/
theorem exists_mem_bindLines {v : Variant} {n : String} (hn : n ∈ v.className :: v.fieldNames) :
    ∃ l ∈ bindLines v, .name n ∈ l := by
  have hcall := name_mem_assemblyLine hn
  unfold bindLines
  split
  · exact ⟨_, List.mem_cons_of_mem _ List.mem_cons_self, List.mem_cons_of_mem _ (hcall _)⟩
  · exact ⟨_, List.mem_cons_of_mem _ List.mem_cons_self, List.mem_cons_of_mem _ (hcall _)⟩

/-- **The body of the class of a selector** holds a name that would belong to the class alone iff
the name of the enumeration, of the class of the variant or of a field is such a name. -/
theorem selectorBody_looksPrivate_iff {v : Variant}
    (hnames : ∀ n ∈ v.enumeration :: v.className :: v.fieldNames, IsName n.toList) :
    (∃ l ∈ selectorBody v, ∃ n ∈ l.identifiers, looksPrivate n = true) ↔
      ∃ n ∈ v.enumeration :: v.className :: v.fieldNames, looksPrivate n = true := by
  refine exists_looksPrivate_iff (isOver_selectorBody v) (fun n hn => ?_) hnames
  rcases List.mem_cons.mp hn with rfl | hn
  · exact ⟨_, List.mem_append_left _ (List.mem_append_right _
      (.tail _ (.tail _ (.tail _ (.head _))))), .tail _ (.tail _ (.head _))⟩
  · obtain ⟨l, hl, hn⟩ := exists_mem_bindLines hn
    exact ⟨l, List.mem_append_right _ hl, hn⟩

/-- The body of the class of an enumeration holds no name that would belong to the class alone. -/
theorem not_looksPrivate_of_mem_enumerationBody {e : Enumeration} {l : Line}
    (hl : l ∈ enumerationBody e) {n : String} (hn : n ∈ l.identifiers) :
    looksPrivate n = false := by
  have hiff := exists_looksPrivate_iff (isOver_enumerationBody e) nofun nofun
  rw [← Bool.not_eq_true]
  intro hprivate
  obtain ⟨m, hm, -⟩ := hiff.mp ⟨l, hl, n, hn, hprivate⟩
  exact List.not_mem_nil hm

end Errata.Emission
