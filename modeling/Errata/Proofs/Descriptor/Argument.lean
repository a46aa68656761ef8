import Errata.Proofs.Descriptor.Literal
import Errata.Proofs.Expression.Newline
import Errata.Proofs.Expression.Recogniser
import Errata.Proofs.Text.Blank

/-!
# Arguments that are admitted

An argument of a message is a name, or an expression that is well formed on its own. Either way it
is not empty, no white space stands around it, and reading its characters one by one ends between
tokens with no bracket open.

* `IsWhole`: texts with these properties.
* `exists_run_of_check`: what the checker admits ends between tokens.
* `isWhole_of_isName`, `isWhole_of_expression`: names and admitted expressions are whole.
* **`isWhole_of_compileLiteral`**: the arguments of a compiled literal are whole.
-/

namespace Errata.Descriptor

open Expression (Region Place IsPlain isPlain_of)

/-- Whether a text has no string and no bracket that is left open, no white space around it, and
something in it. -/
structure IsWhole (e : List Char) : Prop where
  /-- There is something in it. -/
  ne_nil : e ≠ []
  /-- No white space stands around it. -/
  isStripped : IsStripped Unicode.isBlank e
  /-- It ends between tokens, and no bracket is open. -/
  ends : ∃ last : Region, Place.start.run e = some ⟨last, []⟩ ∧ last.Settles [] ∧ last.IsOrdinary

/-! ### Expressions -/

/-- The checker does not admit nothing. -/
theorem check_nil [Expression.Capacity] : Expression.check [] ≠ .ok () := by
  have hreject : (Expression.recognise (Expression.tokens []).toArray).toOption = none := by
    decide +kernel
  intro h
  unfold Expression.check at h
  simp only [Text.firstSurrogates?, Text.surrogatesFrom, List.filterMap_nil, List.not_mem_nil,
    if_false] at h
  split at h
  · cases h
  · split at h
    · cases h
    · next hnodes =>
      rw [hnodes] at hreject
      cases hreject

/-- What the checker admits ends between tokens. -/
theorem exists_run_of_check [Expression.Capacity]
    {text : Text} (h : Expression.check text = .ok ()) :
    ∃ last : Region, Place.start.run (text.filterMap CodePoint.char?) = some ⟨last, []⟩ ∧
      last.Settles [] ∧ last.IsOrdinary := by
  unfold Expression.check at h
  split at h
  · cases h
  · dsimp only at h
    split at h
    · cases h
    · split at h
      · cases h
      · split at h
        · cases h
        · next nodes hnodes =>
          exact Expression.exists_run_of_tokens (Expression.isComplete_of_recognise hnodes)

/-- A readable text is made of its characters. -/
theorem map_char_of_isPlain {text : Text} (h : text.IsPlain) :
    (text.filterMap CodePoint.char?).map .char = text := by
  induction text with
  | nil => rfl
  | cons p text ih =>
    obtain ⟨hp, htext⟩ := List.forall_mem_cons.mp h
    obtain ⟨c, rfl, -⟩ := hp
    exact congrArg (.char c :: ·) (ih htext)

/-- An expression that is admitted is whole. -/
theorem isWhole_of_expression [Expression.Capacity] {text : Text} {span : Span} {e : String}
    (h : expression text span = .ok e) : IsWhole e.toList := by
  unfold expression at h
  dsimp only at h
  cases hcheck : Expression.check text.strip with
  | error fault => cases fault <;> simp [hcheck, violation] at h
  | ok _ =>
    rw [hcheck] at h
    obtain rfl : String.ofList (text.strip.filterMap CodePoint.char?) = e := Except.ok.inj h
    have hchars := map_char_of_isPlain (isReadable_of_check hcheck).isPlain
    rw [String.toList_ofList]
    refine ⟨fun hnil => ?_, ?_, exists_run_of_check hcheck⟩
    · rw [hnil] at hchars
      rw [← hchars] at hcheck
      exact check_nil hcheck
    · have hstrip : IsStripped CodePoint.isBlank text.strip := isStripped_stripBy _ _
      rw [IsStripped, ← hchars, stripBy_map] at hstrip
      exact List.map_injective_iff.mpr (fun _ _ => CodePoint.char.inj) hstrip

/-! ### Names -/

/-- White space stands in no identifier. -/
theorem isBlank_eq_false_of_identifier {c : Char}
    (h : Unicode.isIdentifierStart c = true ∨ Unicode.isIdentifierContinue c = true) :
    Unicode.isBlank c = false := by
  have hblanks : Unicode.blankRanges.numbers.all (fun n =>
      n ≠ '_'.toNat ∧ Unicode.identifierStartRanges.contains n = false ∧
        Unicode.identifierContinueRanges.contains n = false) = true := by decide +kernel
  by_contra hblank
  obtain ⟨hunderscore, hstart, hcontinue⟩ :=
    of_decide_eq_true (of_isBlank hblanks (eq_true_of_ne_false hblank))
  rcases h with h | h
  · rw [Unicode.isIdentifierStart, hstart, Bool.or_false, beq_iff_eq] at h
    exact hunderscore (congrArg Char.toNat h)
  · rw [Unicode.isIdentifierContinue, hcontinue] at h
    cases h

/-- The characters of identifiers are plain. -/
theorem isPlain_of_identifier {c : Char}
    (h : Unicode.isIdentifierStart c = true ∨ Unicode.isIdentifierContinue c = true) :
    IsPlain c := by
  rcases h with h | h
  · exact isPlain_of (p := Unicode.isIdentifierStart) (by decide) h
  · exact isPlain_of (p := Unicode.isIdentifierContinue) (by decide) h

/-- The characters of a text without surrogates. -/
theorem filterMap_of_characters? {text : Text} {chars : List Char}
    (h : text.characters? = some chars) : text.filterMap CodePoint.char? = chars := by
  unfold Text.characters? at h
  induction text generalizing chars with
  | nil =>
    cases h
    rfl
  | cons p text ih =>
    rw [List.mapM_cons] at h
    obtain ⟨c, hp, hrest⟩ := Option.bind_eq_some_iff.mp h
    obtain ⟨rest, htext, hchars⟩ := Option.bind_eq_some_iff.mp hrest
    cases hchars
    rw [List.filterMap_cons_some hp, ih htext]

/-- A name consists of characters of identifiers. -/
theorem isIdentifier_of_isName {text : Text} (h : isName text = true) :
    text.filterMap CodePoint.char? ≠ [] ∧ ∀ c ∈ text.filterMap CodePoint.char?,
      Unicode.isIdentifierStart c = true ∨ Unicode.isIdentifierContinue c = true := by
  unfold isName at h
  split at h
  · next chars hchars =>
    obtain ⟨hidentifier, -⟩ := Bool.and_eq_true_iff.mp h
    rw [filterMap_of_characters? hchars]
    cases chars with
    | nil => cases hidentifier
    | cons first rest =>
      obtain ⟨hfirst, hrest⟩ := Bool.and_eq_true_iff.mp hidentifier
      exact ⟨List.cons_ne_nil _ _, List.forall_mem_cons.mpr ⟨Or.inl hfirst, fun c hc =>
        Or.inr (List.all_eq_true.mp hrest c hc)⟩⟩
  · cases h

/-- A name is whole. -/
theorem isWhole_of_isName {text : Text} (h : isName text = true) :
    IsWhole (text.filterMap CodePoint.char?) := by
  obtain ⟨hne, hall⟩ := isIdentifier_of_isName h
  refine ⟨hne, isStripped_of_forall _ fun c hc => isBlank_eq_false_of_identifier (hall c hc),
    .code, ?_, trivial, trivial⟩
  have hpasses := Expression.passes_append (fun c hc => isPlain_of_identifier (hall c hc)) []
  rw [List.append_nil] at hpasses
  exact hpasses.run_eq []

/-! ### Literals -/

/-- The expression of an argument is whole. -/
theorem isWhole_of_argument [Expression.Capacity]
    {span : Span} {a : Placeholder.Argument} {b : Argument}
    (h : argument span a = .ok b) : IsWhole b.expression.toList := by
  unfold argument at h
  dsimp only at h
  split at h
  · next hname =>
    cases h
    rw [String.toList_ofList]
    exact isWhole_of_isName hname
  · obtain ⟨e, he, hb⟩ := Outcome.bind_eq_ok_iff.mp h
    cases hb
    exact isWhole_of_expression he

/-- **The arguments of a compiled literal are whole.** -/
theorem isWhole_of_compileLiteral [Expression.Capacity]
    {strict : Bool} {literal : Syntax.Token} {m : Message}
    (h : compileLiteral strict literal = .ok m) :
    ∀ a ∈ m.arguments, IsWhole a.expression.toList := by
  unfold compileLiteral at h
  dsimp only at h
  split at h
  · cases h
  · split at h
    · cases h
    · obtain ⟨arguments, harguments, hm⟩ := Outcome.bind_eq_ok_iff.mp h
      cases hm
      intro b hb
      obtain ⟨a, -, hb⟩ := Outcome.exists_of_mem_mapM harguments hb
      exact isWhole_of_argument hb

end Errata.Descriptor
