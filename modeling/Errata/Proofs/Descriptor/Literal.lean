import Errata.Descriptor.Literal
import Errata.Proofs.Outcome

/-!
# Compiled literals

The arguments of a literal are checked one after the other. An argument that is no name is handed to
the reader of expressions, which takes characters other than the null character only, and not more
than its interpreter has room for; whatever else is wrong with the argument is a violation with a
reason.

* `Text.IsReadable`: texts that the reader of expressions can read.
* `expression_isDecided_iff`: **an argument is an expression or a violation** exactly if what is
  left of it without the white space around it is readable.
* `CheckComesTo`: compiling a literal comes to an argument that is no name.
* **`compileLiteral_eq_unreadable_iff`**: compiling a literal meets an argument that cannot be read
  exactly if it comes to one.
-/

namespace Errata

/-! ### Readable texts -/

/-- Whether a text can be handed to the reader of expressions: it consists of characters other than
the null character. -/
def Text.IsPlain (text : Text) : Prop :=
  ∀ p ∈ text, ∃ c, p = .char c ∧ c ≠ '\x00'

/-- Whether the reader of expressions can read a text: it can be handed to it, and does not exhaust
it. -/
structure Text.IsReadable [Expression.Capacity] (text : Text) : Prop where
  isPlain : text.IsPlain
  notExhausting : Expression.Capacity.exhausted? (text.filterMap CodePoint.char?) = none

namespace Text

/-- A text holds no surrogates exactly if it consists of characters. -/
theorem surrogatesFrom_eq_none_iff {position : Nat} {text : Text} :
    surrogatesFrom position text = none ↔ ∀ p ∈ text, ∃ c, p = .char c := by
  induction text generalizing position with
  | nil => simp [surrogatesFrom]
  | cons p text ih =>
    cases p with
    | char c => simp [surrogatesFrom, ih]
    | surrogate offset => simp [surrogatesFrom]

/-- A text can be handed to the reader of expressions exactly if it holds neither surrogates nor the
null character. -/
theorem isPlain_iff {text : Text} :
    text.IsPlain ↔
      text.firstSurrogates? = none ∧ '\x00' ∉ text.filterMap CodePoint.char? := by
  rw [firstSurrogates?, surrogatesFrom_eq_none_iff]
  constructor
  · intro h
    refine ⟨fun p hm => (h p hm).imp fun c hc => hc.1, fun hm => ?_⟩
    obtain ⟨p, hp, hnull⟩ := List.mem_filterMap.mp hm
    obtain ⟨c, rfl, hc⟩ := h p hp
    exact hc (Option.some.inj hnull)
  · rintro ⟨hchars, hnull⟩ p hm
    obtain ⟨c, rfl⟩ := hchars p hm
    refine ⟨c, rfl, ?_⟩
    rintro rfl
    exact hnull (List.mem_filterMap.mpr ⟨_, hm, rfl⟩)

end Text

namespace Descriptor

/-! ### Expressions -/

variable [Expression.Capacity]

/-- The checker gives a reason for every expression that it can read. -/
theorem check_eq_error {text : Text} {fault : Expression.Fault}
    (h : Expression.check text = .error fault) :
    (¬text.IsReadable ∧ fault.reason? = none) ∨
      (text.IsReadable ∧ ∃ reason, fault.reason? = some reason) := by
  unfold Expression.check at h
  split at h
  · rename_i run hrun
    cases h
    exact Or.inl ⟨fun hr => by simp [(Text.isPlain_iff.mp hr.isPlain).1] at hrun, rfl⟩
  · rename_i hnone
    dsimp only at h
    split at h
    · rename_i hnull
      cases h
      exact Or.inl ⟨fun hr => (Text.isPlain_iff.mp hr.isPlain).2 hnull, rfl⟩
    · rename_i hnull
      split at h
      · rename_i what hexhausted
        cases h
        exact Or.inl ⟨fun hr => by simp [hr.notExhausting] at hexhausted, rfl⟩
      · rename_i hexhausted
        refine Or.inr ⟨⟨Text.isPlain_iff.mpr ⟨hnone, hnull⟩, hexhausted⟩, ?_⟩
        split at h
        · cases h
          exact ⟨_, rfl⟩
        · split at h
          · cases h
            exact ⟨_, rfl⟩
          · cases h

/-- What the checker admits is readable. -/
theorem isReadable_of_check {text : Text} (h : Expression.check text = .ok ()) :
    text.IsReadable := by
  unfold Expression.check at h
  split at h
  · cases h
  · rename_i hnone
    dsimp only at h
    split at h
    · cases h
    · rename_i hnull
      split at h
      · cases h
      · rename_i hexhausted
        exact ⟨Text.isPlain_iff.mpr ⟨hnone, hnull⟩, hexhausted⟩

/-- What becomes of an argument that is no name: if what is left of it without the white space
around it is readable, that is the expression, or there is a violation with a reason. -/
theorem expression_eq (text : Text) (span : Span) :
    (text.strip.IsReadable ∧
      (expression text span = .ok (String.ofList (text.strip.filterMap CodePoint.char?)) ∨
        ∃ reason, expression text span =
          .error (violation (.badExpression (String.ofList (text.filterMap CodePoint.char?)) reason)
            span))) ∨
    (¬text.strip.IsReadable ∧ ∃ u, expression text span = .error (.unreadable u)) := by
  unfold expression
  dsimp only
  cases hc : Expression.check text.strip with
  | ok _ => exact Or.inl ⟨isReadable_of_check hc, Or.inl rfl⟩
  | error fault =>
    rcases check_eq_error hc with ⟨hr, hreason⟩ | ⟨hr, reason, hreason⟩
    · refine Or.inr ⟨hr, ?_⟩
      cases fault with
      | surrogates run => exact ⟨_, rfl⟩
      | nullCharacter => exact ⟨_, rfl⟩
      | exhausted what => exact ⟨_, rfl⟩
      | malformed reason => cases hreason
      | forbidden kind => cases hreason
    · refine Or.inl ⟨hr, Or.inr ?_⟩
      cases fault with
      | malformed reason => exact ⟨_, rfl⟩
      | forbidden kind => exact ⟨_, rfl⟩
      | surrogates run => cases hreason
      | nullCharacter => cases hreason
      | exhausted what => cases hreason

/-- **An argument is an expression or a violation** exactly if what is left of it without the white
space around it is readable. -/
theorem expression_isDecided_iff (text : Text) (span : Span) :
    (expression text span = .ok (String.ofList (text.strip.filterMap CodePoint.char?)) ∨
      ∃ reason, expression text span =
        .error (violation (.badExpression (String.ofList (text.filterMap CodePoint.char?)) reason)
          span)) ↔ text.strip.IsReadable := by
  rcases expression_eq text span with ⟨hr, h⟩ | ⟨hr, u, h⟩
  · exact iff_of_true h hr
  · refine iff_of_false ?_ hr
    rw [h]
    rintro (h | ⟨reason, h⟩) <;> cases h

/-- The reader of expressions gives up on an argument exactly if the argument is not readable. -/
theorem expression_eq_unreadable_iff {text : Text} {span : Span} :
    (∃ u, expression text span = .error (.unreadable u)) ↔ ¬text.strip.IsReadable := by
  rw [← expression_isDecided_iff text span]
  rcases expression_eq text span with ⟨-, h | ⟨reason, h⟩⟩ | ⟨-, u, h⟩ <;> simp [h, violation]

/-! ### Literals -/

/-- An argument that is a name is taken as it is; any other is an expression. -/
theorem argument_eq_error_iff {span : Span} {a : Placeholder.Argument} {e : Obstacle} :
    argument span a = .error e ↔ isName a.text = false ∧ expression a.text span = .error e := by
  unfold argument
  dsimp only
  cases isName a.text with
  | true => simp [pure, Except.pure]
  | false => cases expression a.text span <;> simp [bind, Except.bind, pure, Except.pure]

/-- Checking the arguments of a literal comes to one that is no name: the literal is well formed,
and the arguments before it are names or expressions. -/
def CheckComesTo (strict : Bool) (literal : Syntax.Token) (a : Placeholder.Argument) : Prop :=
  ∃ decoded message before after,
    Escape.decode (literal.text.drop 1).dropLast = .ok decoded ∧
    Placeholder.compile strict decoded.text = .ok message ∧
    message.arguments = before ++ a :: after ∧
    (∀ b ∈ before, ∃ described, argument (narrowed literal.span decoded b.offset b.text.length) b =
      .ok described) ∧
    isName a.text = false

/-- **Compiling a literal meets an argument that cannot be read** exactly if it comes to one. -/
theorem compileLiteral_eq_unreadable_iff {strict : Bool} {literal : Syntax.Token} :
    (∃ u, compileLiteral strict literal = .error (.unreadable u)) ↔
      ∃ a, CheckComesTo strict literal a ∧ ¬a.text.strip.IsReadable := by
  unfold compileLiteral CheckComesTo
  dsimp only
  cases hdecode : Escape.decode (literal.text.drop 1).dropLast with
  | error e => simp [violation]
  | ok decoded =>
    cases hcompile : Placeholder.compile strict decoded.text with
    | error fault => simp [violation, hcompile]
    | ok message =>
      have hmade : ∀ u, (do
          let arguments ← message.arguments.mapM fun a =>
            argument (narrowed literal.span decoded a.offset a.text.length) a
          return (⟨message.template, arguments, decoded.text, literal.span⟩ : Message)) =
            Except.error (.unreadable u) ↔
          message.arguments.mapM (fun a =>
            argument (narrowed literal.span decoded a.offset a.text.length) a) =
              .error (.unreadable u) := by
        intro u
        cases message.arguments.mapM fun a =>
            argument (narrowed literal.span decoded a.offset a.text.length) a <;>
          simp [bind, Except.bind, pure, Except.pure]
      simp only [hcompile, hmade, Outcome.mapM_eq_error_iff, argument_eq_error_iff]
      constructor
      · rintro ⟨u, before, a, after, hargs, hbefore, hname, hu⟩
        exact ⟨a, ⟨decoded, message, before, after, rfl, hcompile, hargs, hbefore, hname⟩,
          expression_eq_unreadable_iff.mp ⟨u, hu⟩⟩
      · rintro ⟨a, ⟨decoded', message', before, after, hd, hm, hargs, hbefore, hname⟩, hr⟩
        cases hd
        cases hcompile.symm.trans hm
        obtain ⟨u, hu⟩ := expression_eq_unreadable_iff.mpr hr
        exact ⟨u, before, a, after, hargs, hbefore, hname, hu⟩

end Descriptor

end Errata
