import Errata.Proofs.Descriptor.Argument
import Errata.Proofs.Emission.Message

/-!
# The arguments of an emitted call

Between the parentheses of the call that is emitted for a message stand the expressions of its
arguments, with commas between them. This file reads them back: a comma outside strings, comments
and brackets ends an argument, and a closing parenthesis there ends the call.

* `readCall?`: what is read of a call, and `Reading.arguments`: the arguments that are read.
* `StandsAlone`: expressions without a comma that ends an argument, and without a comment at the
  end.
* `readFrom?_append`: a text without such a comma belongs to the argument that is being read.
* **`readCall?_joined`**: texts with commas between them are read as they are exactly if each of
  them stands alone.
* **`compileLiteral_call_iff`**: the arguments of a message are read as they are exactly if each of
  their expressions stands alone. `not_readCall?_tuple` is a message of which one does not.
-/

namespace Errata.Emission

open Expression (Region Place isQuote)
open Descriptor (IsWhole)

/-! ### Reading arguments -/

/-- Whether a character stands outside strings, comments and brackets. -/
def IsTopLevel (s : Place) (c : Char) : Prop :=
  s.region.IsOutside c ∧ s.brackets = []

instance (s : Place) (c : Char) : Decidable (IsTopLevel s c) :=
  inferInstanceAs (Decidable (_ ∧ _))

/-- What is read of a call. -/
structure Reading where
  /-- What stands before the first comma that ends an argument. -/
  first : List Char
  /-- What stands between the others, up to the parenthesis that closes the call. -/
  others : List (List Char)
  /-- What stands behind the call. -/
  behind : List Char
deriving DecidableEq, Repr

/-- What is read if a text stands in front that belongs to the first argument. -/
def Reading.prepend (text : List Char) (r : Reading) : Reading :=
  { r with first := text ++ r.first }

/-- What is read if a comma stands in front that ends an argument. -/
def Reading.divide (r : Reading) : Reading :=
  ⟨[], r.first :: r.others, r.behind⟩

/-- The arguments that are read, without the white space around them. White space alone is no
argument. -/
def Reading.arguments (r : Reading) : List (List Char) :=
  match (r.first :: r.others).map (stripBy Unicode.isBlank) with
  | [[]] => []
  | arguments => arguments

/-- Reads a call up to the parenthesis that closes it. -/
def readFrom? (s : Place) : List Char → Option Reading
  | [] => none
  | c :: rest =>
    if c = ')' ∧ IsTopLevel s c then some ⟨[], [], rest⟩
    else
      match s.step c with
      | none => none
      | some t =>
        (readFrom? t rest).map
          (if c = ',' ∧ IsTopLevel s c then Reading.divide else Reading.prepend [c])

/-- Reads a call from behind its opening parenthesis on. -/
def readCall? (text : List Char) : Option Reading :=
  readFrom? .start text

/-- Whether a text holds a comma that ends an argument. -/
def HasTopLevelComma (s : Place) (e : List Char) : Prop :=
  ∃ before after t, e = before ++ ',' :: after ∧ s.run before = some t ∧ IsTopLevel t ','

/-- Whether a text ends in a comment. -/
def EndsInComment (e : List Char) : Prop :=
  ∃ t, Place.start.run e = some t ∧ t.region = .comment

/-- Whether a text stands alone: it is one argument wherever it is put. -/
structure StandsAlone (e : List Char) : Prop where
  /-- No comma divides it. -/
  noComma : ¬HasTopLevelComma .start e
  /-- What follows it is not part of a comment. -/
  noComment : ¬EndsInComment e

/-! ### Single texts -/

/-- A comma that ends an argument is the first character, or stands in the rest. -/
theorem hasTopLevelComma_cons_iff {s t : Place} {c : Char} {e : List Char} (h : s.step c = some t) :
    HasTopLevelComma s (c :: e) ↔ (c = ',' ∧ IsTopLevel s c) ∨ HasTopLevelComma t e := by
  constructor
  · rintro ⟨before, after, u, hsplit, hrun, htop⟩
    cases before with
    | nil =>
      obtain ⟨rfl, rfl⟩ := List.cons.inj hsplit
      cases hrun
      exact Or.inl ⟨rfl, htop⟩
    | cons d before =>
      obtain ⟨rfl, rfl⟩ := List.cons.inj hsplit
      rw [Place.run, h] at hrun
      exact Or.inr ⟨before, after, u, rfl, hrun, htop⟩
  · rintro (⟨rfl, htop⟩ | ⟨before, after, u, rfl, hrun, htop⟩)
    · exact ⟨[], e, s, rfl, rfl, htop⟩
    · exact ⟨c :: before, after, u, rfl, by rw [Place.run, h]; exact hrun, htop⟩

/-- A parenthesis closes nothing where no bracket is open. -/
theorem step_eq_none_of_isTopLevel {s : Place} (h : IsTopLevel s ')') : s.step ')' = none := by
  obtain ⟨region, brackets⟩ := s
  obtain ⟨hregion, rfl⟩ := h
  cases region with
  | code => rfl
  | empty quote => simp [Place.step, Region.step, hregion, Expression.nest, Expression.closing?]
  | _ => exact hregion.elim

/-- A character that may stand there belongs to the argument that is being read, or ends it. -/
theorem readFrom?_cons {s t : Place} {c : Char} (h : s.step c = some t) (rest : List Char) :
    readFrom? s (c :: rest) = (readFrom? t rest).map
      (if c = ',' ∧ IsTopLevel s c then Reading.divide else Reading.prepend [c]) := by
  have hclose : ¬(c = ')' ∧ IsTopLevel s c) := by
    rintro ⟨rfl, htop⟩
    rw [step_eq_none_of_isTopLevel htop] at h
    cases h
  rw [readFrom?, if_neg hclose, h]

/-- A character that may not stand there closes the call, if it is read. -/
theorem eq_of_readFrom?_cons {s : Place} {c : Char} {rest : List Char} {r : Reading}
    (h : s.step c = none) (hr : readFrom? s (c :: rest) = some r) :
    c = ')' ∧ r = ⟨[], [], rest⟩ := by
  rw [readFrom?, h] at hr
  split at hr
  · next hc =>
    cases hr
    exact ⟨hc.1, rfl⟩
  · cases hr

/-- **A text without a comma** that ends an argument belongs to the argument that is being read. -/
theorem readFrom?_append {s t : Place} {e : List Char} (hrun : s.run e = some t)
    (hcomma : ¬HasTopLevelComma s e) (rest : List Char) :
    readFrom? s (e ++ rest) = (readFrom? t rest).map (Reading.prepend e) := by
  induction e generalizing s with
  | nil =>
    cases hrun
    exact Option.map_id.symm ▸ rfl
  | cons c e ih =>
    obtain ⟨u, hu, hrest⟩ := Option.bind_eq_some_iff.mp hrun
    rw [hasTopLevelComma_cons_iff hu, not_or] at hcomma
    rw [List.cons_append, readFrom?_cons hu, if_neg hcomma.1, ih hrest hcomma.2, Option.map_map]
    rfl

/-- What ends an argument is no white space. -/
theorem isBlank_of_ends {c : Char} (hc : c = ',' ∨ c = ')') : Unicode.isBlank c = false := by
  rcases hc with rfl | rfl <;> rfl

/-- The number of characters other than white space. -/
def weight (e : List Char) : Nat :=
  e.countP fun c => !Unicode.isBlank c

/-- **A text with a comma** that ends an argument loses a part of it to the next argument. -/
theorem weight_first_lt {s : Place} {e rest : List Char} {r : Reading}
    (hcomma : HasTopLevelComma s e) (hr : readFrom? s (e ++ rest) = some r) :
    weight r.first < weight e := by
  induction e generalizing s r with
  | nil =>
    obtain ⟨before, after, -, hsplit, -⟩ := hcomma
    simp at hsplit
  | cons c e ih =>
    rw [List.cons_append] at hr
    cases hstep : s.step c with
    | none =>
      obtain ⟨rfl, rfl⟩ := eq_of_readFrom?_cons hstep hr
      exact List.countP_pos_iff.mpr ⟨_, List.mem_cons_self, by simp [isBlank_of_ends]⟩
    | some t =>
      rw [readFrom?_cons hstep] at hr
      obtain ⟨r', hr', rfl⟩ := Option.map_eq_some_iff.mp hr
      split
      · next hc =>
        exact List.countP_pos_iff.mpr ⟨c, List.mem_cons_self, by simp [isBlank_of_ends, hc.1]⟩
      · next hc =>
        have hlt := ih (((hasTopLevelComma_cons_iff hstep).mp hcomma).resolve_left hc) hr'
        simp only [Reading.prepend, weight, List.singleton_append, List.countP_cons] at hlt ⊢
        exact Nat.add_lt_add_right hlt _

/-! ### Texts with commas between them -/

/-- What follows the first of several texts with commas between them, up to the end of a call. -/
def tail (more : List (List Char)) (rest : List Char) : List Char :=
  (more.flatMap fun e => ',' :: ' ' :: e) ++ ')' :: rest

/-- What follows a text starts with a comma or a parenthesis. -/
theorem exists_tail_eq (more : List (List Char)) (rest : List Char) :
    ∃ c after, tail more rest = c :: after ∧ (c = ',' ∨ c = ')') := by
  cases more with
  | nil => exact ⟨')', rest, rfl, Or.inr rfl⟩
  | cons e more => exact ⟨',', ' ' :: e ++ tail more rest, by simp [tail], Or.inl rfl⟩

/-- A comma or a parenthesis behind a text is outside strings, comments and brackets, unless the
text ends in a comment. -/
theorem isTopLevel_of_settles {last : Region} {c : Char} (hsettles : last.Settles [])
    (hordinary : last.IsOrdinary) (hcomment : last ≠ .comment) (hc : c = ',' ∨ c = ')') :
    IsTopLevel ⟨last, []⟩ c := by
  refine ⟨?_, rfl⟩
  cases last with
  | code => trivial
  | comment => exact absurd rfl hcomment
  | empty quote =>
    have hquote : isQuote quote = true := hordinary
    rintro rfl
    rcases hc with rfl | rfl <;> exact absurd hquote (by decide)
  | _ => exact hsettles.elim

/-- A comma that ends an argument leads to the next one. -/
theorem readFrom?_comma {s : Place} (h : IsTopLevel s ',') (e : List Char) :
    readFrom? s (',' :: ' ' :: e) =
      (readCall? e).map fun r => (r.prepend [' ']).divide := by
  obtain ⟨region, brackets⟩ := s
  obtain ⟨hregion, rfl⟩ := h
  have hstep : Place.step ⟨region, []⟩ ',' = some .start := by
    cases region with
    | code => rfl
    | empty quote =>
      have hcomma : Region.step (.empty quote) ',' = some .code := by
        rw [Region.step, if_neg hregion]
        rfl
      rw [Place.step, hcomma]
      simp [hregion, Expression.nest, Expression.closing?, Place.start]
    | _ => exact hregion.elim
  rw [readFrom?_cons hstep, if_pos ⟨rfl, hregion, rfl⟩,
    readFrom?_cons (show Place.start.step ' ' = some .start from rfl), if_neg (by simp),
    Option.map_map]
  rfl

section

variable {e : List Char} (he : IsWhole e) (halone : StandsAlone e)
include he halone

/-- A text that stands alone ends outside strings, comments and brackets. -/
theorem exists_run_of_standsAlone :
    ∃ t, Place.start.run e = some t ∧ ∀ c, c = ',' ∨ c = ')' → IsTopLevel t c := by
  obtain ⟨last, hrun, hsettles, hordinary⟩ := he.ends
  have hcomment : last ≠ .comment := fun heq => halone.noComment ⟨_, hrun, heq⟩
  exact ⟨_, hrun, fun c hc => isTopLevel_of_settles hsettles hordinary hcomment hc⟩

/-- A text that stands alone is the last argument if the call ends behind it. -/
theorem readCall?_last (rest : List Char) : readCall? (e ++ tail [] rest) = some ⟨e, [], rest⟩ := by
  obtain ⟨t, hrun, htop⟩ := exists_run_of_standsAlone he halone
  rw [readCall?, readFrom?_append hrun halone.noComma]
  simp [tail, readFrom?, htop, Reading.prepend]

/-- A text that stands alone is the argument before those that follow. -/
theorem readCall?_next (next : List Char) (more : List (List Char)) (rest : List Char) :
    readCall? (e ++ tail (next :: more) rest) =
      (readCall? (next ++ tail more rest)).map fun r =>
        ⟨e, (' ' :: r.first) :: r.others, r.behind⟩ := by
  obtain ⟨t, hrun, htop⟩ := exists_run_of_standsAlone he halone
  have htail : tail (next :: more) rest = ',' :: ' ' :: (next ++ tail more rest) := by simp [tail]
  rw [readCall?, readFrom?_append hrun halone.noComma, htail,
    readFrom?_comma (htop ',' (Or.inl rfl)), Option.map_map]
  refine congrArg (Option.map · _) (funext fun r => ?_)
  simp [Reading.prepend, Reading.divide]

end

/-- **Texts that stand alone** are read as they are. -/
theorem readCall?_of_standsAlone {e : List Char} {more : List (List Char)}
    (hwhole : ∀ a ∈ e :: more, IsWhole a) (halone : ∀ a ∈ e :: more, StandsAlone a)
    (rest : List Char) :
    readCall? (e ++ tail more rest) = some ⟨e, more.map (' ' :: ·), rest⟩ := by
  induction more generalizing e with
  | nil => exact readCall?_last (hwhole e List.mem_cons_self) (halone e List.mem_cons_self) rest
  | cons next more ih =>
    obtain ⟨he, hmore⟩ := List.forall_mem_cons.mp hwhole
    obtain ⟨hefree, hmorefree⟩ := List.forall_mem_cons.mp halone
    rw [readCall?_next he hefree, ih hmore hmorefree]
    rfl

/-- The argument that is read from a text that does not stand alone differs from the text. -/
theorem weight_first_ne {e : List Char} (halone : ¬StandsAlone e) {more : List (List Char)}
    {rest : List Char} {r : Reading} (hr : readCall? (e ++ tail more rest) = some r) :
    weight r.first ≠ weight e := by
  by_cases hcomma : HasTopLevelComma .start e
  · exact (weight_first_lt hcomma hr).ne
  · obtain ⟨t, ht, hcomment⟩ : EndsInComment e := by
      by_contra hnot
      exact halone ⟨hcomma, hnot⟩
    -- the character behind the text belongs to the comment, and so to the argument
    obtain ⟨c, after, htail, hc⟩ := exists_tail_eq more rest
    have hstep : t.step c = some t := by
      obtain ⟨region, brackets⟩ := t
      obtain rfl : region = .comment := hcomment
      rcases hc with rfl | rfl <;> rfl
    have htop : ¬(c = ',' ∧ IsTopLevel t c) := fun h => by
      rw [IsTopLevel, hcomment] at h
      exact h.2.1
    rw [readCall?, readFrom?_append ht hcomma, htail, readFrom?_cons hstep, if_neg htop] at hr
    obtain ⟨r', hr', rfl⟩ := Option.map_eq_some_iff.mp hr
    obtain ⟨r'', -, rfl⟩ := Option.map_eq_some_iff.mp hr'
    simp [Reading.prepend, weight, List.countP_append, isBlank_of_ends hc]

/-- **Texts that are read as they are** stand alone. -/
theorem standsAlone_of_readCall? {e : List Char} {more : List (List Char)}
    (hwhole : ∀ a ∈ e :: more, IsWhole a) {rest : List Char} {r : Reading}
    (hr : readCall? (e ++ tail more rest) = some r)
    (hfirst : stripBy Unicode.isBlank r.first = e)
    (hothers : r.others.map (stripBy Unicode.isBlank) = more) :
    ∀ a ∈ e :: more, StandsAlone a := by
  have halone : ∀ {e : List Char} {more : List (List Char)} {r : Reading},
      readCall? (e ++ tail more rest) = some r → stripBy Unicode.isBlank r.first = e →
        StandsAlone e := by
    intro e more r hr hfirst
    by_contra hnot
    refine weight_first_ne hnot hr ?_
    rw [← hfirst, weight, weight, countP_stripBy]
  induction more generalizing e r with
  | nil => exact List.forall_mem_singleton.mpr (halone hr hfirst)
  | cons next more ih =>
    obtain ⟨he, hmore⟩ := List.forall_mem_cons.mp hwhole
    have hefree := halone hr hfirst
    refine List.forall_mem_cons.mpr ⟨hefree, ?_⟩
    rw [readCall?_next he hefree] at hr
    obtain ⟨r', hr', rfl⟩ := Option.map_eq_some_iff.mp hr
    obtain ⟨hnext, hothers⟩ := List.cons.inj hothers
    rw [stripBy_cons_of_pos _ rfl] at hnext
    exact ih hmore hr' hnext hothers

/-- Texts with commas between them, in front of the parenthesis that closes a call. -/
theorem intercalate_append (e : List Char) (more : List (List Char)) (rest : List Char) :
    [',', ' '].intercalate (e :: more) ++ ')' :: rest = e ++ tail more rest := by
  induction more generalizing e with
  | nil => simp [tail]
  | cons next more ih =>
    rw [List.intercalate_cons_cons, List.append_assoc, List.append_assoc, ih next]
    simp [tail]

/-- The arguments that are read are the given ones. -/
theorem arguments_eq_iff {r : Reading} {e : List Char} {more : List (List Char)} (he : e ≠ []) :
    r.arguments = e :: more ↔
      stripBy Unicode.isBlank r.first = e ∧ r.others.map (stripBy Unicode.isBlank) = more := by
  unfold Reading.arguments
  rw [List.map_cons]
  split
  · next hnone =>
    obtain ⟨hfirst, hothers⟩ := List.cons.inj hnone
    simp [hfirst, he.symm]
  · simp

/-- **Texts with commas between them** are read as they are exactly if each of them stands alone. -/
theorem readCall?_joined {args : List (List Char)} (hwhole : ∀ a ∈ args, IsWhole a)
    (rest : List Char) :
    (∃ r, readCall? ([',', ' '].intercalate args ++ ')' :: rest) = some r ∧ r.arguments = args ∧
        r.behind = rest) ↔
      ∀ a ∈ args, StandsAlone a := by
  cases args with
  | nil => exact iff_of_true ⟨⟨[], [], rest⟩, rfl, rfl, rfl⟩ (List.forall_mem_nil _)
  | cons e more =>
    have hne : e ≠ [] := (hwhole e List.mem_cons_self).ne_nil
    rw [intercalate_append]
    constructor
    · rintro ⟨r, hr, harguments, -⟩
      obtain ⟨hfirst, hothers⟩ := (arguments_eq_iff hne).mp harguments
      exact standsAlone_of_readCall? hwhole hr hfirst hothers
    · intro halone
      refine ⟨_, readCall?_of_standsAlone hwhole halone rest, (arguments_eq_iff hne).mpr ?_, rfl⟩
      obtain ⟨he, hmore⟩ := List.forall_mem_cons.mp hwhole
      refine ⟨he.isStripped, ?_⟩
      rw [List.map_map]
      refine (List.map_congr_left fun a ha => ?_).trans (List.map_id more)
      exact (stripBy_cons_of_pos _ rfl a).trans (hmore a ha).isStripped

/-! ### Messages -/

/-- **The arguments of a message** are not empty, and they are read as they are exactly if each of
their expressions stands alone. Without any, the message may be emitted as a mere string literal. -/
theorem compileLiteral_call_iff [Expression.Capacity]
    {strict : Bool} {literal : Syntax.Token} {m : Descriptor.Message}
    (h : Descriptor.compileLiteral strict literal = .ok m) :
    (∀ a ∈ m.arguments, a.expression ≠ "") ∧
    ((m.arguments = [] ∧ Form.read? (message m).toList = some (.literal m.template)) ∨
      ∃ text, Form.read? (message m).toList = some (.call m.template text) ∧
        ∀ rest, (∃ r, readCall? (text ++ ')' :: rest) = some r ∧
            r.arguments = m.arguments.map (fun a => a.expression.toList) ∧ r.behind = rest) ↔
          ∀ a ∈ m.arguments, StandsAlone a.expression.toList) := by
  have hwhole := Descriptor.isWhole_of_compileLiteral h
  constructor
  · intro a ha hempty
    exact (hwhole a ha).ne_nil (by rw [hempty]; rfl)
  · rw [read?_message, messageForm]
    split
    · next hplain =>
      exact Or.inl ⟨List.isEmpty_iff.mp (Bool.and_eq_true_iff.mp hplain).1, rfl⟩
    · refine Or.inr ⟨_, rfl, fun rest => ?_⟩
      have hwhole : ∀ e ∈ m.arguments.map fun a => a.expression.toList, Descriptor.IsWhole e := by
        simpa using hwhole
      have hjoined := readCall?_joined hwhole rest
      simpa [String.toList_intercalate, Function.comp_def] using hjoined

/-- The token of a string literal at the start of a text. -/
def literalToken (body : String) : Syntax.Token :=
  ⟨.string, '"' :: body.toList ++ ['"'], ⟨{}, {}⟩⟩

/-- Calls, subscripts and strings stand alone, whichever commas and parentheses are in them. -/
theorem compileLiteral_call_nested :
    ∃ m, Descriptor.compileLiteral true
        (literalToken "\x7bf(x, 'a,b)')\x7d \x7bz[0, 1]\x7d") = .ok m ∧
      ∀ a ∈ m.arguments, StandsAlone a.expression.toList := by
  have h : Descriptor.compileLiteral true
      (literalToken "\x7bf(x, 'a,b)')\x7d \x7bz[0, 1]\x7d") = .ok
        ⟨Text.ofString "\x7b\x7d \x7b\x7d",
          [⟨"f(x, 'a,b)')", 1, "f(x, 'a,b)')", false, some ⟨1, 3, 1, 15⟩⟩,
            ⟨"z[0, 1]", 16, "z[0, 1]", false, some ⟨1, 18, 1, 25⟩⟩],
          Text.ofString "\x7bf(x, 'a,b)')\x7d \x7bz[0, 1]\x7d", some ⟨1, 1, 1, 1⟩⟩ := by
    decide +kernel
  obtain ⟨-, ⟨hnone, -⟩ | ⟨text, hform, hread⟩⟩ := compileLiteral_call_iff h
  · cases hnone
  · refine ⟨_, h, (hread []).mp ?_⟩
    rw [read?_message] at hform
    cases hform
    exact ⟨⟨"f(x, 'a,b)')".toList, [" z[0, 1]".toList], []⟩, by decide⟩

/-- A tuple without brackets is admitted and becomes two arguments, and a comment takes along what
follows it. -/
theorem not_readCall?_tuple :
    (∃ m text r, Descriptor.compileLiteral true (literalToken "\x7bx, y\x7d \x7bz\x7d") = .ok m ∧
      m.arguments.map Descriptor.Argument.expression = ["x, y", "z"] ∧
      Form.read? (message m).toList = some (.call m.template text) ∧
      readCall? (text ++ [')']) = some r ∧ r.arguments = [['x'], ['y'], ['z']]) ∧
    ∃ m text, Descriptor.compileLiteral true (literalToken "\x7bx # y\x7d") = .ok m ∧
      Form.read? (message m).toList = some (.call m.template text) ∧
      readCall? (text ++ [')']) = none := by
  constructor
  · exact ⟨⟨Text.ofString "\x7b\x7d \x7b\x7d",
        [⟨"x, y", 1, "x, y", false, some ⟨1, 3, 1, 7⟩⟩, ⟨"z", 8, "z", true, some ⟨1, 10, 1, 11⟩⟩],
        Text.ofString "\x7bx, y\x7d \x7bz\x7d", some ⟨1, 1, 1, 1⟩⟩,
      "x, y, z".toList, ⟨['x'], [[' ', 'y'], [' ', 'z']], []⟩, by decide +kernel⟩
  · exact ⟨⟨Text.ofString "\x7b\x7d", [⟨"x # y", 1, "x # y", false, some ⟨1, 3, 1, 8⟩⟩],
        Text.ofString "\x7bx # y\x7d", some ⟨1, 1, 1, 1⟩⟩, "x # y".toList, by decide +kernel⟩

end Errata.Emission
