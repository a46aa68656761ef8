import Errata.Expression.Token

/-!
# Where a character of an expression stands

A character of an expression stands in a string, in a comment, or outside of both, and there it
stands inside the brackets that are open before it. This file reads an expression one character at a
time, without making tokens of it: a carriage return ends a line here, too.

* `Region`, `Region.step`: whether the next character is part of a string or of a comment.
* `Place`, `Place.step`, `Place.run`: regions, with the brackets that are open.
* `run_append`: **texts are read one after the other**.
* `Passes`: texts that leave the place as it is, such as blanks, words and numbers.
-/

namespace Errata.Expression

/-! ### Strings and comments -/

/-- Where the next character of an expression stands. -/
inductive Region where
  /-- Outside strings and comments. -/
  | code
  /-- After a backslash outside of them, which continues a line. -/
  | continued
  /-- In a comment. -/
  | comment
  /-- After the first quote of a string. -/
  | opened (quote : Char)
  /-- After two quotes: an empty string, unless a third quote follows. -/
  | empty (quote : Char)
  /-- In a string between single or triple quotes. -/
  | body (quote : Char) (triple : Bool)
  /-- After a backslash in a string. -/
  | escape (quote : Char) (triple : Bool)
  /-- After a backslash and a carriage return in a string between single quotes. -/
  | returned (quote : Char)
  /-- After one or two quotes in a string between triple quotes. -/
  | closing (quote : Char) (second : Bool)
deriving DecidableEq, Repr

/-- Whether the character ends a line. -/
def isNewline (c : Char) : Bool :=
  c == '\n' || c == '\r'

/-- Whether the character starts a string. -/
def isQuote (c : Char) : Bool :=
  c == '"' || c == '\''

namespace Region

/-- What a character outside strings and comments leads to. -/
def outside (c : Char) : Region :=
  if c = '#' then comment
  else if isQuote c then opened c
  else if c = '\\' then continued
  else code

/-- What a character in a string between single quotes leads to. The string does not go on after the
end of a line. -/
def inside (quote c : Char) : Option Region :=
  if c = quote then some code
  else if c = '\\' then some (escape quote false)
  else if isNewline c then none
  else some (body quote false)

/-- What a character in a string between triple quotes leads to, after `next` quotes. -/
def insideTriple (quote c : Char) (next : Region) : Region :=
  if c = quote then next
  else if c = '\\' then escape quote true
  else body quote true

/-- What the next character leads to, if it may stand there. -/
def step : Region → Char → Option Region
  | code, c => some (outside c)
  | continued, c => if isNewline c then some code else none
  | comment, c => some (if isNewline c then code else comment)
  | opened quote, c => if c = quote then some (empty quote) else inside quote c
  | empty quote, c => some (if c = quote then body quote true else outside c)
  | body quote false, c => inside quote c
  | body quote true, c => some (insideTriple quote c (closing quote false))
  | escape quote triple, c =>
    some (if c = '\r' ∧ triple = false then returned quote else body quote triple)
  | returned quote, c => if c = '\n' then some (body quote false) else inside quote c
  | closing quote false, c => some (insideTriple quote c (closing quote true))
  | closing quote true, c => some (insideTriple quote c code)

/-- Whether a character stands outside strings and comments. -/
def IsOutside (c : Char) : Region → Prop
  | code => True
  | empty quote => c ≠ quote
  | _ => False

instance (c : Char) : DecidablePred (IsOutside c) := fun region => by
  cases region <;> unfold IsOutside <;> infer_instance

end Region

/-! ### Brackets -/

/-- The brackets that are open after a character outside strings and comments, the last one first,
unless it closes a bracket that is not open. -/
def nest (brackets : List Char) (c : Char) : Option (List Char) :=
  if (closing? c).isSome then some (c :: brackets)
  else if c = ')' ∨ c = ']' ∨ c = '}' then
    match brackets with
    | [] => none
    | opening :: outer => if closing? opening = some c then some outer else none
  else some brackets

/-- A place in an expression. -/
structure Place where
  /-- Where the next character stands. -/
  region : Region
  /-- The brackets that are open, the last one first. -/
  brackets : List Char
deriving DecidableEq, Repr

namespace Place

/-- The place at which an expression starts. -/
def start : Place :=
  ⟨.code, []⟩

/-- The place after the next character, if it may stand there. -/
def step (s : Place) (c : Char) : Option Place :=
  match s.region.step c with
  | none => none
  | some region =>
    if s.region.IsOutside c then (nest s.brackets c).map (⟨region, ·⟩)
    else some ⟨region, s.brackets⟩

/-- The place after a text, if the text may stand there. -/
def run (s : Place) : List Char → Option Place
  | [] => some s
  | c :: rest => (s.step c).bind (run · rest)

end Place

open Place

/-- **Texts are read one after the other.** -/
theorem run_append (s : Place) (text more : List Char) :
    s.run (text ++ more) = (s.run text).bind (run · more) := by
  induction text generalizing s with
  | nil => rfl
  | cons c text ih =>
    rw [List.cons_append, run, run]
    cases s.step c with
    | none => rfl
    | some t => exact ih t

/-! ### Texts that are passed over -/

/-- The characters that start or end a string, a comment or a bracket, or continue a line. -/
def marks : List Char :=
  ['#', '"', '\'', '\\', '(', ')', '[', ']', '{', '}']

/-- The other characters are plain. -/
def IsPlain (c : Char) : Prop :=
  c ∉ marks

instance (c : Char) : Decidable (IsPlain c) :=
  inferInstanceAs (Decidable (c ∉ marks))

/-- A character with a property that no mark has is plain. -/
theorem isPlain_of {p : Char → Bool} (h : (marks.all fun c => !p c) = true) {c : Char}
    (hc : p c = true) : IsPlain c := by
  intro hm
  have hno := List.all_eq_true.mp h c hm
  simp [hc] at hno

/-- A plain character outside strings and comments changes nothing. -/
theorem step_plain {c : Char} (hc : IsPlain c) (brackets : List Char) :
    step ⟨.code, brackets⟩ c = some ⟨.code, brackets⟩ := by
  simp only [IsPlain, marks, List.mem_cons, List.not_mem_nil, or_false, not_or] at hc
  obtain ⟨h1, h2, h3, h4, h5, h6, h7, h8, h9, h10⟩ := hc
  have hclosing : closing? c = none := by
    unfold closing?
    split <;> simp_all
  simp [step, Region.step, Region.outside, Region.IsOutside, isQuote, nest, *]

/-- A text is passed over up to some rest if it leaves every place outside strings and comments as
it is. -/
def Passes (text behind : List Char) : Prop :=
  ∃ passed, text = passed ++ behind ∧
    ∀ brackets, run ⟨.code, brackets⟩ passed = some ⟨.code, brackets⟩

namespace Passes

/-- Nothing is passed over. -/
theorem refl (text : List Char) : Passes text text :=
  ⟨[], rfl, fun _ => rfl⟩

/-- Two texts are passed over one after the other. -/
theorem trans {text middle behind : List Char} (h : Passes text middle)
    (h' : Passes middle behind) : Passes text behind := by
  obtain ⟨first, rfl, hfirst⟩ := h
  obtain ⟨second, rfl, hsecond⟩ := h'
  refine ⟨first ++ second, (List.append_assoc _ _ _).symm, fun brackets => ?_⟩
  rw [run_append, hfirst]
  exact hsecond brackets

/-- A plain character is passed over. -/
theorem cons {c : Char} {text behind : List Char} (hc : IsPlain c) (h : Passes text behind) :
    Passes (c :: text) behind := by
  refine trans ⟨[c], rfl, fun brackets => ?_⟩ h
  rw [run, step_plain hc]
  rfl

/-- The end of a line that is continued is passed over. -/
theorem continuation {text behind : List Char} (h : Passes text behind) :
    Passes ('\\' :: '\n' :: text) behind :=
  trans ⟨['\\', '\n'], rfl, fun _ => rfl⟩ h

/-- Characters with a property that no mark has are passed over. -/
theorem dropWhile {p : Char → Bool} (h : (marks.all fun c => !p c) = true) (text : List Char) :
    Passes text (text.dropWhile p) := by
  induction text with
  | nil => exact refl []
  | cons c text ih =>
    rw [List.dropWhile_cons]
    split
    · next hc => exact cons (isPlain_of h hc) ih
    · exact refl _

/-- What is passed over is a part of the text. -/
theorem length_le {text behind : List Char} (h : Passes text behind) :
    behind.length ≤ text.length := by
  obtain ⟨passed, rfl, -⟩ := h
  simp

/-- What is passed over does not change where reading comes to. -/
theorem run_eq {text behind : List Char} (h : Passes text behind) (brackets : List Char) :
    run ⟨.code, brackets⟩ text = run ⟨.code, brackets⟩ behind := by
  obtain ⟨passed, rfl, hpassed⟩ := h
  rw [run_append, hpassed]
  rfl

end Passes

end Errata.Expression
