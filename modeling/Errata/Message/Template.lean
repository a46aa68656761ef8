import Errata.Text.CodePoint

/-!
# Templates

A template is text with replacement fields in braces: `cannot open {}: {!r:>10}`. A doubled brace
stands for the brace itself. A field has a name, an optional conversion after `!` and an optional
specification after `:`, in which braces nest.

A template is read chunk by chunk. A chunk is literal text up to the next brace, followed by a
field if that brace opens one. Reading chunk by chunk matters: the fields of the first chunks can
be filled in before a later chunk turns out to be malformed.

## Main definitions

* `Template.next`: the first chunk of a template that is not empty, and the rest.
* `Template.chunks`: all chunks, or the first fault.
* `Template.Fault.reason`: the wording of a fault.
-/

namespace Errata.Template

/-- What can be wrong with a template. -/
inductive Fault where
  /-- A closing brace stands alone. -/
  | loneClose
  /-- An opening brace is the last character. -/
  | loneOpen
  /-- An opening brace stands in the name of a field. -/
  | openInName
  /-- The template ends in the name of a field. -/
  | endInName
  /-- The template ends where the letter of a conversion should be. -/
  | endInConversion
  /-- Something other than a colon or the closing brace follows a conversion. -/
  | afterConversion
  /-- The template ends in the specification of a field. -/
  | endInSpec
deriving DecidableEq, Repr

/-- The wording of a fault. -/
def Fault.reason : Fault → String
  | loneClose => "Single '\x7d' encountered in format string"
  | loneOpen => "Single '\x7b' encountered in format string"
  | openInName => "unexpected '\x7b' in field name"
  | endInName => "expected '\x7d' before end of string"
  | endInConversion => "end of string while looking for conversion specifier"
  | afterConversion => "expected ':' after conversion specifier"
  | endInSpec => "unmatched '\x7b' in format spec"

/-- A replacement field. -/
structure Field where
  /-- What selects the value; empty for the next value in order. -/
  name : Text
  /-- The letter of the conversion. -/
  conversion : Option CodePoint
  /-- The specification, with the braces of the fields nested in it. -/
  spec : Text
deriving DecidableEq, Repr

/-- Literal text and the field that follows it. -/
structure Chunk where
  /-- The text, with doubled braces made single. -/
  literal : Text
  /-- The field, unless the text ends the template or a doubled brace. -/
  field : Option Field
deriving DecidableEq, Repr

/-- How a run of literal text ends. -/
inductive Stop where
  /-- With the template. -/
  | atEnd
  /-- With a doubled brace, which belongs to the run. -/
  | atDoubled (rest : Text)
  /-- Before a field, whose opening brace is passed. -/
  | atField (rest : Text)
  /-- With a fault. -/
  | atFault (fault : Fault)

/-- The literal text up to the next brace. -/
def literalRun : Text → Text × Stop
  | [] => ([], .atEnd)
  | .char '{' :: rest =>
    match rest with
    | [] => ([], .atFault .loneOpen)
    | .char '{' :: rest => ([.char '{'], .atDoubled rest)
    | rest => ([], .atField rest)
  | .char '}' :: rest =>
    match rest with
    | .char '}' :: rest => ([.char '}'], .atDoubled rest)
    | _ => ([], .atFault .loneClose)
  | c :: rest =>
    let (literal, stop) := literalRun rest
    (c :: literal, stop)

/-- How the name of a field ends. -/
inductive NameStop where
  /-- At the closing brace. -/
  | atClose (rest : Text)
  /-- At a colon. -/
  | atColon (rest : Text)
  /-- At an exclamation mark. -/
  | atBang (rest : Text)
  /-- With a fault. -/
  | atFault (fault : Fault)

/-- The text after the character that ends a name. -/
def NameStop.rest? : NameStop → Option Text
  | atClose rest | atColon rest | atBang rest => some rest
  | atFault _ => none

/-- The name of a field. From an opening bracket up to the next closing one every character belongs
to the name. -/
def fieldName (inBrackets : Bool) : Text → Text × NameStop
  | [] => ([], .atFault .endInName)
  | c :: rest =>
    if inBrackets then
      let (name, stop) := fieldName (c != .char ']') rest
      (c :: name, stop)
    else if c = .char '{' then ([], .atFault .openInName)
    else if c = .char '}' then ([], .atClose rest)
    else if c = .char ':' then ([], .atColon rest)
    else if c = .char '!' then ([], .atBang rest)
    else
      let (name, stop) := fieldName (c == .char '[') rest
      (c :: name, stop)

/-- The specification of a field up to the brace that closes the field, and the rest, or `none` if
the text ends before. `depth` is the number of braces open inside the specification. -/
def fieldSpec (depth : Nat) : Text → Option (Text × Text)
  | [] => none
  | c :: rest =>
    if c = .char '{' then
      (fieldSpec (depth + 1) rest).map fun (spec, rest) => (c :: spec, rest)
    else if c = .char '}' then
      match depth with
      | 0 => some ([], rest)
      | depth + 1 => (fieldSpec depth rest).map fun (spec, rest) => (c :: spec, rest)
    else
      (fieldSpec depth rest).map fun (spec, rest) => (c :: spec, rest)

/-- A field of which the name and the conversion are read, completed by its specification. -/
def withSpec (name : Text) (conversion : Option CodePoint) (text : Text) :
    Except Fault (Field × Text) :=
  match fieldSpec 0 text with
  | some (spec, rest) => .ok (⟨name, conversion, spec⟩, rest)
  | none => .error .endInSpec

/-- A field whose opening brace is passed, and the rest. -/
def readField (text : Text) : Except Fault (Field × Text) :=
  match fieldName false text with
  | (_, .atFault fault) => .error fault
  | (name, .atClose rest) => .ok (⟨name, none, []⟩, rest)
  | (name, .atColon rest) => withSpec name none rest
  | (name, .atBang rest) =>
    match rest with
    | [] => .error .endInConversion
    | [_] => .error .endInSpec
    | conversion :: c :: rest =>
      if c = .char '}' then .ok (⟨name, some conversion, []⟩, rest)
      else if c = .char ':' then withSpec name (some conversion) rest
      else .error .afterConversion

/-- The first chunk of a template, and the rest. -/
def next (text : Text) : Except Fault (Chunk × Text) :=
  match literalRun text with
  | (literal, .atEnd) => .ok (⟨literal, none⟩, [])
  | (literal, .atDoubled rest) => .ok (⟨literal, none⟩, rest)
  | (_, .atFault fault) => .error fault
  | (literal, .atField rest) =>
    (readField rest).map fun (field, rest) => (⟨literal, some field⟩, rest)

/-! ### Every chunk takes something away -/

/-- The text after literal text is shorter than the whole. -/
theorem length_literalRun_lt {text rest : Text}
    (h : (literalRun text).2 = .atDoubled rest ∨ (literalRun text).2 = .atField rest) :
    rest.length < text.length := by
  fun_induction literalRun text <;> simp_all
  all_goals omega

/-- The text after the name of a field is shorter than the whole. -/
theorem length_fieldName_lt {inBrackets : Bool} {text rest : Text}
    (h : (fieldName inBrackets text).2.rest? = some rest) : rest.length < text.length := by
  fun_induction fieldName inBrackets text <;> grind [NameStop.rest?]

/-- A specification and the text after it are shorter than the whole. -/
theorem length_fieldSpec_lt {depth : Nat} {text spec rest : Text}
    (h : fieldSpec depth text = some (spec, rest)) : spec.length + rest.length < text.length := by
  fun_induction fieldSpec depth text generalizing spec <;> simp_all <;> grind

/-- The specification of a completed field and the text after it are shorter than the whole. -/
theorem length_withSpec_lt {name text rest : Text} {conversion : Option CodePoint} {field : Field}
    (h : withSpec name conversion text = .ok (field, rest)) :
    field.spec.length + rest.length < text.length := by
  unfold withSpec at h
  split at h
  · next hs => cases h; exact length_fieldSpec_lt hs
  · cases h

/-- The specification of a field and the text after it are shorter than the whole. -/
theorem length_readField_lt {text rest : Text} {field : Field}
    (h : readField text = .ok (field, rest)) :
    field.spec.length + rest.length < text.length := by
  have hn := @length_fieldName_lt false text
  unfold readField at h
  split at h
  · cases h
  · next hf => cases h; simpa using hn (by simp [hf, NameStop.rest?])
  · next hf =>
    have := hn (by rw [hf]; rfl)
    have := length_withSpec_lt h
    omega
  · next hf =>
    have := hn (by rw [hf]; rfl)
    split at h
    · cases h
    · cases h
    · split at h
      · cases h; simp at *; omega
      · split at h
        · have := length_withSpec_lt h
          simp at *; omega
        · cases h

/-- The text after the first chunk is shorter than the whole, unless that is empty. -/
theorem length_next_lt {text rest : Text} {chunk : Chunk}
    (h : next text = .ok (chunk, rest)) (ht : text ≠ []) : rest.length < text.length := by
  have hl := @length_literalRun_lt text
  unfold next at h
  split at h
  · cases h; exact List.length_pos_iff.mpr ht
  · next hs => cases h; exact hl (by simp [hs])
  · cases h
  · next mid hs =>
    have := @hl mid (by simp [hs])
    cases hf : readField mid with
    | error fault => simp [hf, Except.map] at h
    | ok r =>
      simp only [hf, Except.map, Except.ok.injEq, Prod.mk.injEq] at h
      obtain ⟨-, rfl⟩ := h
      have := length_readField_lt hf
      omega

/-- The specification of the field of the first chunk is shorter than the whole. -/
theorem length_spec_lt {text rest : Text} {chunk : Chunk} {field : Field}
    (h : next text = .ok (chunk, rest)) (hfield : chunk.field = some field) :
    field.spec.length < text.length := by
  have hl := @length_literalRun_lt text
  unfold next at h
  split at h
  · cases h; cases hfield
  · cases h; cases hfield
  · cases h
  · next mid hs =>
    have := @hl mid (by simp [hs])
    cases hf : readField mid with
    | error fault => simp [hf, Except.map] at h
    | ok r =>
      simp only [hf, Except.map, Except.ok.injEq, Prod.mk.injEq] at h
      obtain ⟨rfl, -⟩ := h
      cases hfield
      have := length_readField_lt hf
      omega

/-- All chunks of a template, or its first fault. -/
def chunks (text : Text) : Except Fault (List Chunk) :=
  if ht : text = [] then .ok []
  else
    match h : next text with
    | .error fault => .error fault
    | .ok (chunk, rest) =>
      have := length_next_lt h ht
      (chunks rest).map (chunk :: ·)
termination_by text.length

end Errata.Template
