import Errata.Proofs.Descriptor.WellFormed
import Errata.Proofs.Emission.Message
import Errata.Proofs.Shadowing
import Errata.Text.Lines

/-!
# Messages as string literals

A message literal may hold any code point, and so may its template. In the module both stand as
string literals of the language that the module is in: the decoded literal of the first message is
the description of a class, and every template stands in the statement that shows its message. What
is written for them keeps to one line and to printable characters, and is read as what it was
written for.

* `Quoted.IsLiteral`: what can be said of a string literal that was written for a text.
* `isPrintable_encode`, **`isLiteral_encode`**: the written form of a text is such a literal.
* `HoldsLiteral`: lines in which such a literal stands behind a beginning.
* **`variantClass_writesLiterals`**: the lines of a class that hold the literals of a variant.
* `Variant.IsCompiledFrom`: the attributes that the messages of a variant were compiled from.
* **`compile_writes_literals`**: where the literals of all messages stand in a module, and what is
  read from them.
-/

namespace Errata

/-! ### Literals -/

namespace Quoted

/-- Whether a text is a string literal for another one that can stand anywhere in a line. -/
structure IsLiteral (written : List Char) (text : Text) : Prop where
  /-- Its characters are printable. -/
  printable : ∀ c ∈ written, Unicode.isPrintable c = true
  /-- None of them ends a line. -/
  line : ∀ c ∈ written, isLineEnd c = false
  /-- Unless a quote stands behind it, it is read as that text. -/
  read : ∀ behind : List Char, (∀ c ∈ behind.head?, c ≠ '\'' ∧ c ≠ '"') →
    read? (written ++ behind) = some (text, behind)

set_option maxRecDepth 4000 in
/-- No character that ends a line is printable. -/
theorem isLineEnd_of_isPrintable {c : Char} (h : Unicode.isPrintable c = true) :
    isLineEnd c = false := by
  rw [← Bool.not_eq_true]
  intro hend
  simp only [isLineEnd, Bool.or_eq_true, beq_iff_eq] at hend
  rcases hend with ((((((((rfl | rfl) | rfl) | rfl) | rfl) | rfl) | rfl) | rfl) | rfl) | rfl <;>
    exact absurd h (by decide)

/-- The digits of a number are printable. -/
theorem isPrintable_digitChar {n : Nat} (h : n < 16) :
    Unicode.isPrintable (Nat.digitChar n) = true := by
  interval_cases n <;> decide

/-- A code point written by its number consists of printable characters. -/
theorem isPrintable_numeric (n : Nat) : ∀ c ∈ numeric n, Unicode.isPrintable c = true := by
  have hdigits : ∀ count, ∀ c ∈ hexadecimal count n, Unicode.isPrintable c = true := by
    intro count c hc
    obtain ⟨i, -, rfl⟩ := List.mem_map.mp hc
    exact isPrintable_digitChar (Nat.mod_lt _ (by decide))
  have hletter : ∀ {letter : Char} {count : Nat}, Unicode.isPrintable letter = true →
      ∀ c ∈ '\\' :: letter :: hexadecimal count n, Unicode.isPrintable c = true := by
    intro letter count h
    exact List.forall_mem_cons.mpr ⟨by decide, List.forall_mem_cons.mpr ⟨h, hdigits count⟩⟩
  unfold numeric
  split
  · exact hletter (by decide)
  · split
    · exact hletter (by decide)
    · exact hletter (by decide)

/-- A code point is written in printable characters. -/
theorem isPrintable_encodeOne {quote : Char} (hq : Unicode.isPrintable quote = true)
    (p : CodePoint) : ∀ c ∈ encodeOne quote p, Unicode.isPrintable c = true := by
  have hescape : ∀ {letter : Char}, Unicode.isPrintable letter = true →
      ∀ c ∈ ['\\', letter], Unicode.isPrintable c = true := by
    intro letter h
    exact List.forall_mem_cons.mpr ⟨by decide, List.forall_mem_singleton.mpr h⟩
  cases p with
  | surrogate offset => exact isPrintable_numeric _
  | char c =>
    simp only [encodeOne]
    split_ifs with hspecial hn hr ht hprintable
    · rcases hspecial with rfl | rfl
      · exact hescape hq
      · exact hescape (by decide)
    · exact hescape (by decide)
    · exact hescape (by decide)
    · exact hescape (by decide)
    · exact List.forall_mem_singleton.mpr hprintable
    · exact isPrintable_numeric _

/-- The written form of a text consists of printable characters. -/
theorem isPrintable_encode (text : Text) : ∀ c ∈ encode text, Unicode.isPrintable c = true := by
  have hquote : Unicode.isPrintable (delimiter text) = true := by
    rcases delimiter_eq text with h | h <;> rw [h] <;> decide
  intro c hc
  rw [encode, List.cons_append, List.mem_cons, List.mem_append, List.mem_flatMap,
    List.mem_singleton] at hc
  rcases hc with rfl | ⟨p, -, hc⟩ | rfl
  · exact hquote
  · exact isPrintable_encodeOne hquote p c hc
  · exact hquote

/-- **The written form of a text is a literal for it.** -/
theorem isLiteral_encode (text : Text) : IsLiteral (encode text) text where
  printable := isPrintable_encode text
  line := fun c hc => isLineEnd_of_isPrintable (isPrintable_encode text c hc)
  read := fun _ hbehind => read?_encode text hbehind

end Quoted

namespace Emission

/-! ### Lines with literals -/

/-- Whether a line consists of a beginning, a literal for a text, and something that is no quote. -/
def HoldsLiteral (beginning : String) (text : Text) (line : String) : Prop :=
  ∃ written behind : List Char, line.toList = beginning.toList ++ (written ++ behind) ∧
    Quoted.IsLiteral written text ∧ ∀ c ∈ behind.head?, c ≠ '\'' ∧ c ≠ '"'

/-- The line that is written for a message: the literal for its template stands first, and the rest
is a call or nothing. -/
theorem holdsLiteral_message (beginning : String) (m : Descriptor.Message) :
    HoldsLiteral beginning m.template (beginning ++ (message m ++ ")")) := by
  have hliteral := Quoted.isLiteral_encode m.template
  by_cases hplain : (m.arguments.isEmpty && isPlain m.template) = true
  · refine ⟨_, [')'], ?_, hliteral, by simp⟩
    simp [message, hplain, Text.quoted]
  · refine ⟨_, callMark ++
      (", ".intercalate (m.arguments.map Descriptor.Argument.expression)).toList ++ [')', ')'], ?_,
      hliteral, by simp [callMark]⟩
    simp [message, hplain, Text.quoted, callMark]

/-- A line that is not empty is indented by four blanks. -/
theorem indent_line {line : String} (h : line ≠ "") (lines : Lines) :
    indent (line :: lines) = ("    " ++ line) :: indent lines := by
  rw [indent, List.map_cons, if_neg h]
  rfl

/-- A line is not empty if its beginning is not. -/
theorem append_ne_empty {beginning : String} (h : beginning ≠ "") (line : String) :
    beginning ++ line ≠ "" := by
  intro hempty
  have hchars := congrArg String.toList hempty
  rw [String.toList_append, String.toList_empty, List.append_eq_nil_iff,
    String.toList_eq_nil_iff] at hchars
  exact h hchars.1

/-- Statements of a method stand eight blanks deep in a class. -/
theorem indent_indent {lines : Lines} (h : ∀ line ∈ lines, line ≠ "") :
    indent (indent lines) = lines.map ("        " ++ ·) := by
  have hdepth : "    " ++ "    " = "        " := by decide
  induction lines with
  | nil => rfl
  | cons line lines ih =>
    obtain ⟨hline, hlines⟩ := List.forall_mem_cons.mp h
    rw [indent_line hline, indent_line (append_ne_empty (by decide) _), ih hlines,
      ← String.append_assoc, hdepth, List.map_cons]

/-- Lines that stand in others stand in them when all are indented. -/
theorem indent_within {lines block : Lines} (h : lines <:+: block) :
    indent lines <:+: indent block :=
  h.map _

/-! ### The literals of a variant -/

/-- The three lines that put a help text among those of an error. -/
def adviceLines (line : String) : Lines :=
  ["        _eg_msg.append(\"Help: \")", line, "        _eg_msg.append(\"\\n\")"]

/-- The lines in the class of a variant that hold the literals of its messages. -/
structure WritesLiterals (v : Descriptor.Variant) (block : Lines) : Prop where
  /-- The second line is the literal for the decoded literal of the first message. -/
  description : ∃ heading line rest first others, block = heading :: line :: rest ∧
    v.messages = first :: others ∧
    ∃ written, line.toList = "    ".toList ++ written ∧ Quoted.IsLiteral written first.literal
  /-- The messages are shown one after the other, each in a line with the literal for its template.
  -/
  messages : ∃ lines, lines <:+: block ∧
    List.Forall₂ (fun m line => HoldsLiteral "        _eg_out.append(" m.template line)
      v.messages lines
  /-- So are the help texts, each in the middle of three lines. -/
  helps : ∃ lines, lines.flatMap adviceLines <:+: block ∧
    List.Forall₂ (fun m line => HoldsLiteral "        _eg_msg.append(" m.template line)
      v.helps lines

/-- The lines for messages hold the literals for their templates. -/
theorem forall₂_holdsLiteral (beginning : String) (ms : List Descriptor.Message) :
    List.Forall₂ (fun m line => HoldsLiteral beginning m.template line) ms
      (ms.map fun m => beginning ++ (message m ++ ")")) :=
  List.forall₂_map_right_iff.mpr
    (List.forall₂_same.mpr fun m _ => holdsLiteral_message beginning m)

/-- Statements in the body of a method stand in the class as they are, eight blanks deep. -/
theorem statements_within {lines body : Lines} {heading : String}
    (hlines : ∀ line ∈ lines, line ≠ "") (hbody : lines <:+: body) (hheading : heading ≠ "") :
    lines.map ("        " ++ ·) <:+: indent (heading :: indent body) := by
  rw [← indent_indent hlines, indent_line hheading]
  exact (indent_within (indent_within hbody)).trans (List.suffix_cons _ _).isInfix

/-- The statements that show the messages, in the class of a variant. -/
theorem messages_within_renderMethod (v : Descriptor.Variant) :
    (v.messages.map fun m => "        _eg_out.append(" ++ (message m ++ ")")) <:+:
      indent (renderMethod v) := by
  have hstatements : (v.messages.map fun m => "_eg_out.append(" ++ message m ++ ")") <:+:
      fieldBindings v ++ (v.messages.map fun m => "_eg_out.append(" ++ message m ++ ")") ++
        (if v.location?.isSome then ["_eg_out.append(\" (at \x7b\x7d)\".format(location))"]
          else []) ++ ["_eg_out.append(\"\\n\")"] := by
    rw [List.append_assoc]
    exact ⟨_, _, rfl⟩
  have hne : ∀ line ∈ v.messages.map fun m => "_eg_out.append(" ++ message m ++ ")", line ≠ "" := by
    intro line hline
    obtain ⟨m, -, rfl⟩ := List.mem_map.mp hline
    exact append_ne_empty (append_ne_empty (by decide) _) _
  have hwithin : _ <:+: indent (renderMethod v) := statements_within hne hstatements (by decide)
  have hdepth : "        " ++ "_eg_out.append(" = "        _eg_out.append(" := by decide
  rw [List.map_map] at hwithin
  refine Eq.mp (congrArg (· <:+: _) (List.map_congr_left fun m _ => ?_)) hwithin
  rw [Function.comp_apply, String.append_assoc, ← String.append_assoc, hdepth]

/-- The statements that show the help texts, in the class of a variant. -/
theorem helps_within_helpMethod (v : Descriptor.Variant) :
    (v.helps.map fun m => "        _eg_msg.append(" ++ (message m ++ ")")).flatMap adviceLines <:+:
      indent (helpMethod v) := by
  have hstatements : (v.helps.flatMap fun m => ["_eg_msg.append(\"Help: \")",
        "_eg_msg.append(" ++ message m ++ ")", "_eg_msg.append(\"\\n\")"]) <:+:
      fieldBindings v ++ ["_eg_msg: list[str] = []"] ++
        (v.helps.flatMap fun m => ["_eg_msg.append(\"Help: \")",
          "_eg_msg.append(" ++ message m ++ ")", "_eg_msg.append(\"\\n\")"]) ++
        ["return _eg_rt.Help(\"\".join(_eg_msg))"] := ⟨_, _, rfl⟩
  have hne : ∀ line ∈ v.helps.flatMap fun m => ["_eg_msg.append(\"Help: \")",
      "_eg_msg.append(" ++ message m ++ ")", "_eg_msg.append(\"\\n\")"], line ≠ "" := by
    intro line hline
    obtain ⟨m, -, hline⟩ := List.mem_flatMap.mp hline
    simp only [List.mem_cons, List.not_mem_nil, or_false] at hline
    rcases hline with rfl | rfl | rfl
    · decide
    · exact append_ne_empty (append_ne_empty (by decide) _) _
    · decide
  have hwithin : _ <:+: indent (helpMethod v) := statements_within hne hstatements (by decide)
  have hdepth : "        " ++ "_eg_msg.append(" = "        _eg_msg.append(" := by decide
  rw [List.map_flatMap] at hwithin
  rw [List.flatMap_map]
  refine Eq.mp (congrArg (· <:+: _) (List.flatMap_congr fun m _ => ?_)) hwithin
  have hline : "        " ++ ("_eg_msg.append(" ++ (message m ++ ")")) =
      "        _eg_msg.append(" ++ (message m ++ ")") := by
    rw [← String.append_assoc, hdepth]
  rw [List.map_cons, List.map_cons, List.map_cons, List.map_nil, String.append_assoc, hline]
  rfl

/-- What the class of a variant consists of. -/
theorem exists_variantClass_eq {v : Descriptor.Variant} {block : Lines}
    (h : variantClass v = .ok block) :
    ∃ first others heading init, v.messages = first :: others ∧
      block = heading :: ("    " ++ first.literal.quoted) ::
        indent (init ++ "" :: renderMethod v ++
          (extraMethods v).flatMap fun lines => "" :: lines) := by
  unfold variantClass at h
  split at h
  · next first others hmessages =>
    split at h
    · cases h
      exact ⟨first, others, _, _, hmessages, rfl⟩
    · obtain ⟨init, -, h⟩ := Outcome.bind_eq_ok_iff.mp h
      cases h
      exact ⟨first, others, _, _, hmessages, rfl⟩
  · cases h

/-- **The class of a variant holds the literals of its messages.** -/
theorem variantClass_writesLiterals {v : Descriptor.Variant} {block : Lines}
    (h : variantClass v = .ok block) : WritesLiterals v block := by
  obtain ⟨first, others, heading, init, hmessages, rfl⟩ := exists_variantClass_eq h
  have hbody : ∀ {lines body : Lines}, lines <:+: indent body →
      body <:+: init ++ "" :: renderMethod v ++
        (extraMethods v).flatMap (fun lines => "" :: lines) →
      lines <:+: heading :: ("    " ++ first.literal.quoted) ::
        indent (init ++ "" :: renderMethod v ++
          (extraMethods v).flatMap fun lines => "" :: lines) := by
    intro lines body hlines hbody
    exact (hlines.trans (indent_within hbody)).trans
      ((List.suffix_cons _ _).trans (List.suffix_cons _ _)).isInfix
  refine ⟨?_, ?_, ?_⟩
  · refine ⟨_, _, _, first, others, rfl, hmessages, _, ?_, Quoted.isLiteral_encode first.literal⟩
    rw [String.toList_append, Text.quoted]
    exact congrArg _ String.toList_ofList
  · refine ⟨_, hbody (messages_within_renderMethod v) ?_, forall₂_holdsLiteral _ _⟩
    have hmethod : renderMethod v <:+: init ++ "" :: renderMethod v :=
      ((List.suffix_cons _ _).trans (List.suffix_append _ _)).isInfix
    exact hmethod.trans (List.prefix_append _ _).isInfix
  · refine ⟨_, ?_, forall₂_holdsLiteral _ _⟩
    by_cases hhelps : v.helps = []
    · rw [hhelps]
      exact List.nil_infix
    · refine hbody (helps_within_helpMethod v) (List.IsInfix.trans ?_
        (List.suffix_append _ _).isInfix)
      have hextra : (extraMethods v).flatMap (fun lines => "" :: lines) =
          (if v.source?.isSome then [causeMethod] else []).flatMap (fun lines => "" :: lines) ++
            [""] ++ helpMethod v ++ "" :: provideMethod := by
        have hempty : v.helps.isEmpty = false := by simpa using hhelps
        rw [extraMethods, hempty, List.flatMap_append]
        simp
      rw [hextra]
      exact ⟨_, _, rfl⟩

end Emission

/-! ### Where messages come from -/

namespace Descriptor

variable [Expression.Capacity]

/-- Whether a message was compiled from the literal of an attribute, as what the literal is decoded
to. -/
def Message.IsCompiledFrom (strict : Bool) (a : Syntax.Attribute) (m : Message) : Prop :=
  ∃ token decoded, a.literal = some token ∧
    Escape.decode (token.text.drop 1).dropLast = .ok decoded ∧
    compileLiteral strict token = .ok m ∧ m.literal = decoded.text

/-- Whether the messages of a variant were compiled from the attributes of a declared variant, one
after the other. -/
structure Variant.IsCompiledFrom (strict : Bool) (v : Syntax.Variant) (w : Variant) : Prop where
  /-- Its messages come from those attributes that say what is wrong. -/
  messages : List.Forall₂ (Message.IsCompiledFrom strict)
    (v.attributes.filter fun a => a.name = "error") w.messages
  /-- Its help texts come from those that say what helps. -/
  helps : List.Forall₂ (Message.IsCompiledFrom strict)
    (v.attributes.filter fun a => a.name = "help") w.helps

/-- The literal of a compiled message is what the literal in the source is decoded to. -/
theorem exists_decode_of_compileLiteral {strict : Bool} {token : Syntax.Token} {m : Message}
    (h : compileLiteral strict token = .ok m) :
    ∃ decoded, Escape.decode (token.text.drop 1).dropLast = .ok decoded ∧
      m.literal = decoded.text := by
  unfold compileLiteral at h
  dsimp only at h
  split at h
  · cases h
  · next decoded hdecoded =>
    split at h
    · cases h
    · obtain ⟨arguments, -, h⟩ := Outcome.bind_eq_ok_iff.mp h
      cases h
      exact ⟨decoded, hdecoded, rfl⟩

/-- The message of an attribute is compiled from its literal. -/
theorem makes_message_compiled (strict : Bool) (a : Syntax.Attribute) :
    Makes (Message.IsCompiledFrom strict a) (message strict a) := by
  unfold message
  split
  · exact makes_refuse _ _
  · next token htoken =>
    cases hmade : compileLiteral strict token with
    | error e => exact makes_throw e
    | ok m =>
      obtain ⟨decoded, hdecoded, hliteral⟩ := exists_decode_of_compileLiteral hmade
      exact makes_pure ⟨token, decoded, htoken, hdecoded, hmade, hliteral⟩

/-- The messages of attributes are compiled from them, one after the other. -/
theorem makes_messages_compiled (strict : Bool) (as : List Syntax.Attribute) :
    Makes (fun ms =>
        List.Forall₂ (Message.IsCompiledFrom strict) (as.filter fun a => a.name = "error") ms.1 ∧
        List.Forall₂ (Message.IsCompiledFrom strict) (as.filter fun a => a.name = "help") ms.2)
      (messages strict as) := by
  induction as with
  | nil => exact makes_pure ⟨List.Forall₂.nil, List.Forall₂.nil⟩
  | cons a rest ih =>
    unfold messages
    split
    · next herror =>
      have hhelp : a.name ≠ "help" := by
        rw [herror]
        decide
      refine (makes_message_compiled strict a).bind fun m hm => ih.bind fun ms hms =>
        makes_pure ?_
      rw [List.filter_cons_of_pos (by simpa using herror),
        List.filter_cons_of_neg (by simpa using hhelp)]
      exact ⟨hms.1.cons hm, hms.2⟩
    · next herror =>
      rw [List.filter_cons_of_neg (by simpa using herror)]
      split
      · next hhelp =>
        refine (makes_message_compiled strict a).bind fun m hm => ih.bind fun ms hms =>
          makes_pure ?_
        rw [List.filter_cons_of_pos (by simpa using hhelp)]
        exact ⟨hms.1, hms.2.cons hm⟩
      · next hhelp =>
        rw [List.filter_cons_of_neg (by simpa using hhelp)]
        exact (yields_noteUnknown a).makes.bind fun _ _ => ih

/-- A described variant is compiled from what was declared. -/
theorem makes_variant_compiled (strict : Bool) (enumeration : String) (v : Syntax.Variant) :
    Makes (Variant.IsCompiledFrom strict v) (variant strict enumeration v) := by
  unfold variant
  dsimp only
  refine (makes_checkName _ _ _).bind fun _ _ => ?_
  refine (makes_messages_compiled strict v.attributes).bind fun ms hms => ?_
  obtain ⟨errors, helps⟩ := ms
  dsimp only
  -- what is left changes neither the messages nor the help texts
  have hdescribed : ∀ declared : List Field, Makes (Variant.IsCompiledFrom strict v)
      ((errors ++ helps).forM (noteNonFields ⟨enumeration, String.ofList v.name.text, errors,
          helps, declared, v.span, v.name.span⟩) >>= fun _ =>
        pure ⟨enumeration, String.ofList v.name.text, errors, helps, declared, v.span,
          v.name.span⟩) := by
    intro declared
    refine (yields_forM (fun m : Message => yields_forM (fun a => ?_) m.arguments) _).makes.bind
      fun _ _ => makes_pure ⟨hms.1, hms.2⟩
    split
    · exact yields_note _ _
    · exact yields_pure trivial
  split
  · exact makes_refuse _ _
  · split
    · exact hdescribed []
    · exact makes_refuse _ _
    · exact makes_refuse _ _
    · exact (yields_fields _ (by simp) _).makes.bind fun declared _ => hdescribed declared

/-- **The messages in a described file** are compiled from the literals in its items. -/
theorem exists_isCompiledFrom {strict : Bool} {items : List Syntax.Item} {d : Descriptor}
    {findings : List Finding} (h : describe strict items = .ok ⟨d, findings⟩) {e : Enumeration}
    (he : e ∈ d.enumerations) {w : Variant} (hw : w ∈ e.variants) :
    ∃ declaration vs, .declaration declaration ∈ items ∧ declaration.body = .variants vs ∧
      ∃ v ∈ vs, w.IsCompiledFrom strict v := by
  obtain ⟨declaration, hitem, hmade⟩ := (describe_origin h).2 e he
  obtain ⟨-, isTopLevel, ws, -, hws, rfl⟩ := enumeration_eq_ok_iff.mp hmade
  unfold declared at hws
  split at hws
  · cases hws
  · cases hws
    cases hw
  · next vs hbody =>
    have hcompiled : Makes (fun ws : List Variant =>
        (∀ w ∈ ws, ∃ v ∈ vs, w.IsCompiledFrom strict v) ∧ (ws.map Variant.name).Nodup)
        (variants strict (String.ofList declaration.name.text) [] vs) :=
      makes_variants strict _ (by simp) (by simp) fun v hv =>
        (makes_variant_compiled strict _ v).mono fun w hw => ⟨v, hv, hw⟩
    exact ⟨declaration, vs, hitem, hbody, (hcompiled.holds ws hws).1 w hw⟩

end Descriptor

/-! ### Modules -/

/-- **The literals of a module** are printable, stand in a line each, and are read as what they were
written for: the description of a class as the decoded literal of the first message of its variant,
and the literal that shows a message, or a help text, as the template of that. The messages are
those that the attributes of the variant give, in their order. -/
theorem compile_writes_literals [Expression.Capacity]
    {options : CompileOptions} {source filename : String}
    {c : Compilation} (h : compile options source filename = .ok c)
    (hclean : c.report.hasErrors = false) :
    ∃ items d blocks, c.IsModuleOf options source filename items d blocks ∧
      ∀ e ∈ d.enumerations, ∀ w ∈ e.variants,
        (∃ block ∈ blocks, Emission.variantClass w = .ok block ∧
          Emission.WritesLiterals w block) ∧
        ∃ declaration vs, .declaration declaration ∈ items ∧ declaration.body = .variants vs ∧
          ∃ v ∈ vs, w.IsCompiledFrom options.strictPlaceholders v := by
  obtain ⟨items, d, blocks, hmodule⟩ := exists_isModuleOf h hclean
  obtain ⟨findings, hdescribed⟩ := hmodule.described
  refine ⟨items, d, blocks, hmodule, fun e he w hw => ⟨?_, ?_⟩⟩
  · obtain ⟨block, hblock, hclass⟩ :=
      Emission.exists_mem_blocks_variantClass hmodule.written he hw
    exact ⟨block, hblock, hclass, Emission.variantClass_writesLiterals hclass⟩
  · exact Descriptor.exists_isCompiledFrom hdescribed he hw

/-- A message with both quotes, a backslash, the end of a line and a surrogate. -/
theorem compile_writes_literals_surrogate :
    ∃ c items d blocks,
      compile {} "enum E \x7b #[error = \"it's \\\"\\\\\\n\\ud800\"] V \x7d" "<input>" = .ok c ∧
        c.report.hasErrors = false ∧
        c.IsModuleOf {} "enum E \x7b #[error = \"it's \\\"\\\\\\n\\ud800\"] V \x7d" "<input>"
          items d blocks ∧
        ∃ e ∈ d.enumerations, ∃ w ∈ e.variants, ∃ block ∈ blocks, Emission.WritesLiterals w block ∧
          w.messages.map Descriptor.Message.literal =
            [Text.ofString "it's \"\\\n" ++ [.surrogate 0]] := by
  have hrun : ((compile {} "enum E \x7b #[error = \"it's \\\"\\\\\\n\\ud800\"] V \x7d"
      "<input>").toOption.any fun c => !c.report.hasErrors && c.descriptor.any fun d =>
        d.enumerations.any fun e => e.variants.any fun w =>
          w.messages.map Descriptor.Message.literal =
            [Text.ofString "it's \"\\\n" ++ [.surrogate 0]]) = true := by
    decide +kernel
  obtain ⟨c, hc, hrun⟩ := (Option.any_eq_true _ _).mp hrun
  rw [Outcome.toOption_eq_some_iff] at hc
  obtain ⟨hclean, hdescribed⟩ := Bool.and_eq_true_iff.mp hrun
  have hclean : c.report.hasErrors = false := by simpa using hclean
  obtain ⟨items, d, blocks, hmodule, hwrites⟩ := compile_writes_literals hc hclean
  rw [hmodule.held, Option.any_some] at hdescribed
  obtain ⟨e, he, hvariants⟩ := List.any_eq_true.mp hdescribed
  obtain ⟨w, hw, hliteral⟩ := List.any_eq_true.mp hvariants
  obtain ⟨⟨block, hblock, -, hwritten⟩, -⟩ := hwrites e he w hw
  exact ⟨c, items, d, blocks, hc, hclean, hmodule, e, he, w, hw, block, hblock, hwritten,
    of_decide_eq_true hliteral⟩

end Errata
