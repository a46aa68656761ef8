import Errata.Proofs.Message.Reading

/-!
# Placeholders that are shown as they are

Outside strict mode a placeholder without an argument stands for its own text. It is put between
doubled braces, so that the template shows it as text. What is put there is the conversion and the
specification. A line break that is dropped with the conversion is missing from it, and an opening
brace in the specification is read once more by the template. Every other placeholder without an
argument is shown character by character and takes no value.

* `IsEmptyPlaceholder`: a placeholder without an argument, with what stands before and behind it.
* `segments_append`: a literal in two parts is cut part by part.
* **`compile_shows_iff`**: which placeholders without an argument are shown as they are, and what a
  message with one of these says.
* `not_compile_shows`: the line break behind a conversion.
-/

namespace Errata.Placeholder

open Outcome
open Template (Item fields items fillItems)

/-! ### Literals in two parts -/

/-- A list is split in one way before the first occurrence of an element. -/
theorem eq_of_append_cons {α : Type} [DecidableEq α] {x : α} {front front' back back' : List α}
    (h : front ++ x :: back = front' ++ x :: back') (hfront : x ∉ front) (hfront' : x ∉ front') :
    front = front' ∧ back = back' := by
  have hsplit := splitAtFirst_eq_some_iff.mpr ⟨h, hfront'⟩
  rw [splitAtFirst_eq_some_iff.mpr ⟨rfl, hfront⟩] at hsplit
  simpa using hsplit

/-- What follows a placeholder starts with no closing brace if neither part of it does. -/
theorem head?_append_ne {after rest : Text} (hafter : after.head? ≠ some (.char '}'))
    (hrest : rest.head? ≠ some (.char '}')) : (after ++ rest).head? ≠ some (.char '}') := by
  cases after with
  | nil => exact hrest
  | cons c after => exact hafter

/-- The first brace that closes in a text is the first one whatever follows. -/
theorem splitAtFirst_append {text inner after : Text}
    (h : splitAtFirst (.char '}') text = some (inner, after)) (rest : Text) :
    splitAtFirst (.char '}') (text ++ rest) = some (inner, after ++ rest) := by
  obtain ⟨rfl, hinner⟩ := splitAtFirst_eq_some_iff.mp h
  exact splitAtFirst_eq_some_iff.mpr ⟨by simp, hinner⟩

/-- Behind a brace that opens a placeholder no brace opens, whatever follows. -/
theorem append_ne_open {text inner after : Text}
    (h : splitAtFirst (.char '}') text = some (inner, after))
    (hopen : ∀ more, text = .char '{' :: more → False) (rest : Text) :
    ∀ more, text ++ rest = .char '{' :: more → False := by
  obtain ⟨rfl, -⟩ := splitAtFirst_eq_some_iff.mp h
  intro more heq
  cases inner with
  | nil => simp at heq
  | cons c inner => exact hopen _ (by rw [List.cons_append, (List.cons.inj heq).1])

/-- **A literal in two parts is cut part by part**, if the second does not start with a closing
brace, which a placeholder at the end of the first would take along. -/
theorem segments_append {strict : Bool} {offset : Nat} {first rest : Text} {segs : List Segment}
    (h : segments strict offset first = .ok segs) (hrest : rest.head? ≠ some (.char '}')) :
    segments strict offset (first ++ rest) =
      (segments strict (offset + first.length) rest).map (segs ++ ·) := by
  -- the first segment is the same, and it is put in front of what the induction gives
  have hcons : ∀ {s : Segment} {more : List Segment} {n k : Nat} {tail : Text},
      n + tail.length = k →
      segments strict n (tail ++ rest) =
        (segments strict (n + tail.length) rest).map (more ++ ·) →
      (segments strict n (tail ++ rest)).map (s :: ·) =
        (segments strict k rest).map (s :: more ++ ·) := by
    rintro s more n k tail rfl htail
    rw [htail]
    cases segments strict (n + tail.length) rest <;> rfl
  fun_induction segments strict offset first generalizing segs with
  | case1 offset =>
    cases h
    cases hs : segments strict offset rest <;> simp [hs, Except.map]
  | case2 offset first ih =>
    obtain ⟨more, hmore, rfl⟩ := cons_eq_ok_iff.mp h
    rw [List.cons_append, List.cons_append, segments_brace]
    refine hcons ?_ (ih hmore)
    simp only [List.length_cons]
    omega
  | case3 => cases h
  | case4 offset first hopen inner after hs _ next hclose =>
    rename_i ih
    obtain ⟨more, hmore, rfl⟩ := cons_eq_ok_iff.mp h
    obtain ⟨tail, rfl⟩ := List.head?_eq_some_iff.mp hclose
    rw [List.cons_append, segments_swallowed (append_ne_open hs hopen rest)
      (splitAtFirst_append hs rest)]
    refine hcons ?_ (ih hmore)
    obtain ⟨rfl, -⟩ := splitAtFirst_eq_some_iff.mp hs
    simp only [List.length_cons, List.length_append]
    omega
  | case5 => cases h
  | case6 offset first hopen inner after hs _ next hclose format hparts hstrict =>
    rename_i ih
    obtain ⟨more, hmore, rfl⟩ := cons_eq_ok_iff.mp h
    rw [List.cons_append, segments_placeholder
      (head?_ne_of_forall (append_ne_open hs hopen rest)) (splitAtFirst_append hs rest)
      (head?_append_ne hclose hrest), hparts, if_pos rfl, if_neg hstrict]
    refine hcons ?_ (ih hmore)
    obtain ⟨rfl, -⟩ := splitAtFirst_eq_some_iff.mp hs
    simp only [List.length_cons, List.length_append]
    omega
  | case7 offset first hopen inner after hs _ next hclose argument format hargument hparts =>
    rename_i ih
    obtain ⟨more, hmore, rfl⟩ := cons_eq_ok_iff.mp h
    rw [List.cons_append, segments_placeholder
      (head?_ne_of_forall (append_ne_open hs hopen rest)) (splitAtFirst_append hs rest)
      (head?_append_ne hclose hrest), hparts, if_neg hargument]
    refine hcons ?_ (ih hmore)
    obtain ⟨rfl, -⟩ := splitAtFirst_eq_some_iff.mp hs
    simp only [List.length_cons, List.length_append]
    omega
  | case8 offset c first hbrace hc ih =>
    obtain ⟨more, hmore, rfl⟩ := cons_eq_ok_iff.mp h
    rw [List.cons_append, segments_plain hc]
    refine hcons ?_ (ih hmore)
    simp only [List.length_cons]
    omega

/-! ### Placeholders without an argument -/

/-- A placeholder as it is written. -/
def written (inner : Text) : Text :=
  .char '{' :: inner ++ [.char '}']

/-- What the template has for a placeholder without an argument. -/
def formatOf (inner : Text) : Text :=
  conversionText inner ++ fromColon inner

/-- Whether a literal is cut into what stands before a placeholder without an argument, the
placeholder, behind which no brace closes, and what stands behind it. -/
structure IsEmptyPlaceholder (literal before inner after : Text) (front : List Segment) : Prop where
  /-- What stands before it, what it is and what stands behind it. -/
  split : literal = before ++ (written inner ++ after)
  /-- The segments before it. -/
  segments_before : segments false 0 before = .ok front
  /-- It does not start with a doubled brace. -/
  head_ne : inner.head? ≠ some (.char '{')
  /-- It reaches up to the first closing brace. -/
  notMem : .char '}' ∉ inner
  /-- It has no argument. -/
  argument_eq : argumentText inner = []
  /-- No other brace closes right behind it. -/
  head_after_ne : after.head? ≠ some (.char '}')

/-- A placeholder without an argument is a segment that is shown. -/
theorem IsEmptyPlaceholder.exists_segments {literal before inner after : Text}
    {front segs : List Segment} (h : IsEmptyPlaceholder literal before inner after front)
    (hsegs : segments false 0 literal = .ok segs) :
    ∃ back, segments false (before.length + inner.length + 2) after = .ok back ∧
      segs = front ++ .shown (formatOf inner) :: back := by
  have hwritten : written inner ++ after = .char '{' :: (inner ++ .char '}' :: after) := by
    simp [written]
  have hopen : (inner ++ .char '}' :: after).head? ≠ some (.char '{') := by
    cases inner with
    | nil => simp
    | cons c inner => exact h.head_ne
  have hsplit := splitAtFirst_eq_some_iff.mpr
    ⟨(rfl : inner ++ .char '}' :: after = _), h.notMem⟩
  rw [h.split, hwritten, segments_append h.segments_before (by simp),
    segments_placeholder hopen hsplit h.head_after_ne, parts_eq, if_pos h.argument_eq,
    if_neg Bool.false_ne_true, Nat.zero_add] at hsegs
  obtain ⟨rest, hrest, rfl⟩ := map_eq_ok_iff.mp hsegs
  obtain ⟨back, hback, rfl⟩ := map_eq_ok_iff.mp hrest
  exact ⟨back, hback, rfl⟩

/-- Without an argument, what stands before the colon is the conversion, and perhaps a line break
behind it. -/
theorem beforeColon_eq {inner : Text} (h : argumentText inner = []) :
    beforeColon inner = conversionText inner ∧ .char '\n' ∉ beforeColon inner ∨
      beforeColon inner = conversionText inner ++ [.char '\n'] := by
  unfold argumentText at h
  unfold conversionText
  generalize beforeColon inner = w at h
  unfold splitConversion at h ⊢
  split at h
  · next c rest hw =>
    split at h
    · next hc =>
      obtain rfl := List.reverse_eq_nil_iff.mp h
      obtain rfl := List.reverse_eq_iff.mp hw
      exact Or.inr (by simp [hc])
    · subst h
      cases hw
  · next c rest hbreak hw =>
    split at h
    · next hc =>
      obtain rfl := List.reverse_eq_nil_iff.mp h
      obtain rfl := List.reverse_eq_iff.mp hw
      have hne : c ≠ .char '\n' := by
        rintro rfl
        cases hc
      refine Or.inl ?_
      simp [hc, Ne.symm hne]
    · subst h
      cases hw
  · subst h
    exact Or.inl (by simp)

/-! ### What is shown for them -/

/-- Making doubled braces single makes a text no longer. -/
theorem length_undoubled_le (text : Text) : (undoubled text).length ≤ text.length := by
  fun_induction undoubled text <;> simp_all
  omega

/-- Making doubled braces single makes a text shorter if there are any. -/
theorem length_undoubled_lt {text : Text} (hlone : hasLoneOpen text = false)
    (h : .char '{' ∈ text) : (undoubled text).length < text.length := by
  fun_induction hasLoneOpen text with
  | case1 text ih =>
    have hle := length_undoubled_le text
    simp only [undoubled, List.length_cons]
    omega
  | case2 => cases hlone
  | case3 c text hdoubled hopen ih =>
    have hc : c ≠ .char '{' := fun hc => hopen hc
    have hmem : .char '{' ∈ text := by simpa [Ne.symm hc] using h
    rw [undoubled]
    · simpa using ih hlone hmem
    · exact fun _ heq => absurd heq hc
  | case4 => cases h

/-- Whether a placeholder without an argument is shown as it is: no brace opens in it, and no line
break is dropped with its conversion. -/
def IsVerbatim (inner : Text) : Prop :=
  .char '{' ∉ inner ∧ .char '\n' ∉ beforeColon inner

/-- The text of a placeholder whose opening braces are doubled is its own if it has none, and
no line break is dropped. -/
theorem undoubled_eq_iff {inner : Text} (hargument : argumentText inner = [])
    (hlone : hasLoneOpen (formatOf inner) = false) :
    undoubled (formatOf inner) = inner ↔ IsVerbatim inner := by
  have hsplit : beforeColon inner ++ fromColon inner = inner := List.takeWhile_append_dropWhile
  constructor
  · intro h
    have hle := length_undoubled_le (formatOf inner)
    rcases beforeColon_eq hargument with ⟨hbefore, hbreak⟩ | hbreak
    · have heq : formatOf inner = inner := by rw [formatOf, ← hbefore, hsplit]
      refine ⟨fun hmem => ?_, hbreak⟩
      have hlt := length_undoubled_lt hlone (heq.symm ▸ hmem)
      rw [h, heq] at hlt
      exact absurd hlt (Nat.lt_irrefl _)
    · have hlength := congrArg List.length hsplit
      rw [hbreak, List.length_append, List.length_append, List.length_singleton] at hlength
      rw [h, formatOf, List.length_append] at hle
      omega
  · rintro ⟨hopen, hbreak⟩
    rcases beforeColon_eq hargument with ⟨hbefore, -⟩ | hafter
    · have heq : formatOf inner = inner := by rw [formatOf, ← hbefore, hsplit]
      rw [heq]
      exact undoubled_of_not_mem hopen
    · exact absurd (by rw [hafter]; simp) hbreak

/-- A lone opening brace is read as a field, in front of any closing brace. -/
theorem exists_field_of_loneOpen {format rest : Text} {its : List Item} (hc : .char '}' ∉ format)
    (ho : hasLoneOpen format = true) (h : items (format ++ .char '}' :: rest) = .ok its) :
    ∃ (shown : Text) (field : Template.Field) (more : List Item),
      its = shown.map .text ++ .field field :: more ∧ .char '}' ∉ shown := by
  fun_induction hasLoneOpen format generalizing its with
  | case1 format ih =>
    simp only [List.mem_cons, not_or] at hc
    rw [List.cons_append, List.cons_append, Template.items_cons_open, map_eq_ok_iff] at h
    obtain ⟨its, h, rfl⟩ := h
    obtain ⟨shown, field, more, rfl, hshown⟩ := ih hc.2.2 ho h
    exact ⟨.char '{' :: shown, field, more, rfl, by simpa using hshown⟩
  | case2 format hdoubled =>
    have hhead : (format ++ .char '}' :: rest).head? ≠ some (.char '{') := by
      cases format with
      | nil => simp
      | cons c format => simpa using fun hbrace => hdoubled format (by rw [hbrace])
    rw [List.cons_append, Template.items_cons_field (by simp) hhead, bind_eq_ok_iff] at h
    obtain ⟨⟨field, after⟩, -, h⟩ := h
    obtain ⟨more, -, rfl⟩ := map_eq_ok_iff.mp h
    exact ⟨[], field, more, rfl, List.not_mem_nil⟩
  | case3 c format h1 h2 ih =>
    simp only [List.mem_cons, not_or] at hc
    have hopen : c ≠ .char '{' := fun h => h2 h
    rw [List.cons_append, Template.items_cons_plain hopen (Ne.symm hc.1), map_eq_ok_iff] at h
    obtain ⟨its, h, rfl⟩ := h
    obtain ⟨shown, field, more, rfl, hshown⟩ := ih hc.2 ho h
    exact ⟨c :: shown, field, more, rfl, by simpa [hc.1] using hshown⟩
  | case4 => simp at ho

/-- Making doubled braces single adds nothing. -/
theorem mem_of_mem_undoubled {c : CodePoint} {text : Text} (h : c ∈ undoubled text) : c ∈ text := by
  fun_induction undoubled text with
  | case1 text ih =>
    rcases List.mem_cons.mp h with rfl | h
    · exact List.mem_cons_self
    · exact List.mem_cons_of_mem _ (List.mem_cons_of_mem _ (ih h))
  | case2 d text _ ih =>
    rcases List.mem_cons.mp h with rfl | h
    · exact List.mem_cons_self
    · exact List.mem_cons_of_mem _ (ih h)
  | case3 => cases h

/-- What the template has for a placeholder without an argument stands in it. -/
theorem mem_of_mem_formatOf {inner : Text} (hargument : argumentText inner = []) {c : CodePoint}
    (h : c ∈ formatOf inner) : c ∈ inner := by
  have hsplit : beforeColon inner ++ fromColon inner = inner := List.takeWhile_append_dropWhile
  rw [← hsplit]
  rcases List.mem_append.mp h with h | h
  · refine List.mem_append_left _ ?_
    rcases beforeColon_eq hargument with ⟨heq, -⟩ | heq
    · rwa [heq]
    · rw [heq]
      exact List.mem_append_left _ h
  · exact List.mem_append_right _ h

/-- Text up to a closing brace is not text up to a field in front of any closing brace. -/
theorem text_append_ne_field {inner shown : Text} {field : Template.Field} {its more : List Item}
    (hshown : .char '}' ∉ shown) :
    inner.map .text ++ .text (.char '}') :: its ≠ shown.map .text ++ .field field :: more := by
  intro heq
  rcases List.append_eq_append_iff.mp heq with ⟨mid, hleft, hright⟩ | ⟨mid, hleft, hright⟩
  · cases mid with
    | nil => cases hright
    | cons item mid =>
      cases hright
      have hmem : Item.text (.char '}') ∈ shown.map Item.text := by simp [hleft]
      simp [hshown] at hmem
  · cases mid with
    | nil => cases hright
    | cons item mid =>
      cases hright
      have hmem : Item.field field ∈ inner.map Item.text := by simp [hleft]
      simp at hmem

/-- A placeholder as it is written is its text between two braces. -/
theorem map_written_append (inner : Text) (more : List Item) :
    (written inner).map .text ++ more =
      .text (.char '{') :: (inner.map .text ++ .text (.char '}') :: more) := by
  simp [written]

/-- Items start with one placeholder as it is written. -/
theorem eq_of_map_written_append {inner inner' : Text} {more more' : List Item}
    (hinner : .char '}' ∉ inner) (hinner' : .char '}' ∉ inner')
    (h : (written inner).map .text ++ more = (written inner').map .text ++ more') :
    inner = inner' := by
  rw [map_written_append, map_written_append] at h
  have hnot : ∀ text : Text, .char '}' ∉ text → Item.text (.char '}') ∉ text.map Item.text := by
    intro text htext hmem
    simp [htext] at hmem
  obtain ⟨hsame, -⟩ := eq_of_append_cons (List.cons.inj h).2 (hnot _ hinner) (hnot _ hinner')
  exact List.map_injective_iff.mpr (fun _ _ => Item.text.inj) hsame

/-- A format with a lone opening brace is read as no placeholder as it is written. -/
theorem ne_map_written_of_loneOpen {format rest : Text} {its : List Item}
    (hformat : .char '}' ∉ format) (hlone : hasLoneOpen format = true)
    (h : items (Segment.template (.shown format) ++ rest) = .ok its) (inner : Text)
    (more : List Item) : its ≠ (written inner).map .text ++ more := by
  have htemplate : Segment.template (.shown format) ++ rest =
      .char '{' :: .char '{' :: (format ++ .char '}' :: .char '}' :: rest) := by
    simp [Segment.template]
  rw [htemplate, Template.items_cons_open, map_eq_ok_iff] at h
  obtain ⟨tail, htail, rfl⟩ := h
  obtain ⟨shown, field, others, rfl, hshown⟩ := exists_field_of_loneOpen hformat hlone htail
  intro heq
  rw [map_written_append] at heq
  exact absurd (List.cons.inj heq).2.symm (text_append_ne_field hshown)

/-- **A placeholder without an argument is read as its own text** if it is verbatim, and then the
template behind it is read on its own. -/
theorem items_shown_iff {inner rest : Text} {its : List Item} (hclose : .char '}' ∉ inner)
    (hargument : argumentText inner = [])
    (h : items (Segment.template (.shown (formatOf inner)) ++ rest) = .ok its) :
    ((∃ more, its = (written inner).map .text ++ more) ↔ IsVerbatim inner) ∧
      (IsVerbatim inner →
        ∃ more, items rest = .ok more ∧ its = (written inner).map .text ++ more) := by
  have hformat : .char '}' ∉ formatOf inner := fun hmem =>
    hclose (mem_of_mem_formatOf hargument hmem)
  cases hlone : hasLoneOpen (formatOf inner) with
  | false =>
    rw [Segment.template, items_shown hformat hlone, map_eq_ok_iff] at h
    obtain ⟨more, hmore, rfl⟩ := h
    have hiff := undoubled_eq_iff hargument hlone
    refine ⟨⟨?_, fun hv => ⟨more, ?_⟩⟩, fun hv => ⟨more, hmore, ?_⟩⟩
    · rintro ⟨more', heq⟩
      exact hiff.mp (eq_of_map_written_append
        (fun hmem => hformat (mem_of_mem_undoubled hmem)) hclose heq)
    all_goals rw [hiff.mpr hv, written]
  | true =>
    have hopen : .char '{' ∈ inner := by
      refine mem_of_mem_formatOf hargument ?_
      by_contra hmem
      rw [hasLoneOpen_of_not_mem hmem] at hlone
      cases hlone
    refine ⟨⟨?_, fun hv => absurd hopen hv.1⟩, fun hv => absurd hopen hv.1⟩
    rintro ⟨more, heq⟩
    exact absurd heq (ne_map_written_of_loneOpen hformat hlone h inner more)

/-! ### Compiled messages -/

/-- **A placeholder without an argument is shown as it is** exactly if no brace opens in it and no
line break is dropped with its conversion, unless a brace opens in the format of a placeholder
before it. It then stands between what the expression emitted for the message says before it and
behind it, and takes no value. -/
theorem compile_shows_iff {literal before inner after : Text} {front : List Segment} {m : Message}
    (hm : compile false literal = .ok m)
    (h : IsEmptyPlaceholder literal before inner after front) (hfront : ∀ s ∈ front, s.InStep) :
    ∃ its back, readInStep false front = some its ∧
      segments false (before.length + inner.length + 2) after = .ok back ∧
      m.arguments = front.filterMap Segment.argument? ++ back.filterMap Segment.argument? ∧
      ((∃ more, items m.template = .ok (its ++ ((written inner).map .text ++ more))) ↔
        IsVerbatim inner) ∧
      (IsVerbatim inner → ∃ more, items (back.flatMap Segment.template) = .ok more ∧
        ∀ d : Descriptor.Message, d.template = m.template →
          ∀ {α ε : Type} (values : List α) (misfit : Template.Misfit α → ε)
            (format : α → Option Template.Conversion → Text → Except ε Text),
            (Emission.Form.read? (Emission.message d).toList).map
                (·.evaluate values misfit format) =
              some do
                let (shownBefore, numbering) ← fillItems values misfit format 1 .unused its
                let (shownAfter, _) ← fillItems values misfit format 1 numbering more
                return shownBefore ++ (written inner ++ shownAfter)) := by
  obtain ⟨segs, whole, hsegs, hwhole, rfl⟩ := compile_eq_ok_iff.mp hm
  obtain ⟨back, hback, rfl⟩ := h.exists_segments hsegs
  -- what is written for the segments in front is read first, and then the placeholder
  have htemplate : (Message.ofSegments (front ++ .shown (formatOf inner) :: back)).template =
      owing false ++ front.flatMap Segment.template ++
        (Segment.template (.shown (formatOf inner)) ++ back.flatMap Segment.template) := by
    simp [Message.ofSegments, owing]
  have hopens : (Segment.template (.shown (formatOf inner)) ++
      back.flatMap Segment.template).head? ≠ some (.char '}') := by
    simp [Segment.template]
  have hread := items_template_append (isCut_of_segments h.segments_before) hfront false hopens
  rw [← htemplate, hwhole] at hread
  cases hits : readInStep false front with
  | none =>
    rw [hits] at hread
    cases hread
  | some its =>
    rw [hits] at hread
    obtain ⟨rest, hrest, rfl⟩ := map_eq_ok_iff.mp hread.symm
    obtain ⟨hiff, hverbatim⟩ := items_shown_iff h.notMem h.argument_eq hrest
    have hshown : (Segment.shown (formatOf inner)).argument? = none := rfl
    refine ⟨its, back, rfl, hback, ?_, ?_, ?_⟩
    · rw [Message.ofSegments, List.filterMap_append, List.filterMap_cons_none hshown]
    · rw [← hiff, hwhole]
      simp
    · intro hv
      obtain ⟨more, hmore, rfl⟩ := hverbatim hv
      refine ⟨more, hmore, fun d hd α ε values misfit format => ?_⟩
      rw [Emission.read?_message, Option.map_some, evaluate_messageForm, hd, Template.fill,
        Template.fillFrom_eq_fillItems values misfit format 1 .unused hwhole,
        Template.fillItems_append]
      cases fillItems values misfit format 1 .unused its with
      | error e => rfl
      | ok first =>
        simp only [Except.bind, bind, Template.fillItems_text_append]
        cases fillItems values misfit format 1 first.2 more <;> rfl

/-- A placeholder that is shown as it is, between two that are fields. -/
theorem compile_shows_width :
    ∃ m, compile false (Text.ofString "\x7ba\x7d\x7b!r:>4\x7d\x7bb\x7d") = .ok m ∧
      ∀ d : Descriptor.Message, d.template = m.template →
        (Emission.Form.read? (Emission.message d).toList).map
            (·.evaluate [Text.ofString "yes", Text.ofString "no"] (fun _ => ())
              fun v _ _ => .ok v) =
          some (.ok (Text.ofString "yes\x7b!r:>4\x7dno")) := by
  have hok : (compile false (Text.ofString "\x7ba\x7d\x7b!r:>4\x7d\x7bb\x7d")).toOption.isSome =
      true := by decide +kernel
  obtain ⟨m, hm⟩ := Option.isSome_iff_exists.mp hok
  rw [toOption_eq_some_iff] at hm
  have h : IsEmptyPlaceholder (Text.ofString "\x7ba\x7d\x7b!r:>4\x7d\x7bb\x7d")
      (Text.ofString "\x7ba\x7d") (Text.ofString "!r:>4") (Text.ofString "\x7bb\x7d")
      [.field ⟨[.char 'a'], 1⟩ []] :=
    ⟨by decide +kernel, by decide +kernel, by decide +kernel, by decide +kernel, by decide +kernel,
      by decide⟩
  obtain ⟨its, back, hits, hback, -, -, hshows⟩ := compile_shows_iff hm h (by decide)
  obtain ⟨more, hmore, hevaluate⟩ := hshows ⟨by decide, by decide⟩
  refine ⟨m, hm, fun d hd => ?_⟩
  have hits' : its = [.field ⟨[], none, []⟩] := by
    rw [← Option.some.injEq, ← hits]
    rfl
  have hback' : back = [.field ⟨[.char 'b'], 11⟩ []] := by
    have hsegs : (segments false 10 (Text.ofString "\x7bb\x7d")).toOption =
        some [.field ⟨[.char 'b'], 11⟩ []] := by decide +kernel
    rw [show segments false 10 (Text.ofString "\x7bb\x7d") = .ok back from hback] at hsegs
    exact Option.some.inj hsegs
  have hmore' : more = [.field ⟨[], none, []⟩] := by
    have hitems : (items (back.flatMap Segment.template)).toOption =
        some [.field ⟨[], none, []⟩] := by
      rw [hback']
      decide +kernel
    rw [hmore] at hitems
    exact Option.some.inj hitems
  rw [hevaluate d hd, hits', hmore']
  rfl

/-- **A placeholder without an argument may lose a character**: a line break behind its
conversion. -/
theorem not_compile_shows :
    ¬∀ (literal before inner after : Text) (front : List Segment) (m : Message)
      (d : Descriptor.Message) (shown : Text), compile false literal = .ok m →
      IsEmptyPlaceholder literal before inner after front → d.template = m.template →
      (Emission.Form.read? (Emission.message d).toList).map
          (·.evaluate ([] : List Text) (fun _ => ()) fun v _ _ => .ok v) = some (.ok shown) →
        written inner <:+: shown := by
  intro hall
  have hok : (compile false (Text.ofString "\x7b!r\n\x7d")).toOption =
      some ⟨Text.ofString "\x7b\x7b!r\x7d\x7d", []⟩ := by decide +kernel
  rw [toOption_eq_some_iff] at hok
  have h : IsEmptyPlaceholder (Text.ofString "\x7b!r\n\x7d") [] (Text.ofString "!r\n") [] [] :=
    ⟨by decide +kernel, by decide +kernel, by decide +kernel, by decide +kernel, by decide +kernel,
      by decide⟩
  have hitems : (items (Text.ofString "\x7b\x7b!r\x7d\x7d")).toOption =
      some ((Text.ofString "\x7b!r\x7d").map .text) := by decide +kernel
  rw [toOption_eq_some_iff] at hitems
  have hinfix := hall _ _ _ _ _ _
    ⟨Text.ofString "\x7b\x7b!r\x7d\x7d", [], Text.ofString "\x7b!r\n\x7d", none⟩
    (Text.ofString "\x7b!r\x7d") hok h rfl (by
      rw [Emission.read?_message, Option.map_some, evaluate_messageForm, Template.fill,
        Template.fillFrom_eq_fillItems _ _ _ 1 .unused hitems, Template.fillItems_text]
      rfl)
  exact absurd hinfix.length_le (by decide)

end Errata.Placeholder
