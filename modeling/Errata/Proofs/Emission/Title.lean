import Errata.Emission.Module
import Errata.Proofs.Expression.Newline
import Errata.Proofs.Syntax.Position

/-!
# The name of a source in its module

The first line of a module is a comment that names the source. Whoever reads the module ends that
line at the first line feed or carriage return, and the name goes into it as it is. So the first
line of a name stands in the comment, and whatever the name has behind it stands on lines of its
own.

* `moduleLines`: the lines of a module, as it is read.
* `signed`: lines with the end of the title behind them.
* `moduleLines_title_append`: **the lines of a module** from those of the name and those of the
  rest.
* **`generate_names_source`**: what the name of a source does to its module.
-/

namespace Errata

/-! ### Lines -/

/-- The lines of a module, as it is read. A carriage return ends a line like a line feed, and both
together end one line. -/
def moduleLines (code : String) : List (List Char) :=
  sourceLines (universalNewlines code.toList)

/-- Texts are read one after the other, unless a carriage return at the end of the first stands
before a line feed. -/
theorem universalNewlines_append {before after : List Char}
    (h : before.getLast? = some '\r' → after.head? ≠ some '\n') :
    universalNewlines (before ++ after) = universalNewlines before ++ universalNewlines after := by
  fun_induction universalNewlines before with
  | case1 => rfl
  | case2 rest ih =>
    have hrest : rest.getLast? = some '\r' → after.head? ≠ some '\n' :=
      fun hlast => h (by simp [List.getLast?_cons, hlast])
    rw [List.cons_append, List.cons_append, universalNewlines, ih hrest, List.cons_append]
  | case3 rest hrest ih =>
    -- No line feed stands behind the carriage return.
    have hlast : rest.getLast? = some '\r' → after.head? ≠ some '\n' :=
      fun hlast => h (by simp [List.getLast?_cons, hlast])
    rw [List.cons_append, universalNewlines, ih hlast, List.cons_append]
    intro other heq
    cases rest with
    | nil => exact h rfl (by rw [show after = '\n' :: other from heq]; rfl)
    | cons c rest =>
      cases heq
      exact hrest rest rfl
  | case4 c rest hpair hreturn ih =>
    have hrest : rest.getLast? = some '\r' → after.head? ≠ some '\n' :=
      fun hlast => h (by simp [List.getLast?_cons, hlast])
    rw [List.cons_append, universalNewlines, ih hrest, List.cons_append]
    · rintro other rfl
      exact fun _ => hreturn rfl
    · exact hreturn

/-- A text that holds a line feed or a carriage return holds a line feed when it is read. -/
theorem newline_mem_universalNewlines_iff {text : List Char} :
    '\n' ∈ universalNewlines text ↔ '\n' ∈ text ∨ '\r' ∈ text := by
  fun_induction universalNewlines text with
  | case1 => simp
  | case2 rest ih => simp
  | case3 rest hrest ih => simp
  | case4 c rest hpair hreturn ih =>
    have hne : '\r' ≠ c := fun h => hreturn h.symm
    simp only [List.mem_cons, ih, hne, false_or, or_assoc]

/-- A name without the characters that end lines is one line. -/
theorem tail_moduleLines_eq_nil_iff {name : String} :
    (moduleLines name).tail = [] ↔ '\n' ∉ name.toList ∧ '\r' ∉ name.toList := by
  have hlength : (moduleLines name).tail = [] ↔ '\n' ∉ universalNewlines name.toList := by
    rw [← List.length_eq_zero_iff, List.length_tail, moduleLines, length_sourceLines,
      Nat.add_sub_cancel, List.count_eq_zero]
  rw [hlength, newline_mem_universalNewlines_iff, not_or]

/-! ### The title -/

namespace Emission

/-- What stands in the title of a module before the name of the source. -/
def opening (name : String) : List Char :=
  ("# Generated by errorgen " ++ version ++ if name = "" then "" else " from ").toList

/-- What stands in the title of a module behind the name of the source. -/
def closing : List Char :=
  ". Do not edit.".toList

/-- The title of a module is the name of the source between fixed texts. -/
theorem toList_titleLine (name : String) :
    (titleLine name).toList = opening name ++ (name.toList ++ closing) := by
  unfold titleLine opening closing
  split
  · next hempty => simp [hempty]
  · simp

/-- The title starts a comment. -/
theorem exists_opening_cons (name : String) : ∃ comment, opening name = '#' :: comment := by
  unfold opening
  split
  · exact ⟨_, rfl⟩
  · exact ⟨_, rfl⟩

/-- No line ends before the name of the source. -/
theorem notMem_opening (name : String) : '\n' ∉ opening name ∧ '\r' ∉ opening name := by
  unfold opening
  split <;> decide

/-- Lines with the end of the title behind the last of them. -/
def signed : List (List Char) → List (List Char)
  | [] => []
  | [line] => [line ++ closing]
  | line :: next :: rest => line :: signed (next :: rest)

/-- The last line is the one that the end of the title stands behind. -/
theorem signed_concat (init : List (List Char)) (last : List Char) :
    signed (init ++ [last]) = init ++ [last ++ closing] := by
  induction init with
  | nil => rfl
  | cons line init ih =>
    cases init with
    | nil => rfl
    | cons next init => exact congrArg (line :: ·) ih

/-- The first line can be taken off before or after. -/
theorem tail_signed (lines : List (List Char)) : (signed lines).tail = signed lines.tail := by
  match lines with
  | [] => rfl
  | [_] => rfl
  | _ :: _ :: _ => rfl

/-- Only lines that are the same are the same with the end of the title behind them. -/
theorem signed_inj {lines others : List (List Char)} :
    signed lines = signed others ↔ lines = others := by
  refine ⟨fun h => ?_, congrArg signed⟩
  rcases List.eq_nil_or_concat' lines with rfl | ⟨init, last, rfl⟩
  · rcases List.eq_nil_or_concat' others with rfl | ⟨init', last', rfl⟩
    · rfl
    · simp [signed_concat, signed] at h
  · rcases List.eq_nil_or_concat' others with rfl | ⟨init', last', rfl⟩
    · simp [signed_concat, signed] at h
    · rw [signed_concat, signed_concat] at h
      obtain ⟨rfl, hlast⟩ := List.append_inj' h rfl
      rw [List.append_cancel_right (List.singleton_inj.mp hlast)]

/-- No lines are left of lines with the end of the title behind them only if there are none. -/
theorem signed_eq_nil_iff {lines : List (List Char)} : signed lines = [] ↔ lines = [] :=
  @signed_inj lines []

/-- The lines of a name with the end of the title behind it. -/
theorem sourceLines_append_closing (text : List Char) :
    sourceLines (text ++ closing) = signed (sourceLines text) := by
  obtain ⟨init, last, hlines, hboth⟩ := sourceLines_append text closing
  rw [hlines, hboth, signed_concat]
  rfl

/-- **The lines of a module** are a comment with the first line of the name, the other lines of the
name, and the lines of the rest. -/
theorem moduleLines_title_append (name rest : String) :
    ∃ comment, moduleLines (titleLine name ++ "\n" ++ rest) =
      ('#' :: comment) :: (signed (moduleLines name).tail ++ moduleLines rest) := by
  obtain ⟨comment, hopening⟩ := exists_opening_cons name
  obtain ⟨hfeed, hreturn⟩ := notMem_opening name
  have hread : universalNewlines (titleLine name ++ "\n" ++ rest).toList =
      opening name ++ (universalNewlines name.toList ++ closing) ++
        '\n' :: universalNewlines rest.toList := by
    have hclosing : universalNewlines closing = closing := rfl
    have hstart : universalNewlines (opening name) = opening name :=
      Expression.universalNewlines_eq_self_iff.mpr hreturn
    have htitle : universalNewlines (opening name ++ (name.toList ++ closing)) =
        opening name ++ (universalNewlines name.toList ++ closing) := by
      rw [universalNewlines_append fun h => absurd (List.mem_of_getLast? h) hreturn, hstart,
        universalNewlines_append fun _ => by decide, hclosing]
    have hend : (opening name ++ (name.toList ++ closing)).getLast? ≠ some '\r' := by
      have hdot : closing.getLast? = some '.' := rfl
      rw [← List.append_assoc, List.getLast?_append, hdot]
      exact fun h => absurd (Option.some.inj h) (by decide)
    rw [String.toList_append, String.toList_append, toList_titleLine, List.append_assoc,
      universalNewlines_append fun h => absurd h hend, htitle]
    rfl
  rw [moduleLines, hread, sourceLines_append_newline, sourceLines_append_of_notMem hfeed,
    sourceLines_append_closing]
  have hsigned := tail_signed (sourceLines (universalNewlines name.toList))
  obtain ⟨first, others, hlines⟩ :=
    exists_sourceLines_cons (universalNewlines name.toList ++ closing)
  rw [sourceLines_append_closing] at hlines
  rw [hlines, List.tail_cons] at hsigned
  rw [hlines, hopening, hsigned]
  exact ⟨comment ++ first, rfl⟩

/-- The lines of a module behind its first line. -/
theorem tail_moduleLines_title (name rest : String) :
    (moduleLines (titleLine name ++ "\n" ++ rest)).tail =
      signed (moduleLines name).tail ++ moduleLines rest := by
  obtain ⟨comment, hlines⟩ := moduleLines_title_append name rest
  rw [hlines, List.tail_cons]

/-- A generated module is its title and text that does not depend on the name of the source. -/
theorem exists_generate_eq (options : ModuleOptions) (d : Descriptor) :
    (∃ defect, ∀ name, generate { options with sourceName := name } d = .error defect) ∨
      ∃ rest, ∀ name, generate { options with sourceName := name } d =
        .ok (titleLine name ++ "\n" ++ rest) := by
  cases hblocks : blocks options.nameless d with
  | error defect => exact .inl ⟨defect, fun name => by rw [generate, hblocks]; rfl⟩
  | ok bs =>
    refine .inr ⟨"\n".intercalate (spaced (header options.runtimeModule d :: bs)) ++ "\n",
      fun name => ?_⟩
    obtain ⟨line, lines, hlines⟩ : ∃ line lines,
        spaced (header options.runtimeModule d :: bs) = line :: lines := by
      cases bs <;> exact ⟨_, _, rfl⟩
    have hgenerate : generate { options with sourceName := name } d =
        .ok ("\n".intercalate (titleLine name ::
          spaced (header options.runtimeModule d :: bs)) ++ "\n") := by
      rw [generate, hblocks]
      rfl
    rw [hgenerate, hlines]
    refine congrArg Except.ok (String.toList_inj.mp ?_)
    simp [String.toList_intercalate]

/-- **What the name of a source does to its module.** Whether a module is generated does not depend
on the name. If one is, its first line is a comment; behind it stand the other lines of the name,
with the end of the title behind the last of them, and then text that does not depend on the name.
So that text alone stands behind the first line exactly if no line ends in the name, and two modules
differ in their first line only exactly if the names do. -/
theorem generate_names_source (options : ModuleOptions) (d : Descriptor) :
    (∃ defect, ∀ name, generate { options with sourceName := name } d = .error defect) ∨
      ∃ (code : String → String) (body : List (List Char)),
        (∀ name, generate { options with sourceName := name } d = .ok (code name)) ∧
        (∀ name, ∃ comment, moduleLines (code name) =
          ('#' :: comment) :: (signed (moduleLines name).tail ++ body)) ∧
        (∀ name, (moduleLines (code name)).tail = body ↔
          '\n' ∉ name.toList ∧ '\r' ∉ name.toList) ∧
        ∀ name₁ name₂, (moduleLines (code name₁)).tail = (moduleLines (code name₂)).tail ↔
          (moduleLines name₁).tail = (moduleLines name₂).tail := by
  refine (exists_generate_eq options d).imp id ?_
  rintro ⟨rest, hcode⟩
  refine ⟨fun name => titleLine name ++ "\n" ++ rest, moduleLines rest, hcode,
    fun name => moduleLines_title_append name rest, fun name => ?_, fun name₁ name₂ => ?_⟩
  · rw [tail_moduleLines_title, List.append_left_eq_self, signed_eq_nil_iff,
      tail_moduleLines_eq_nil_iff]
  · rw [tail_moduleLines_title, tail_moduleLines_title, List.append_left_inj, signed_inj]

/-- A name with a line feed in it puts what stands behind that on a line of its own, in front of the
first statement of the module. -/
theorem not_generate_hides_source :
    ¬ ∀ (options : ModuleOptions) (d : Descriptor) (name₁ name₂ code₁ code₂ : String),
      (∀ c ∈ name₁.toList ++ name₂.toList, c ≠ '/' ∧ c ≠ '\x00') →
      generate { options with sourceName := name₁ } d = .ok code₁ →
      generate { options with sourceName := name₂ } d = .ok code₂ →
      (moduleLines code₁).tail = (moduleLines code₂).tail := by
  intro h
  have hsame := h {} ⟨[], []⟩ "e.errors" "e\nraise SystemExit #.errors"
  rcases exists_generate_eq {} ⟨[], []⟩ with ⟨defect, hdefect⟩ | ⟨rest, hcode⟩
  · exact absurd (hdefect "") (by simp [generate, blocks, bind, Except.bind, pure, Except.pure])
  · have htails := hsame _ _ (by simp) (hcode _) (hcode _)
    rw [tail_moduleLines_title, tail_moduleLines_title, List.append_left_inj, signed_inj] at htails
    exact absurd htails (by decide)

end Emission

end Errata
