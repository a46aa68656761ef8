import Errata.Proofs.Compile
import Errata.Proofs.Emission.Bare
import Errata.Proofs.Emission.Return
import Errata.Proofs.Ending
import Errata.Proofs.Shadowing

/-!
# Comments in declaration files

A comment is no token, so it may stand between any two of them. What is reported of a file is the
same with a comment put there. The generated module is the same too, but for one thing: the type of
a field is copied as it is written, and a comment between two tokens of a type is copied with it.

* `Compilation.IsCutInType`: the places inside the types of a file.
* `exists_isOf_comment`: what describing a file with a comment put into it makes and finds.
* **`compile_comment`**: what compiling such a file comes to.
* `Compilation.IsModuleOf.mem_code_iff`: which characters stand in a module.
* `not_compile_keeps_code`: a comment that is copied into a module.
-/

namespace Errata

/-- Whether a place in a file is inside the type of a field: behind its first token and before its
last. -/
def Compilation.IsCutInType (c : Compilation) (offset : Nat) : Prop :=
  ∃ e ∈ (c.tree.map Syntax.Tree.typeExtents).getD [], e.IsCutAt offset

instance (c : Compilation) (offset : Nat) : Decidable (c.IsCutInType offset) :=
  List.decidableBEx _ _

/-- What a diagnostic says, wherever it points. -/
def Diagnostic.saying (d : Diagnostic) : Severity × String × String :=
  (d.severity, d.label, d.message)

/-- Findings that say the same have the same problems, if they are warnings. -/
theorem map_problem_of_map_bare {found found' : List Finding}
    (h : found'.map Finding.bare = found.map Finding.bare)
    (hwarnings : ∀ f ∈ found, f.problem.severity = .warning) :
    found'.map Finding.problem = found.map Finding.problem := by
  induction Descriptor.forall₂_of_map_eq h with
  | nil => rfl
  | @cons f' f found' found hsay hrest ih =>
    obtain ⟨hfirst, hwarnings⟩ := List.forall_mem_cons.mp hwarnings
    rw [List.map_cons, List.map_cons] at h
    have hbare : f'.problem.bare = f.problem.bare := congrArg Finding.problem hsay
    have hwarning : f'.problem.severity = .warning := by
      rw [← Problem.severity_bare, hbare, Problem.severity_bare, hfirst]
    rw [List.map_cons, List.map_cons, ih (List.tail_eq_of_cons_eq h) hwarnings]
    rw [Problem.bare_eq_self hwarning, Problem.bare_eq_self hfirst] at hbare
    rw [hbare]

/-- A file in which nothing but warnings are found has a module. -/
theorem exists_code_of_isOf [Expression.Capacity]
    {options : CompileOptions} {source : String} (filename : String)
    {tree : Syntax.Tree} {description : Description} (h : description.IsOf options source tree)
    (hwarnings : ∀ f ∈ description.findings, f.problem.severity = .warning) :
    ∃ c code, compile options source filename = .ok c ∧ c.code = some code ∧
      c.report.diagnostics = description.findings.map (Finding.diagnostic filename) ∧
      Emission.generate
        { runtimeModule := options.runtimeModule, sourceName := (Path.ofString filename).name }
        description.descriptor = .ok code := by
  obtain ⟨-, items, -, hdescribe⟩ := id h
  obtain ⟨code, hcode⟩ := (Emission.generate_isOk_iff
    ⟨options.runtimeModule, (Path.ofString filename).name, []⟩ rfl description.descriptor).mpr
      (describe_isSound hdescribe)
  have hclean : ¬(Report.mk (some source) filename
      (description.findings.map (Finding.diagnostic filename))).hasErrors = true := by
    rw [Report.hasErrors_map_diagnostic]
    rintro ⟨f, hf, herror⟩
    cases (hwarnings f hf).symm.trans herror
  have hgenerate := compile_of_isOf filename h
  rw [Compilation.generate] at hgenerate
  dsimp only at hgenerate
  rw [if_neg hclean, hcode] at hgenerate
  exact ⟨_, code, hgenerate, rfl, rfl, hcode⟩

/-- Whether a place is inside a type of a compilation, if its tree is known. -/
theorem isCutInType_iff {c : Compilation} {tree : Syntax.Tree} (h : c.tree = some tree)
    (offset : Nat) : c.IsCutInType offset ↔ ∃ e ∈ tree.typeExtents, e.IsCutAt offset := by
  rw [Compilation.IsCutInType, h]
  rfl

section Comment

open Syntax (IsBoundary IsComment insertion)

variable {options : CompileOptions} {before comment after : String}

/-- **What describing a file with a comment put into it** makes and finds: what it does without, as
far as types show the same. -/
theorem exists_isOf_comment [Expression.Capacity] (hcomment : IsComment comment.toList)
    (hboundary : IsBoundary before.toList after.toList) {view : String → String}
    {tree : Syntax.Tree} {description : Description}
    (h : description.IsOf options (before ++ after) tree)
    (hshows : Syntax.ShowsAt (insertion before.toList comment.toList after.toList) view
      (before.toList ++ after.toList) (before.toList ++ comment.toList ++ after.toList)
      tree.typeExtents) :
    ∃ description' : Description,
      description'.IsOf options (before ++ comment ++ after)
        (tree.displace (insertion before.toList comment.toList after.toList)) ∧
      description'.descriptor.bare view = description.descriptor.bare view ∧
      description'.findings.map Finding.bare = description.findings.map Finding.bare := by
  obtain ⟨hparse, items, hitems, hdescribe⟩ := h
  rw [String.toList_append] at hparse hitems
  obtain ⟨items', hitems', hsays⟩ := Syntax.exists_fileItems_displace hshows hitems
  obtain ⟨description', hdescribe', hdescriptor, hfindings⟩ :=
    exists_describe_bare hsays.symm hdescribe
  have hparse' := Syntax.parse_comment hcomment hboundary hparse
  rw [← String.toList_append, ← String.toList_append] at hparse' hitems'
  exact ⟨description', ⟨hparse', items', hitems', hdescribe'⟩, hdescriptor, hfindings⟩

/-- **A comment between tokens.** If a file is compiled without errors, so it is with a comment put
between two of its tokens, or before the first or behind the last one. The diagnostics say the same.
The module is the same unless the comment is put inside the type of a field, and then the comment,
in one line, stands in the module. -/
theorem compile_comment [Expression.Capacity] {filename : String} {c : Compilation}
    (hcomment : IsComment comment.toList) (hboundary : IsBoundary before.toList after.toList)
    (h : compile options (before ++ after) filename = .ok c)
    (herrors : c.report.hasErrors = false) :
    ∃ c' code code', compile options (before ++ comment ++ after) filename = .ok c' ∧
      c.code = some code ∧ c'.code = some code' ∧
      c'.report.diagnostics.map Diagnostic.saying = c.report.diagnostics.map Diagnostic.saying ∧
      (¬c.IsCutInType before.toList.length → code' = code) ∧
      (c.IsCutInType before.toList.length → joined comment.toList <:+: code'.toList) := by
  have hending := Compilation.ending_of_compile h
  have hmade : c.code ≠ none := by
    rw [← hending.hasErrors_iff.ne, herrors]
    exact Bool.false_ne_true
  cases hending with
  | unparsed hunparsed => exact absurd rfl hmade
  | withheld hdescribed herror => exact absurd rfl hmade
  | @generated tree description code hdescribed hwarnings hcode =>
    have hparse := hdescribed.1
    rw [String.toList_append] at hparse
    have hplaced := Syntax.isIn_of_mem_typeExtents hparse
    have hblank : Syntax.ShowsAt (insertion before.toList comment.toList after.toList)
        (fun _ => "") (before.toList ++ after.toList)
        (before.toList ++ comment.toList ++ after.toList) tree.typeExtents := fun _ _ => rfl
    obtain ⟨description', hdescribed', -, hfindings⟩ :=
      exists_isOf_comment hcomment hboundary hdescribed hblank
    have hproblems := map_problem_of_map_bare hfindings hwarnings
    have hwarnings' : ∀ f ∈ description'.findings, f.problem.severity = .warning := by
      intro f hf
      have hproblem : f.problem ∈ description.findings.map Finding.problem :=
        hproblems ▸ List.mem_map_of_mem hf
      obtain ⟨f', hf', heq⟩ := List.mem_map.mp hproblem
      rw [← heq]
      exact hwarnings f' hf'
    obtain ⟨c', code', hcompile', hcode', hreport', hgenerate'⟩ :=
      exists_code_of_isOf filename hdescribed' hwarnings'
    refine ⟨c', code, code', hcompile', rfl, hcode', ?_, fun hcut => ?_, fun hcut => ?_⟩
    · have hsaying : Diagnostic.saying ∘ Finding.diagnostic filename =
          (fun p => (p.severity, p.code.entry.label, p.message)) ∘ Finding.problem := rfl
      rw [hreport', List.map_map, List.map_map, hsaying, ← List.map_map, hproblems, List.map_map]
    · rw [isCutInType_iff rfl] at hcut
      have hsame : Syntax.ShowsAt (insertion before.toList comment.toList after.toList) id
          (before.toList ++ after.toList) (before.toList ++ comment.toList ++ after.toList)
          tree.typeExtents := fun e he =>
        Syntax.typeText_displace_of_not_isCutAt _ (hplaced e he) fun hin => hcut ⟨e, he, hin⟩
      obtain ⟨description'', hdescribed'', hbare, -⟩ :=
        exists_isOf_comment hcomment hboundary hdescribed hsame
      obtain rfl := hdescribed'.unique hdescribed''
      rw [← Emission.generate_bare, hbare, Emission.generate_bare, hcode] at hgenerate'
      exact (Except.ok.inj hgenerate').symm
    · rw [isCutInType_iff rfl] at hcut
      obtain ⟨e, he, hin⟩ := hcut
      obtain ⟨-, items', hitems', hdescribe'⟩ := hdescribed'
      have htypes := types_of_describe hdescribe' hwarnings'
      rw [Syntax.types_of_fileItems hitems', Syntax.Tree.typeExtents_displace,
        String.toList_append, String.toList_append] at htypes
      have htype : Syntax.typeText (before.toList ++ comment.toList ++ after.toList)
          (e.displace (insertion before.toList comment.toList after.toList)) ∈
            description'.descriptor.types :=
        htypes ▸ List.mem_map_of_mem (List.mem_map_of_mem he)
      exact (Syntax.joined_infix_typeText _ (hplaced e he) hin).trans
        (Emission.type_infix_generate hgenerate' htype)

/-- A comment behind a variant is left out of the module, and one inside a type is copied into
it. -/
theorem compile_comment_type :
    (∃ c c', compile {} ("enum E \x7b #[error = \"m\"] V" ++ " \x7b x: list[int] \x7d \x7d")
          "<input>" = .ok c ∧
        compile {} ("enum E \x7b #[error = \"m\"] V" ++ "/* c */" ++
          " \x7b x: list[int] \x7d \x7d") "<input>" = .ok c' ∧
        c'.code = c.code) ∧
      ∃ c' code', compile {} ("enum E \x7b #[error = \"m\"] V \x7b x: list[" ++ "/* c */" ++
            "int] \x7d \x7d") "<input>" = .ok c' ∧
          c'.code = some code' ∧ "/* c */".toList <:+: code'.toList := by
  have hcomment : IsComment "/* c */".toList := .block (by decide)
  have hbehind : IsBoundary "enum E \x7b #[error = \"m\"] V".toList
      " \x7b x: list[int] \x7d \x7d".toList := Syntax.isBoundary_of_any (by decide +kernel)
  have hinside : IsBoundary "enum E \x7b #[error = \"m\"] V \x7b x: list[".toList
      "int] \x7d \x7d".toList := Syntax.isBoundary_of_any (by decide +kernel)
  have hrun : ((compile {} "enum E \x7b #[error = \"m\"] V \x7b x: list[int] \x7d \x7d"
      "<input>").toOption.any fun c => !c.report.hasErrors &&
        !decide (c.IsCutInType "enum E \x7b #[error = \"m\"] V".toList.length) &&
          decide (c.IsCutInType "enum E \x7b #[error = \"m\"] V \x7b x: list[".toList.length)) =
            true := by
    decide +kernel
  obtain ⟨c, hc, hrun⟩ := (Option.any_eq_true _ _).mp hrun
  rw [Outcome.toOption_eq_some_iff] at hc
  simp only [Bool.and_eq_true, Bool.not_eq_true', decide_eq_true_iff, decide_eq_false_iff_not]
    at hrun
  obtain ⟨⟨hclean, hout⟩, hin⟩ := hrun
  obtain ⟨c₁, code, code₁, hc₁, hcode, hcode₁, -, hsame, -⟩ :=
    compile_comment hcomment hbehind hc hclean
  obtain ⟨c₂, -, code₂, hc₂, -, hcode₂, -, -, hcopied⟩ :=
    compile_comment hcomment hinside hc hclean
  refine ⟨⟨c, c₁, hc, hc₁, ?_⟩, c₂, code₂, hc₂, hcode₂, hcopied hin⟩
  rw [hcode₁, hcode, hsame hout]

/-- The bytes of a character stand in the texts that it stands in. -/
theorem byte_mem_of_mem {text : String} {c : Char} (h : c ∈ text.toList) {b : UInt8}
    (hb : b ∈ String.utf8EncodeChar c) : b ∈ text.toByteArray.data.toList := by
  rw [← String.utf8Encode_toList, List.utf8Encode, List.data_toByteArray]
  exact List.mem_flatMap.mpr ⟨c, h, hb⟩

/-- Which characters stand in a module: those of its lines, but for the ends of these. -/
theorem Compilation.IsModuleOf.mem_code_iff [Expression.Capacity]
    {source filename code : String} {c : Compilation}
    {items : List Syntax.Item} {d : Descriptor} {blocks : List Emission.Lines}
    (h : c.IsModuleOf options source filename items d blocks) (hcode : c.code = some code)
    {x : Char} (hx : x ≠ '\n') :
    x ∈ code.toList ↔ ∃ line ∈ Emission.titleLine (Path.ofString filename).name ::
      Emission.spaced (Emission.header options.runtimeModule d :: blocks), x ∈ line.toList := by
  rw [← Option.some.inj (h.code.symm.trans hcode), String.toList_append, List.mem_append,
    String.toList_intercalate, Emission.mem_intercalate (by simpa using hx)]
  simp [hx]

/-- **Comments do not stay out of modules**: a comment that is put between two tokens of a type
changes the module, though nothing is wrong with the file. -/
theorem not_compile_keeps_code :
    ¬∀ (before comment after : String) (c c' : Compilation),
      IsComment comment.toList → IsBoundary before.toList after.toList →
      compile {} (before ++ after) "<input>" = .ok c → c.report.hasErrors = false →
      compile {} (before ++ comment ++ after) "<input>" = .ok c' →
      c'.report.diagnostics.map Diagnostic.saying = c.report.diagnostics.map Diagnostic.saying ∧
        c'.code = c.code := by
  intro hkeeps
  have hcomment : IsComment "/* c */".toList := .block (by decide)
  have hboundary : IsBoundary "enum E \x7b #[error = \"m\"] V \x7b x: list[".toList
      "int] \x7d \x7d".toList := Syntax.isBoundary_of_any (by decide +kernel)
  -- Nothing that the generator writes for the first file holds a slash, and a type of the second
  -- does. The slash is looked for among the bytes, which takes less work than among the characters.
  have hrun : ((compile {} ("enum E \x7b #[error = \"m\"] V \x7b x: list[" ++ "int] \x7d \x7d")
      "<input>").toOption.any fun c => !c.report.hasErrors &&
        (c.descriptor.any fun d => (Emission.blocks [] d).toOption.any fun blocks =>
          (Emission.titleLine (Path.ofString "<input>").name ::
            Emission.spaced (Emission.header ({} : CompileOptions).runtimeModule d :: blocks)).all
              fun line => 47 ∉ line.toByteArray.data.toList) &&
        (compile {} ("enum E \x7b #[error = \"m\"] V \x7b x: list[" ++ "/* c */" ++
          "int] \x7d \x7d") "<input>").toOption.any fun c' => !c'.report.hasErrors &&
            c'.descriptor.any fun d => d.types.any fun type => '/' ∈ type.toList) = true := by
    decide +kernel
  obtain ⟨c, hc, hrun⟩ := (Option.any_eq_true _ _).mp hrun
  obtain ⟨hrun, hother⟩ := Bool.and_eq_true_iff.mp hrun
  obtain ⟨hclean, hfree⟩ := Bool.and_eq_true_iff.mp hrun
  obtain ⟨c', hc', hrun'⟩ := (Option.any_eq_true _ _).mp hother
  obtain ⟨hclean', hslash⟩ := Bool.and_eq_true_iff.mp hrun'
  rw [Outcome.toOption_eq_some_iff] at hc hc'
  rw [Bool.not_eq_true'] at hclean hclean'
  obtain ⟨items, d, blocks, hmodule⟩ := exists_isModuleOf hc hclean
  obtain ⟨items', d', blocks', hmodule'⟩ := exists_isModuleOf hc' hclean'
  rw [hmodule.held, Option.any_some, hmodule.written] at hfree
  rw [hmodule'.held, Option.any_some] at hslash
  obtain ⟨type, htype, hslash⟩ := List.any_eq_true.mp hslash
  have hin := (Emission.type_infix_generate (generate_of_isModuleOf hmodule' hmodule'.code)
    htype).subset (of_decide_eq_true hslash)
  have hsame := (hkeeps _ _ _ c c' hcomment hboundary hc hclean hc').2
  obtain ⟨line, hline, hin⟩ :=
    (hmodule.mem_code_iff (hsame.symm.trans hmodule'.code) (by decide)).mp hin
  exact of_decide_eq_true (List.all_eq_true.mp hfree line hline)
    (byte_mem_of_mem hin (by decide))

end Comment

end Errata
