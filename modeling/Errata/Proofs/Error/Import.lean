import Errata.Error.Import
import Errata.Proofs.Descriptor.Import
import Errata.Proofs.Expression.Lexing
import Errata.Proofs.Syntax.Wording

/-!
# Reading what imports are written as

An import is written word by word, and read back token by token. Reading stops at a word that is a
keyword; nothing else can go wrong.

* `ImportStatement.lexemes`: the tokens that a statement is written in.
* **`readStatement_lexemes`**: reading them gives back the statement, unless a word that has to be a
  name is a keyword.
* `lexes_path`, `lexes_names`: how a path and imported names are cut into tokens.
* **`lexemes_of_importOf?`**: the text of an import is cut into the tokens of its statement.
-/

namespace Errata.Error

open Expression (Lexeme)

/-! ### Tokens of statements -/

/-- The token of a word. -/
def wordLexeme (word : String) : Lexeme :=
  if isKeyword word then .keyword word else .name word

/-- The tokens of dots in front of a path. -/
def dotLexemes : Nat → List Lexeme
  | 0 => []
  | 1 => [.op "."]
  | 2 => [.op ".", .op "."]
  | level + 3 => .op "..." :: dotLexemes level

/-- The tokens of a path. -/
def pathLexemes (path : List String) : List Lexeme :=
  (path.map wordLexeme).intersperse (.op ".")

/-- The tokens of a new name. -/
def newNameLexemes : Option String → List Lexeme
  | none => []
  | some newName => [.keyword "as", wordLexeme newName]

/-- The tokens of imported names, up to the end. -/
def namesLexemes : List (String × Option String) → List Lexeme
  | [] => [.atEnd]
  | [(name, newName)] => wordLexeme name :: (newNameLexemes newName ++ [.atEnd])
  | (name, newName) :: names =>
    wordLexeme name :: (newNameLexemes newName ++ .op "," :: namesLexemes names)

/-- The tokens of a statement. -/
def ImportStatement.lexemes : ImportStatement → List Lexeme
  | wholeModule path newName =>
    .keyword "import" :: (pathLexemes path ++ (newNameLexemes newName ++ [.atEnd]))
  | fromModule level path names =>
    .keyword "from" ::
      (dotLexemes level ++ (pathLexemes path ++ .keyword "import" :: namesLexemes names))

/-! ### Reading -/

/-- The last component of a path. -/
theorem readPath_last {name : String} {rest : List Lexeme} (h : rest.head? ≠ some (.op ".")) :
    readPath (.name name :: rest) = some ([name], rest) := by
  rw [readPath]
  rintro rest rfl
  exact h rfl

/-- A path is read if none of its components is a keyword. -/
theorem readPath_pathLexemes {path : List String} (hne : path ≠ []) {rest : List Lexeme}
    (hrest : rest.head? ≠ some (.op ".")) :
    readPath (pathLexemes path ++ rest) =
      if path.any isKeyword then none else some (path, rest) := by
  induction path with
  | nil => exact absurd rfl hne
  | cons first path ih =>
    cases path with
    | nil =>
      cases hfirst : isKeyword first
      · simpa [pathLexemes, wordLexeme, hfirst] using readPath_last hrest
      · simp [pathLexemes, wordLexeme, hfirst, readPath]
    | cons second path =>
      have hsplit : pathLexemes (first :: second :: path) ++ rest =
          wordLexeme first :: .op "." :: (pathLexemes (second :: path) ++ rest) := by
        simp [pathLexemes]
      rw [hsplit]
      cases hfirst : isKeyword first
      · rw [wordLexeme, hfirst, if_neg Bool.false_ne_true, readPath, ih (List.cons_ne_nil _ _),
          List.any_cons (a := first), hfirst, Bool.false_or]
        split <;> rfl
      · simp [wordLexeme, hfirst, readPath]

/-- The dots in front of a path are counted. -/
theorem readDots_dotLexemes (level : Nat) {rest : List Lexeme}
    (hrest : ∀ lexeme ∈ rest.head?, ∀ text, lexeme ≠ .op text) :
    readDots (dotLexemes level ++ rest) = (level, rest) := by
  have hnone : readDots rest = (0, rest) := by
    rw [readDots]
    · rintro rest rfl
      exact hrest _ rfl _ rfl
    · rintro rest rfl
      exact hrest _ rfl _ rfl
  fun_induction dotLexemes level with
  | case1 => exact hnone
  | case2 => simp [readDots, hnone]
  | case3 => simp [readDots, hnone]
  | case4 level ih => simp [readDots, ih]

/-- Imported names are read if none of them, and none of the new names, is a keyword. -/
theorem readNames_namesLexemes {names : List (String × Option String)} (hne : names ≠ []) :
    readNames (namesLexemes names) =
      if (names.flatMap fun (name, newName) => name :: newName.toList).any isKeyword then none
      else some names := by
  fun_induction namesLexemes names with
  | case1 => exact absurd rfl hne
  | case2 name newName =>
    cases newName with
    | none => cases hname : isKeyword name <;> simp [wordLexeme, hname, newNameLexemes, readNames]
    | some newName =>
      cases hname : isKeyword name <;> cases hnewName : isKeyword newName <;>
        simp [wordLexeme, hname, hnewName, newNameLexemes, readNames]
  | case3 name newName names hmore ih =>
    have hread := ih hmore
    cases newName with
    | none =>
      cases hname : isKeyword name
      · simp only [wordLexeme, hname, newNameLexemes, Bool.false_eq_true, if_false,
          List.nil_append, readNames, hread, List.flatMap_cons, List.cons_append, List.any_cons,
          Bool.false_or, Option.toList_none]
        split <;> rfl
      · simp [wordLexeme, hname, readNames]
    | some newName =>
      cases hname : isKeyword name
      · cases hnewName : isKeyword newName
        · simp only [wordLexeme, hname, hnewName, newNameLexemes, Bool.false_eq_true, if_false,
            List.cons_append, List.nil_append, readNames, hread, List.flatMap_cons, List.any_cons,
            Bool.false_or, Option.toList_some]
          split <;> rfl
        · simp [wordLexeme, hname, hnewName, newNameLexemes, readNames]
      · simp [wordLexeme, hname, readNames]

/-- What does not start with a name are no imported names. -/
theorem readNames_eq_none {lexemes : List Lexeme}
    (h : ∀ lexeme ∈ lexemes.head?, ∀ name, lexeme ≠ .name name) : readNames lexemes = none := by
  unfold readNames
  split
  all_goals first | rfl | exact absurd rfl (h _ rfl _)

/-- A path that does not start with a keyword is read as the origin of names if none of its
components is a keyword. -/
theorem readOrigin_path {level : Nat} {first : String} {path : List String} {rest : List Lexeme}
    (hfirst : isKeyword first = false) (hrest : rest.head? ≠ some (.op ".")) :
    readOrigin (dotLexemes level ++ (pathLexemes (first :: path) ++ rest)) =
      if (first :: path).any isKeyword then none else some (level, first :: path, rest) := by
  have hread := readPath_pathLexemes (List.cons_ne_nil first path) hrest
  obtain ⟨others, hothers⟩ : ∃ others, pathLexemes (first :: path) ++ rest =
      .name first :: others := by
    cases path <;> simp [pathLexemes, wordLexeme, hfirst]
  rw [hothers] at hread ⊢
  rw [readOrigin, readDots_dotLexemes level (by simp)]
  simp only [hread]
  split <;> rfl

/-- There may be dots without a path. -/
theorem readOrigin_dots {level : Nat} (hlevel : level ≠ 0) (rest : List Lexeme) :
    readOrigin (dotLexemes level ++ .keyword "import" :: rest) =
      some (level, [], .keyword "import" :: rest) := by
  obtain ⟨level, rfl⟩ := Nat.exists_eq_succ_of_ne_zero hlevel
  rw [readOrigin, readDots_dotLexemes _ (by simp)]
  rfl

/-- A keyword in front of the path, or `import` in front of what is no name, ends the reading. -/
theorem readStatement_keyword {level : Nat} {word : String} {rest : List Lexeme}
    (hrest : ∀ lexeme ∈ rest.head?, ∀ name, lexeme ≠ .name name) :
    readStatement (.keyword "from" :: (dotLexemes level ++ .keyword word :: rest)) = none := by
  rw [readStatement, readOrigin, readDots_dotLexemes _ (by simp)]
  by_cases hword : word = "import"
  · subst hword
    cases level <;> simp [readPath, readNames_eq_none hrest]
  · cases level <;> simp [readPath, hword]

/-- Whether a statement says what it imports. -/
def ImportStatement.IsComplete : ImportStatement → Prop
  | wholeModule path _ => path ≠ []
  | fromModule level path names => (level = 0 → path ≠ []) ∧ names ≠ []

/-- The import of a module is read if no word of it is a keyword. -/
theorem readStatement_wholeModule {path : List String} (hne : path ≠ [])
    (newName : Option String) :
    readStatement (ImportStatement.wholeModule path newName).lexemes =
      if (path ++ newName.toList).any isKeyword then none
      else some (.wholeModule path newName) := by
  have hrest : (newNameLexemes newName ++ [Lexeme.atEnd]).head? ≠ some (.op ".") := by
    cases newName <;> simp [newNameLexemes]
  rw [ImportStatement.lexemes, readStatement, readPath_pathLexemes hne hrest, List.any_append]
  cases path.any isKeyword with
  | true => rfl
  | false =>
    cases newName with
    | none => rfl
    | some newName =>
      cases hnewName : isKeyword newName <;> simp [newNameLexemes, wordLexeme, hnewName]

/-- The import of names is read if no word of it is a keyword. -/
theorem readStatement_fromModule {level : Nat} {path : List String}
    {names : List (String × Option String)} (hpath : level = 0 → path ≠ []) (hne : names ≠ []) :
    readStatement (ImportStatement.fromModule level path names).lexemes =
      if (ImportStatement.fromModule level path names).words.any isKeyword then none
      else some (.fromModule level path names) := by
  have hnames := readNames_namesLexemes hne
  rw [ImportStatement.lexemes, ImportStatement.words, List.any_append]
  cases path with
  | nil =>
    have horigin := readOrigin_dots (fun h => hpath h rfl) (namesLexemes names)
    rw [pathLexemes, List.map_nil, List.intersperse_nil, List.nil_append, readStatement, horigin]
    simp only [hnames, List.any_nil, Bool.false_or]
    split <;> rfl
  | cons first path =>
    cases hfirst : isKeyword first with
    | false =>
      rw [readStatement, readOrigin_path hfirst (by simp)]
      cases (first :: path).any isKeyword with
      | true => rfl
      | false =>
        simp only [Bool.false_eq_true, if_false, hnames, Bool.false_or]
        split <;> rfl
    | true =>
      -- no name follows the keyword, which may be taken for the word behind the origin
      obtain ⟨others, hothers, hnext⟩ : ∃ others,
          pathLexemes (first :: path) ++ .keyword "import" :: namesLexemes names =
            .keyword first :: others ∧ ∀ lexeme ∈ others.head?, ∀ name, lexeme ≠ .name name := by
        cases path <;> simp [pathLexemes, wordLexeme, hfirst]
      rw [hothers, readStatement_keyword hnext, List.any_cons, hfirst]
      rfl

/-- **Reading a statement** gives it back, unless a word that has to be a name is a keyword. -/
theorem readStatement_lexemes {s : ImportStatement} (hs : s.IsComplete) :
    readStatement s.lexemes = if s.words.any isKeyword then none else some s := by
  cases s with
  | wholeModule path newName => exact readStatement_wholeModule hs newName
  | fromModule level path names => exact readStatement_fromModule hs.1 hs.2

/-! ### Text -/

section

open Expression (Lexes isQuote)
open Expression.Number (isDigit isWordChar)
open Descriptor (newNameText renamedText)
open Syntax (IsName)

variable {text : List Char} {lexemes : List Lexeme}

/-- Whether a word in front of a text ends there. -/
def EndsWord (text : List Char) : Prop :=
  ∀ c ∈ text.head?, isWordChar c = false ∧ isQuote c = false

/-- Whether a dot in front of a text is one by itself. -/
def EndsDots (text : List Char) : Prop :=
  ∀ c ∈ text.head?, isDigit c = false ∧ c ≠ '.'

/-- What starts with a name ends dots. -/
theorem endsDots_append {name : List Char} (hname : IsName name) (text : List Char) :
    EndsDots (name ++ text) := by
  obtain ⟨first, rest, rfl, hfirst, -⟩ := hname
  rintro c ⟨⟩
  exact Expression.isDigit_of_isNameStart hfirst

/-- A word is cut off where it ends. -/
theorem lexes_word {word : String} (hword : IsName word.toList) (hends : EndsWord text)
    (h : Lexes text lexemes) : Lexes (word.toList ++ text) (wordLexeme word :: lexemes) := by
  have hsame : Expression.wordLexeme word.toList = wordLexeme word := by
    rw [Expression.wordLexeme_of_isName hword, String.ofList_toList, wordLexeme]
  exact hsame ▸ h.word hword hends

/-- A blank ends a word. -/
theorem endsWord_blank (text : List Char) : EndsWord (' ' :: text) := by
  rintro c ⟨⟩
  decide

/-- A keyword is cut off in front of a blank. -/
theorem lexes_keyword {word : String} (hword : IsName word.toList)
    (hkeyword : isKeyword word = true) (h : Lexes text lexemes) :
    Lexes (word.toList ++ ' ' :: text) (.keyword word :: lexemes) := by
  have hlexes := lexes_word hword (endsWord_blank text) h.blank
  rwa [wordLexeme, if_pos hkeyword] at hlexes

/-- A dot is cut off where dots end. -/
theorem lexes_point (hends : EndsDots text) (h : Lexes text lexemes) :
    Lexes ('.' :: text) (.op "." :: lexemes) := by
  cases text with
  | nil => exact h.point rfl rfl
  | cons c text =>
    obtain ⟨hdigit, hpoint⟩ := hends c rfl
    exact h.point (by simp [hdigit]) (by simp [List.isPrefixOf, Ne.symm hpoint])

/-- Dots are cut off three at a time. -/
theorem lexes_dots (level : Nat) (hends : EndsDots text) (h : Lexes text lexemes) :
    Lexes (List.replicate level '.' ++ text) (dotLexemes level ++ lexemes) := by
  fun_induction dotLexemes level with
  | case1 => exact h
  | case2 => exact lexes_point hends h
  | case3 =>
    refine (lexes_point hends h).point rfl ?_
    cases text with
    | nil => rfl
    | cons c text => simp [List.isPrefixOf, Ne.symm (hends c rfl).2]
  | case4 level ih => exact ih.points

/-- A path starts with its first component. -/
theorem exists_path_eq_append (first : String) (path : List String) :
    ∃ more, (".".intercalate (first :: path)).toList = first.toList ++ more := by
  rw [String.toList_intercalate, List.map_cons]
  cases path with
  | nil => exact ⟨[], by simp⟩
  | cons second path =>
    exact ⟨_, by rw [List.map_cons, List.intercalate_cons_cons, List.append_assoc]⟩

/-- A path is cut at its dots. -/
theorem lexes_path {path : List String} (hpath : ∀ name ∈ path, IsName name.toList)
    (hends : EndsWord text) (h : Lexes text lexemes) :
    Lexes ((".".intercalate path).toList ++ text) (pathLexemes path ++ lexemes) := by
  induction path with
  | nil => exact h
  | cons first path ih =>
    rw [List.forall_mem_cons] at hpath
    cases path with
    | nil => simpa [pathLexemes] using lexes_word hpath.1 hends h
    | cons second path =>
      have hrest := ih hpath.2
      have hdots : EndsDots ((".".intercalate (second :: path)).toList ++ text) := by
        obtain ⟨more, hmore⟩ := exists_path_eq_append second path
        rw [hmore, List.append_assoc]
        exact endsDots_append (hpath.2 second List.mem_cons_self) _
      have hpoint : EndsWord ('.' :: ((".".intercalate (second :: path)).toList ++ text)) := by
        rintro c ⟨⟩
        decide
      have hword := lexes_word hpath.1 hpoint (lexes_point hdots hrest)
      simpa [pathLexemes, String.toList_intercalate] using hword

/-- A new name in front of what ends a word ends a word. -/
theorem endsWord_newName (newName : Option String) (hends : EndsWord text) :
    EndsWord ((newNameText newName).toList ++ text) := by
  cases newName with
  | none => exact hends
  | some newName =>
    rw [newNameText, String.toList_append]
    exact endsWord_blank _

/-- A new name is cut off behind its word. -/
theorem lexes_newName {newName : Option String} (hnewName : ∀ name ∈ newName, IsName name.toList)
    (hends : EndsWord text) (h : Lexes text lexemes) :
    Lexes ((newNameText newName).toList ++ text)
      (newNameLexemes newName ++ lexemes) := by
  cases newName with
  | none => exact h
  | some newName =>
    have hword : IsName "as".toList := ⟨'a', ['s'], rfl, rfl, List.all_eq_true.mp rfl⟩
    have hnew := lexes_word (hnewName newName rfl) hends h
    simpa [newNameText, newNameLexemes] using (lexes_keyword hword rfl hnew).blank

/-- A name with a new name is cut off where they end. -/
theorem lexes_renamed {name : String} {newName : Option String} (hname : IsName name.toList)
    (hnewName : ∀ n ∈ newName, IsName n.toList) (hends : EndsWord text) (h : Lexes text lexemes) :
    Lexes (name.toList ++ ((newNameText newName).toList ++ text))
      (wordLexeme name :: (newNameLexemes newName ++ lexemes)) :=
  lexes_word hname (endsWord_newName newName hends) (lexes_newName hnewName hends h)

/-- Imported names are cut at their commas. -/
theorem lexes_names {names : List (String × Option String)} (hne : names ≠ [])
    (hnames : ∀ p ∈ names, IsName p.1.toList ∧ ∀ name ∈ p.2, IsName name.toList) :
    Lexes (", ".intercalate (names.map renamedText)).toList (namesLexemes names) := by
  rw [String.toList_intercalate]
  fun_induction namesLexemes names with
  | case1 => exact absurd rfl hne
  | case2 name newName =>
    obtain ⟨hname, hnewName⟩ := hnames (name, newName) List.mem_cons_self
    have hends : EndsWord [] := nofun
    simpa [renamedText] using lexes_renamed hname hnewName hends .nil
  | case3 name newName names hmore ih =>
    rw [List.forall_mem_cons] at hnames
    obtain ⟨⟨hname, hnewName⟩, hnames⟩ := hnames
    obtain ⟨second, names, rfl⟩ := List.exists_cons_of_ne_nil hmore
    have hrest := (ih hmore hnames).blank.comma
    have hcomma : ∀ rest, EndsWord (',' :: rest) := by
      rintro rest c ⟨⟩
      decide
    simpa [renamedText] using lexes_renamed hname hnewName (hcomma _) hrest

end

/-! ### Imports -/

section

open Descriptor (Import importModuleText importNamesText importOf? newNameText renamedText)
open Syntax (IsName Item)

/-- What the import statement of an item says. -/
def ImportStatement.ofItem? : Item → Option ImportStatement
  | .importModule path newName _ => some (.wholeModule path newName)
  | .importNames dots path names _ => some (.fromModule dots.length path names)
  | .declaration _ => none

/-- The statement of an item is complete if the item is. -/
theorem isComplete_of_ofItem? {item : Item} {s : ImportStatement} (hcomplete : item.IsComplete)
    (h : ImportStatement.ofItem? item = some s) : s.IsComplete := by
  cases item with
  | importModule path newName span =>
    cases h
    exact hcomplete
  | importNames dots path names span =>
    cases h
    refine ⟨fun hlevel => hcomplete.1 ?_, hcomplete.2⟩
    simpa using hlevel
  | declaration d => cases h

/-- The words of the statement of an item are spelled like names if the item is worded so. -/
theorem isName_of_ofItem? {item : Item} {s : ImportStatement} (hworded : item.IsWorded)
    (h : ImportStatement.ofItem? item = some s) : ∀ word ∈ s.words, IsName word.toList := by
  cases item with
  | importModule path newName span =>
    cases h
    intro word hword
    rcases List.mem_append.mp hword with hword | hword
    · exact hworded.1 word hword
    · exact hworded.2 word (Option.mem_toList.mp hword)
  | importNames dots path names span =>
    cases h
    intro word hword
    rcases List.mem_append.mp hword with hword | hword
    · exact hworded.2.1 word hword
    · obtain ⟨p, hp, hword⟩ := List.mem_flatMap.mp hword
      rcases List.mem_cons.mp hword with rfl | hword
      · exact (hworded.2.2 p hp).1
      · exact (hworded.2.2 p hp).2 word (Option.mem_toList.mp hword)
  | declaration d => cases h

/-- A line that starts with a keyword and a blank starts with the token of that keyword. -/
theorem lexemes_keyword {word : String} {text : List Char} {lexemes : List Lexeme}
    (hword : IsName word.toList) (hkeyword : isKeyword word = true)
    (h : Expression.Lexes text lexemes) :
    (Expression.tokens (word.toList ++ ' ' :: text)).map Expression.Token.lexeme =
      .keyword word :: lexemes := by
  rw [Expression.lexemes_of_lexes hword (endsWord_blank text) h.blank,
    Expression.wordLexeme_of_isName hword, String.ofList_toList, if_pos hkeyword]

/-- The word of an import is spelled like a name. -/
theorem isName_import : IsName "import".toList :=
  ⟨'i', "mport".toList, rfl, rfl, List.all_eq_true.mp rfl⟩

/-- The text of the import of a module is cut into the tokens of its statement. -/
theorem lexemes_importModuleText {path : List String} {newName : Option String}
    (hpath : ∀ name ∈ path, IsName name.toList) (hnewName : ∀ n ∈ newName, IsName n.toList) :
    (Expression.tokens (importModuleText path newName).toList).map Expression.Token.lexeme =
      (ImportStatement.wholeModule path newName).lexemes := by
  have htext : (importModuleText path newName).toList = "import".toList ++
      ' ' :: ((".".intercalate path).toList ++ ((newNameText newName).toList ++ [])) := by
    rw [Descriptor.importModuleText_eq]
    simp
  have hends : EndsWord [] := nofun
  have hlexes := lexes_path hpath (endsWord_newName newName hends)
    (lexes_newName hnewName hends .nil)
  rw [htext, lexemes_keyword isName_import rfl hlexes]
  rfl

/-- The text of the import of names is cut into the tokens of its statement. -/
theorem lexemes_importNamesText {dots : String} {path : List String}
    {names : List (String × Option String)} (hdots : ∀ c ∈ dots.toList, c = '.')
    (hpath : ∀ name ∈ path, IsName name.toList) (hne : names ≠ [])
    (hnames : ∀ p ∈ names, IsName p.1.toList ∧ ∀ name ∈ p.2, IsName name.toList) :
    (Expression.tokens (importNamesText dots path names).toList).map Expression.Token.lexeme =
      (ImportStatement.fromModule dots.length path names).lexemes := by
  have hdots : dots.toList = List.replicate dots.length '.' :=
    List.eq_replicate_iff.mpr ⟨String.length_toList, hdots⟩
  obtain ⟨behind, hbehind⟩ : ∃ behind, behind = ' ' ::
      ("import".toList ++ ' ' :: (", ".intercalate (names.map renamedText)).toList) := ⟨_, rfl⟩
  have htext : (importNamesText dots path names).toList = "from".toList ++ ' ' ::
      (List.replicate dots.length '.' ++ ((".".intercalate path).toList ++ behind)) := by
    rw [Descriptor.importNamesText_eq, ← hdots, hbehind]
    simp
  have hlexes := lexes_path hpath (endsWord_blank _)
    (lexes_keyword isName_import rfl (lexes_names hne hnames)).blank
  rw [← hbehind] at hlexes
  have hends : EndsDots ((".".intercalate path).toList ++ behind) := by
    cases path with
    | nil =>
      rw [hbehind]
      rintro c ⟨⟩
      decide
    | cons first path =>
      obtain ⟨more, hmore⟩ := exists_path_eq_append first path
      rw [hmore, List.append_assoc]
      exact endsDots_append (hpath first List.mem_cons_self) _
  have hword : IsName "from".toList := ⟨'f', "rom".toList, rfl, rfl, List.all_eq_true.mp rfl⟩
  rw [htext, lexemes_keyword hword rfl (lexes_dots dots.length hends hlexes)]
  rfl

/-- **The text of an import** is cut into the tokens of its statement. -/
theorem lexemes_of_importOf? {item : Item} {i : Import} {s : ImportStatement}
    (hcomplete : item.IsComplete) (hworded : item.IsWorded) (hi : importOf? item = some i)
    (hs : ImportStatement.ofItem? item = some s) :
    (Expression.tokens i.text.toList).map Expression.Token.lexeme = s.lexemes := by
  cases item with
  | importModule path newName span =>
    cases hi
    cases hs
    exact lexemes_importModuleText hworded.1 hworded.2
  | importNames dots path names span =>
    cases hi
    cases hs
    exact lexemes_importNamesText hworded.1 hworded.2.1 hcomplete.2 hworded.2.2
  | declaration d => cases hi

end

end Errata.Error
