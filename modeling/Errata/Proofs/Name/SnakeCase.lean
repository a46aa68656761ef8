import Errata.Name
import Errata.Proofs.Syntax.Spelling

/-!
# Names in snake case

The snake case of a name tells which names it may have come from, and it is a name that snake case
leaves as it is.

* `isLowered_of_isNameChar`: what lower case does to a character of names.
* `lowerCase_of_isNameChar`: **lower case of a name** goes character by character.
* `spellings`, `mem_spellings_iff`: the names that have given words.
* **`snakeCase_eq_iff`**: the names that have a given snake case.
* `splitWords_of_small`, `filter_splitWords`: what cutting a name into words leaves alone.
* `snakeCase_cases`: **the two ways** a name comes to its snake case.
* `snakeCase_of_settled`: a settled name is in snake case.
* **`snakeCase_settles`**: what is known of every name in snake case.
-/

/-! ## Which names have a given snake case

The characters of names have small letters one by one, and a low line is only ever added in front of
a capital. So the names with a given snake case can be listed: every small letter may have been a
capital, and every low line may have been added.
-/

namespace Errata

open Syntax (isNameChar isNameStart forall_isNameChar)

/-! ### Lower case -/

/-- What lower case does to a character that it turns into one small character of names, wherever
the character stands. -/
structure IsLowered (c : Char) : Prop where
  /-- No character around it matters. -/
  alone : c ≠ 'Σ' ∧ c ≠ 'İ'
  /-- It becomes one character. -/
  lowerCaseChar : Unicode.lowerCaseChar c = c.toLower
  /-- That is a character of names. -/
  isNameChar : Syntax.isNameChar c.toLower = true
  /-- A name may start with it if one may start with the character itself. -/
  isNameStart : Syntax.isNameStart c = true → Syntax.isNameStart c.toLower = true
  /-- It is no capital. -/
  isUpper : c.toLower.isUpper = false
  /-- It is a low line only if the character is. -/
  lowLine : c.toLower = '_' ↔ c = '_'
  /-- The character is the small one or the capital of it. -/
  cases : c = c.toLower ∨ c = c.toLower.toUpper

/-- The characters of names become small one by one. -/
theorem isLowered_of_isNameChar {c : Char} (h : isNameChar c = true) : IsLowered c := by
  obtain ⟨halone, hlower, hchar, hstart, hupper, hlow, hcases⟩ :=
    forall_isNameChar (P := fun c => (c ≠ 'Σ' ∧ c ≠ 'İ') ∧ Unicode.lowerCaseChar c = c.toLower ∧
      isNameChar c.toLower = true ∧ (isNameStart c = true → isNameStart c.toLower = true) ∧
      c.toLower.isUpper = false ∧ (c.toLower = '_' ↔ c = '_') ∧
      (c = c.toLower ∨ c = c.toLower.toUpper)) (by decide +kernel) h
  exact ⟨halone, hlower, hchar, hstart, hupper, hlow, hcases⟩

/-- **Lower case of a name** goes character by character. -/
theorem lowerCase_of_isNameChar {name : List Char} (h : ∀ c ∈ name, isNameChar c = true) :
    Unicode.lowerCase name = name.map Char.toLower := by
  have hgo : ∀ before, Unicode.lowerCase.go before name = name.map Char.toLower := by
    induction name with
    | nil => exact fun _ => rfl
    | cons c name ih =>
      intro before
      obtain ⟨hc, hname⟩ := List.forall_mem_cons.mp h
      have hlowered := isLowered_of_isNameChar hc
      rw [Unicode.lowerCase.go, if_neg hlowered.alone.1, if_neg hlowered.alone.2,
        hlowered.lowerCaseChar, ih hname]
      rfl
  exact hgo []

/-- The words of a name consist of characters of names. -/
theorem isNameChar_splitWords {name : List Char} (h : ∀ c ∈ name, isNameChar c = true) :
    ∀ c ∈ splitWords name, isNameChar c = true := by
  induction name with
  | nil => exact h
  | cons c rest ih =>
    obtain ⟨hc, hrest⟩ := List.forall_mem_cons.mp h
    rw [splitWords]
    split
    · simpa [hc, show isNameChar '_' = true from rfl] using ih hrest
    · simpa [hc] using ih hrest

/-- The snake case of a name consists of characters of names. -/
theorem isNameChar_snakeCase {name : String} (h : ∀ c ∈ name.toList, isNameChar c = true) :
    ∀ c ∈ (snakeCase name).toList, isNameChar c = true := by
  have hwords : ∀ c ∈ Unicode.lowerCase (splitWords name.toList), isNameChar c = true := by
    rw [lowerCase_of_isNameChar (isNameChar_splitWords h), List.forall_mem_map]
    exact fun c hc => (isLowered_of_isNameChar (isNameChar_splitWords h c hc)).isNameChar
  unfold snakeCase
  dsimp only
  split
  · rw [String.toList_append, String.toList_ofList, List.forall_mem_append]
    exact ⟨hwords, List.all_eq_true.mp rfl⟩
  · rwa [String.toList_ofList]

/-! ### Spellings -/

/-- The texts that start with the character or its capital, go on with one of the given texts, and
have the words of `text` in small letters. -/
def spelledWith (c : Char) (text : List Char) (rests : List (List Char)) : List (List Char) :=
  (rests.flatMap fun rest => [c :: rest, c.toUpper :: rest]).filter fun name =>
    (splitWords name).map Char.toLower = text

/-- The names that have the words of a text in small letters. Every character may have been a
capital, and every low line after it may have been added. -/
def spellings : List Char → List (List Char)
  | [] => [[]]
  | [c] => spelledWith c [c] [[]]
  | c :: d :: rest =>
    spelledWith c (c :: d :: rest)
      (spellings (d :: rest) ++ if d = '_' then spellings rest else [])

/-- A name starts with a small letter or the capital of one, and goes on with one of the texts. -/
theorem mem_spelledWith {c : Char} {rest text : List Char} {rests : List (List Char)}
    (hc : isNameChar c = true) (hrest : rest ∈ rests)
    (h : (splitWords (c :: rest)).map Char.toLower = text) :
    c :: rest ∈ spelledWith c.toLower text rests := by
  refine List.mem_filter.mpr ⟨List.mem_flatMap.mpr ⟨rest, hrest, ?_⟩, by simpa using h⟩
  rw [List.mem_cons, List.mem_singleton]
  exact (isLowered_of_isNameChar hc).cases.imp (congrArg (· :: rest)) (congrArg (· :: rest))

/-- **The names with given words** are the spellings of those. -/
theorem mem_spellings_iff {name text : List Char} (hname : ∀ c ∈ name, isNameChar c = true) :
    name ∈ spellings text ↔ (splitWords name).map Char.toLower = text := by
  constructor
  · intro h
    match text with
    | [] =>
      obtain rfl := List.mem_singleton.mp h
      rfl
    | [c] => exact of_decide_eq_true (List.mem_filter.mp h).2
    | c :: d :: rest => exact of_decide_eq_true (List.mem_filter.mp h).2
  · intro h
    induction name generalizing text with
    | nil =>
      obtain rfl : [] = text := h
      exact List.mem_singleton_self []
    | cons c name ih =>
      obtain ⟨hc, hrest⟩ := List.forall_mem_cons.mp hname
      have hwords := h
      rw [splitWords] at hwords
      split at hwords
      · -- A low line was added before the rest of the name.
        obtain rfl : c.toLower :: '_' :: (splitWords name).map Char.toLower = text := hwords
        refine mem_spelledWith hc (List.mem_append_right _ ?_) h
        rw [if_pos rfl]
        exact ih hrest rfl
      · obtain rfl : c.toLower :: (splitWords name).map Char.toLower = text := hwords
        have hmem := ih hrest rfl
        cases hrests : (splitWords name).map Char.toLower with
        | nil =>
          rw [hrests] at h hmem
          exact mem_spelledWith hc hmem h
        | cons d rests =>
          rw [hrests] at h hmem
          exact mem_spelledWith hc (List.mem_append_left _ hmem) h

/-- **The names with a given snake case** are the spellings of it, unless it is a keyword or ends in
a low line. -/
theorem snakeCase_eq_iff {name snake : String} (hname : ∀ c ∈ name.toList, isNameChar c = true)
    (hkeyword : isKeyword snake = false ∧ snake ∉ softKeywords)
    (hend : snake.toList.getLast? ≠ some '_') :
    snakeCase name = snake ↔ name.toList ∈ spellings snake.toList := by
  have hlower := lowerCase_of_isNameChar (isNameChar_splitWords hname)
  rw [mem_spellings_iff hname, ← hlower, snakeCase]
  split
  · next hkey =>
    -- A low line at the end keeps the keyword apart from what does not end in one.
    refine iff_of_false (fun h => hend ?_) (fun h => ?_)
    · rw [← h, String.toList_append]
      simp
    · rw [h, String.ofList_toList] at hkey
      simp [hkeyword] at hkey
  · rw [← String.toList_inj, String.toList_ofList]

end Errata

/-! ## Snake case settles a name

A name in snake case is a name again: no capital is left in it, and it is no word of the language,
since a word of the language is told apart by a low line at its end. Neither step undoes the other.
Low lines are put in front of capitals only, so there is no place for one in small letters, and no
word of the language is another one with a low line behind it.
-/

namespace Errata

open Syntax (IsName isNameChar)

/-! ### Words -/

/-- No word starts within small letters. -/
theorem isWordStart_of_small {before : Char} {rest : List Char}
    (h : ∀ c ∈ rest, c.isUpper = false) : isWordStart before rest = false := by
  match rest with
  | [] => rfl
  | [c] => rw [isWordStart, h c (List.mem_singleton_self c), Bool.false_and]
  | c :: d :: rest => rw [isWordStart, h c List.mem_cons_self, Bool.false_and]

/-- A name without capitals is one word. -/
theorem splitWords_of_small {name : List Char} (h : ∀ c ∈ name, c.isUpper = false) :
    splitWords name = name := by
  induction name with
  | nil => rfl
  | cons c rest ih =>
    obtain ⟨-, hrest⟩ := List.forall_mem_cons.mp h
    rw [splitWords, isWordStart_of_small hrest, if_neg Bool.false_ne_true, ih hrest]

/-- The words of a name differ from it in low lines only. -/
theorem filter_splitWords (name : List Char) :
    (splitWords name).filter (· ≠ '_') = name.filter (· ≠ '_') := by
  induction name with
  | nil => rfl
  | cons c rest ih =>
    have hlow : ('_' :: splitWords rest).filter (· ≠ '_') = (splitWords rest).filter (· ≠ '_') :=
      List.filter_cons_of_neg (by simp)
    rw [splitWords]
    split
    · rw [List.filter_cons, hlow, ih, List.filter_cons]
    · rw [List.filter_cons, ih, List.filter_cons]

/-- Cutting a name into words leaves its first character where it is. -/
theorem exists_splitWords_cons (c : Char) (rest : List Char) :
    ∃ others, splitWords (c :: rest) = c :: others := by
  rw [splitWords]
  split
  · exact ⟨_, rfl⟩
  · exact ⟨_, rfl⟩

/-! ### Small letters -/

/-- What is no capital stays as it is in lower case. -/
theorem toLower_of_small {c : Char} (h : c.isUpper = false) : c.toLower = c := by
  unfold Char.toLower
  rw [dif_neg]
  exact of_decide_eq_false h

/-- Low lines can be left out before or after a name is put in lower case. -/
theorem filter_map_toLower {name : List Char} (h : ∀ c ∈ name, isNameChar c = true) :
    (name.map Char.toLower).filter (· ≠ '_') = (name.filter (· ≠ '_')).map Char.toLower := by
  rw [List.filter_map]
  congr 1
  refine List.filter_congr fun c hc => ?_
  simp [(isLowered_of_isNameChar (h c hc)).lowLine]

/-! ### Words of the language -/

/-- Whether the text is a word of the language, everywhere or in some places. -/
def isLanguageWord (text : String) : Bool :=
  isKeyword text || softKeywords.contains text

/-- No word of the language is another one with a low line behind it. -/
theorem isLanguageWord_append {text : String} (h : isLanguageWord text = true) :
    isLanguageWord (text ++ "_") = false := by
  have hall : ∀ word ∈ keywords ++ softKeywords, isLanguageWord (word ++ "_") = false := by decide
  refine hall text (List.mem_append.mpr ?_)
  simpa [isLanguageWord, isKeyword] using h

/-! ### Snake case -/

/-- The words of a name in small letters. -/
def smallWords (name : List Char) : List Char :=
  (splitWords name).map Char.toLower

/-- A name in small words is a name. -/
theorem isName_smallWords {name : List Char} (h : IsName name) : IsName (smallWords name) := by
  obtain ⟨first, rest, rfl, hfirst, hrest⟩ := h
  obtain ⟨others, hothers⟩ := exists_splitWords_cons first rest
  have hchar := Syntax.isNameChar_of_isNameStart hfirst
  have hall := isNameChar_splitWords (List.forall_mem_cons.mpr ⟨hchar, hrest⟩)
  rw [hothers] at hall
  refine ⟨first.toLower, others.map Char.toLower, by rw [smallWords, hothers]; rfl,
    (isLowered_of_isNameChar hchar).isNameStart hfirst, List.forall_mem_map.mpr fun c hc => ?_⟩
  exact (isLowered_of_isNameChar ((List.forall_mem_cons.mp hall).2 c hc)).isNameChar

/-- **The two ways to the snake case of a name**: its small words as they are, or with a low line
behind them if they are a word of the language. -/
theorem snakeCase_cases {name : String} (h : ∀ c ∈ name.toList, isNameChar c = true) :
    isLanguageWord (String.ofList (smallWords name.toList)) = false ∧
        snakeCase name = String.ofList (smallWords name.toList) ∨
      isLanguageWord (String.ofList (smallWords name.toList)) = true ∧
        snakeCase name = String.ofList (smallWords name.toList) ++ "_" := by
  have hwords := lowerCase_of_isNameChar (isNameChar_splitWords h)
  unfold snakeCase
  rw [hwords, ← smallWords]
  cases hword : isLanguageWord (String.ofList (smallWords name.toList)) with
  | false => exact .inl ⟨rfl, if_neg (by simpa [isLanguageWord] using hword)⟩
  | true => exact .inr ⟨rfl, if_pos hword⟩

/-- A text is settled as the name of a function: it is a name, without capitals, and no word of the
language. -/
structure IsSettled (text : String) : Prop where
  /-- It is spelled like a name. -/
  isName : IsName text.toList
  /-- No capital is in it. -/
  small : ∀ c ∈ text.toList, c.isUpper = false
  /-- It is no keyword. -/
  isKeyword : Errata.isKeyword text = false
  /-- It is no keyword in some places only. -/
  notMem_softKeywords : text ∉ softKeywords

/-- Settled texts are names without capitals that are no words of the language. -/
theorem IsSettled.of_words {text : String} (hname : IsName text.toList)
    (hsmall : ∀ c ∈ text.toList, c.isUpper = false) (hword : isLanguageWord text = false) :
    IsSettled text := by
  obtain ⟨hkeyword, hsoft⟩ := Bool.or_eq_false_iff.mp hword
  exact ⟨hname, hsmall, hkeyword, by simpa using hsoft⟩

/-- A settled text is no word of the language. -/
theorem IsSettled.isLanguageWord {text : String} (h : IsSettled text) :
    Errata.isLanguageWord text = false :=
  Bool.or_eq_false_iff.mpr ⟨h.isKeyword, by simpa using h.notMem_softKeywords⟩

/-- A settled name is in snake case. -/
theorem snakeCase_of_settled {name : String} (h : IsSettled name) : snakeCase name = name := by
  have hsame : smallWords name.toList = name.toList := by
    rw [smallWords, splitWords_of_small h.small]
    exact (List.map_congr_left fun c hc => toLower_of_small (h.small c hc)).trans (List.map_id _)
  have hcases := snakeCase_cases h.isName.isNameChar
  rw [hsame, String.ofList_toList, h.isLanguageWord] at hcases
  simpa using hcases

/-- The snake case of a name is settled. -/
theorem isSettled_snakeCase {name : String} (h : IsName name.toList) :
    IsSettled (snakeCase name) := by
  have hname := isName_smallWords h
  have hsmall : ∀ c ∈ smallWords name.toList, c.isUpper = false :=
    List.forall_mem_map.mpr fun c hc =>
      (isLowered_of_isNameChar (isNameChar_splitWords h.isNameChar c hc)).isUpper
  obtain ⟨hword, heq⟩ | ⟨hword, heq⟩ := snakeCase_cases h.isNameChar
  · rw [heq]
    exact .of_words (by rwa [String.toList_ofList]) (by rwa [String.toList_ofList]) hword
  · rw [heq]
    refine .of_words ?_ ?_ (isLanguageWord_append hword)
    · obtain ⟨first, rest, hcons, hfirst, hrest⟩ := hname
      rw [String.toList_append, String.toList_ofList, hcons]
      exact ⟨first, rest ++ ['_'], rfl, hfirst,
        List.forall_mem_append.mpr ⟨hrest, List.all_eq_true.mp rfl⟩⟩
    · have hlow : ∀ c ∈ ['_'], c.isUpper = false := List.forall_mem_singleton.mpr rfl
      rw [String.toList_append, String.toList_ofList]
      exact List.forall_mem_append.mpr ⟨hsmall, hlow⟩

/-- Snake case changes nothing of a name but its capitals and its low lines. -/
theorem filter_snakeCase {name : String} (h : ∀ c ∈ name.toList, isNameChar c = true) :
    (snakeCase name).toList.filter (· ≠ '_') =
      (Unicode.lowerCase name.toList).filter (· ≠ '_') := by
  have hwords : (smallWords name.toList).filter (· ≠ '_') =
      (Unicode.lowerCase name.toList).filter (· ≠ '_') := by
    rw [lowerCase_of_isNameChar h, smallWords, filter_map_toLower (isNameChar_splitWords h),
      filter_splitWords, filter_map_toLower h]
  obtain ⟨-, heq⟩ | ⟨-, heq⟩ := snakeCase_cases h
  · rw [heq, String.toList_ofList, hwords]
  · rw [heq, String.toList_append, String.toList_ofList, List.filter_append, hwords]
    exact List.append_nil _

/-- **Snake case settles a name.** It is a name without capitals that is no word of the language, it
has the characters of the name in lower case apart from low lines, and it stays as it is when it is
put in snake case again. -/
theorem snakeCase_settles (name : String) (h : IsName name.toList) :
    IsName (snakeCase name).toList ∧
      (∀ c ∈ (snakeCase name).toList, c.isUpper = false) ∧
      isKeyword (snakeCase name) = false ∧
      snakeCase name ∉ softKeywords ∧
      (snakeCase name).toList.filter (· ≠ '_') =
        (Unicode.lowerCase name.toList).filter (· ≠ '_') ∧
      snakeCase (snakeCase name) = snakeCase name := by
  have hsettled := isSettled_snakeCase h
  exact ⟨hsettled.isName, hsettled.small, hsettled.isKeyword, hsettled.notMem_softKeywords,
    filter_snakeCase h.isNameChar, snakeCase_of_settled hsettled⟩

/-- A name of one word that is a keyword in small letters. -/
theorem snakeCase_settles_class :
    IsName "Class".toList ∧ snakeCase "Class" = "class_" ∧
      snakeCase (snakeCase "Class") = "class_" := by
  have hname : IsName "Class".toList :=
    ⟨'C', ['l', 'a', 's', 's'], rfl, rfl, List.all_eq_true.mp rfl⟩
  have hsnake : snakeCase "Class" = "class_" := by decide +kernel
  obtain ⟨-, -, -, -, -, hagain⟩ := snakeCase_settles "Class" hname
  exact ⟨hname, hsnake, hagain.trans hsnake⟩

end Errata
