import Errata.Proofs.Outcome
import Errata.Proofs.Syntax.Tokens

/-!
# Where keywords end

A keyword could also be a name, or the start of one. The scanner tells them apart by the longest
lexeme if the automaton accepts a name as well. If it does not, the scanner looks for the keyword
alone, and finds it at the start of a longer word too; the rest of that word is then the next token.
It is asked for a token in the states that are reached by shifting the one before. So the token
before a keyword decides whether the keyword has to be a whole word.

* `Terminal.IsKeyword`: the terminals that could be names.
* `statesBehind`: the states in which the scanner is asked for the token behind another one.
* `IsChain`, **`isChain_of_parse`**: the tokens of a source are found in such states.
* `ReadsWords`, `name_mem_accepted_iff`: the tokens behind which a name is accepted along with a
  keyword.
* **`keyword_ends`**: behind which tokens a keyword is a whole word.
* `not_keyword_ends`: a keyword that goes on as a name.
-/

namespace Errata.Syntax

/-- Whether lexemes of the terminal could be names. -/
def Terminal.IsKeyword (t : Terminal) : Prop :=
  t.wider? = some .name

instance : DecidablePred Terminal.IsKeyword := fun t => decEq t.wider? (some .name)

/-- Every terminal is listed. -/
theorem Terminal.mem_all (t : Terminal) : t ∈ all := by
  cases t <;> decide

/-! ### States behind tokens -/

/-- The states in which the scanner is asked for the first token, or for the token behind another
one: those that are reached by shifting that one. -/
def statesBehind : Option Terminal → List Nat
  | none => [0]
  | some t => (edges.filter fun e => e.symbol = .t t).map Edge.target

/-- Shifting a token leads to a state behind it. -/
theorem mem_statesBehind_of_shifts {index target : Nat} {t : Terminal}
    (h : (state index).shifts.lookup t = some target) : target ∈ statesBehind (some t) :=
  List.mem_map.mpr ⟨_, List.mem_filter.mpr ⟨mem_edges_of_shifts h, decide_eq_true rfl⟩, rfl⟩

/-- What holds of all states behind tokens. -/
theorem forall_statesBehind {P : Option Terminal → Nat → Prop}
    (h : ∀ prev ∈ none :: Terminal.all.map some, ∀ q ∈ statesBehind prev, P prev q)
    {prev : Option Terminal} {q : Nat} (hq : q ∈ statesBehind prev) : P prev q := by
  refine h prev ?_ q hq
  cases prev with
  | none => exact List.mem_cons_self
  | some t => exact List.mem_cons_of_mem _ (List.mem_map_of_mem t.mem_all)

/-- The tokens behind which keywords are whole words: the closing bracket of an attribute, and the
dots before a module. -/
def ReadsWords (prev : Option Terminal) : Prop :=
  prev = some .rightBracket ∨ prev = some .relative

instance : DecidablePred ReadsWords := fun _ => inferInstanceAs (Decidable (_ ∨ _))

/-- **A name is accepted along with a keyword** behind those tokens and behind no others. -/
theorem name_mem_accepted_iff {prev : Option Terminal} {q : Nat} (hq : q ∈ statesBehind prev)
    {k : Terminal} (hk : k.IsKeyword) (haccepted : k ∈ (state q).accepted) :
    .name ∈ (state q).accepted ↔ ReadsWords prev := by
  have hall : ∀ prev ∈ none :: Terminal.all.map some, ∀ q ∈ statesBehind prev,
      ∀ k ∈ (state q).accepted, k.IsKeyword → (.name ∈ (state q).accepted ↔ ReadsWords prev) := by
    decide +kernel
  exact forall_statesBehind hall hq k haccepted hk

/-- What is accepted behind a keyword: a name, the word that says what is declared, a parenthesis or
dots. -/
theorem accepted_behind_keyword {k : Terminal} (hk : k.IsKeyword) {q : Nat}
    (hq : q ∈ statesBehind (some k)) {t : Terminal} (ht : t ∈ (state q).accepted) :
    t = .name ∨ k = .visibility ∧ t ∈ [.structWord, .unionWord, .enumWord] ∨
      t ∈ [.leftParen, .relative] := by
  have hall : ∀ k ∈ Terminal.all, k.IsKeyword → ∀ q ∈ statesBehind (some k),
      ∀ t ∈ (state q).accepted, t = .name ∨
        k = .visibility ∧ t ∈ [.structWord, .unionWord, .enumWord] ∨
          t ∈ [.leftParen, .relative] := by
    decide +kernel
  exact hall k k.mem_all hk q hq t ht

/-- Whether a token is found in a state behind the one before it, from where that one ends. -/
def IsReadBehind (source : List Char) (prev : Option Token) (t : Token) : Prop :=
  ∃ q ∈ statesBehind (prev.map Token.terminal), ∃ before rest after, source = before ++ rest ∧
    (prev.map fun s => s.extent.stop).getD {} = .ofPrefix before ∧
      scan (state q).accepted (.ofPrefix before) rest = .token t after

/-- Whether each token is found in a state behind the one before it. -/
inductive IsChain (source : List Char) : List Token → Prop where
  /-- Nothing. -/
  | nil : IsChain source []
  /-- Another token. -/
  | snoc {ts : List Token} {t : Token} (h : IsChain source ts)
      (ht : IsReadBehind source ts.getLast? t) : IsChain source (ts ++ [t])

/-- A token of a chain is found behind the one before it. -/
theorem IsChain.isReadBehind {source : List Char} {ts front others : List Token} {t : Token}
    (h : IsChain source ts) (hts : ts = front ++ t :: others) :
    IsReadBehind source front.getLast? t := by
  induction h generalizing others with
  | nil => simp at hts
  | @snoc ts last h hlast ih =>
    rcases List.eq_nil_or_concat others with rfl | ⟨others, last', rfl⟩
    · obtain ⟨rfl, hone⟩ := List.append_inj' hts rfl
      cases hone
      exact hlast
    · rw [List.concat_eq_append, ← List.cons_append, ← List.append_assoc] at hts
      exact ih (List.append_inj' hts rfl).1

/-- Whether the tokens read so far are a chain, which the state goes on with. -/
structure Config.IsChain (source : List Char) (c : Config) (ts : List Token) : Prop where
  /-- They are a chain. -/
  chain : Syntax.IsChain source ts
  /-- What is left is read from where the last one ends. -/
  passed : ∃ passed, source = passed ++ c.rest ∧ c.position = .ofPrefix passed
  /-- That is the position. -/
  position : c.position = (ts.getLast?.map fun s => s.extent.stop).getD {}
  /-- A token that is read is the last one. -/
  lookahead : ∀ t, c.lookahead = some (some t) → ts.getLast? = some t
  /-- Before another one is read, the state is one behind the last one. -/
  state : c.lookahead = none → topState c.stack ∈ statesBehind (ts.getLast?.map Token.terminal)

/-- **Every step goes on with the chain.** -/
theorem Effect.isChain {source : List Char} {c d : Config} {ts : List Token}
    (h : Effect c (.next d)) (hc : c.IsChain source ts) :
    d.IsChain source (ts ++ if c.lookahead = none then d.lookahead.join.toList else []) := by
  obtain ⟨passed, hsource, hposition⟩ := hc.passed
  cases h with
  | @read t rest hl hscan =>
    rw [if_pos hl]
    obtain ⟨gap, hrest, hextent, -⟩ := scan_token_at hscan c.position
    have hread : IsReadBehind source ts.getLast? t :=
      ⟨_, hc.state hl, passed, c.rest, rest, hsource, hc.position.symm.trans hposition,
        hposition ▸ hscan⟩
    refine ⟨.snoc hc.chain hread, ⟨passed ++ (gap ++ t.text), ?_, ?_⟩, ?_, ?_, nofun⟩
    · rw [hsource, hrest]
      simp
    · rw [hextent, hposition]
      exact Position.advance_ofPrefix _ _
    · rw [Option.join_some, Option.toList_some, List.getLast?_concat]
      rfl
    · intro s hs
      cases hs
      exact List.getLast?_concat
  | readEnd hl hscan =>
    rw [if_pos hl, Option.join_some, Option.toList_none, List.append_nil]
    exact ⟨hc.chain, ⟨passed, hsource, hposition⟩, hc.position, nofun, nofun⟩
  | reduce hl =>
    rw [if_neg (by simp [hl]), List.append_nil]
    exact ⟨hc.chain, ⟨passed, hsource, hposition⟩, hc.position, hc.lookahead,
      fun hnone => by cases hl.symm.trans hnone⟩
  | @shift t target hl hk hshift =>
    rw [if_neg (by simp [hl]), List.append_nil]
    refine ⟨hc.chain, ⟨passed, hsource, hposition⟩, hc.position, nofun, fun _ => ?_⟩
    rw [hc.lookahead t hl]
    exact mem_statesBehind_of_shifts hshift

/-- **The tokens of a parsed source** are found in states behind the tokens before them. -/
theorem isChain_of_parse {source : List Char} {tree : Tree} (h : parse source = .ok tree) :
    IsChain source (tokens source) := by
  obtain ⟨d, hd, -⟩ := exists_done_of_parse_tokens (P := Config.IsChain source)
    (fun _ heffect hc => heffect.isChain hc)
    ⟨.nil, ⟨[], rfl, rfl⟩, rfl, nofun, fun _ => List.mem_singleton_self 0⟩ h
  exact hd.chain

/-! ### Scanning for keywords -/

section

variable {accepted : List Terminal} {p : Position}

/-- The terminal of a lexeme is the one it was found for, or one that this one is wider than. -/
theorem narrowed_cases (accepted : List Terminal) (t : Terminal) (lexeme : List Char) :
    narrowed accepted t lexeme = t ∨
      narrowed accepted t lexeme ∈ accepted ∧ (narrowed accepted t lexeme).wider? = some t := by
  unfold narrowed
  cases hfound : accepted.find? fun s => s.wider? = some t && s.fixedText? = some lexeme with
  | none => exact Or.inl rfl
  | some s =>
    have hs := List.find?_some hfound
    simp only [Bool.and_eq_true, decide_eq_true_eq] at hs
    exact Or.inr ⟨List.mem_of_find?_eq_some hfound, hs.1⟩

/-- What the scanner tries is accepted, and nothing wider is. -/
theorem mem_tried {t : Terminal} :
    t ∈ tried accepted ↔ t ∈ accepted ∧ ∀ w, t.wider? = some w → w ∉ accepted := by
  rw [tried, List.mem_filter, Bool.and_eq_true, decide_eq_true_eq, Bool.not_eq_true',
    Option.any_eq_false]
  simp [t.mem_all]

/-- The lexeme of a token that is found. -/
theorem exists_lexeme_of_scan {chars rest : List Char} {t : Token}
    (h : scan accepted p chars = .token t rest) :
    ∃ gap s, IsGap gap ∧ chars = gap ++ (t.text ++ rest) ∧ s ∈ tried accepted ∧
      s.lexeme? (t.text ++ rest) = some (t.text, rest) ∧
        t.terminal = narrowed accepted s t.text := by
  obtain ⟨gap, hgap, hchars, hfirst⟩ := scan_eq_token_iff.mp h
  obtain ⟨s, hs, hfound⟩ := List.exists_of_findSome?_eq_some hfirst
  obtain ⟨⟨lexeme, rest'⟩, hlexeme, heq⟩ := Option.map_eq_some_iff.mp hfound
  cases heq
  exact ⟨gap, s, hgap, hchars, hs, hlexeme, rfl⟩

/-- A token that is found is accepted. -/
theorem terminal_mem_of_scan {chars rest : List Char} {t : Token}
    (h : scan accepted p chars = .token t rest) : t.terminal ∈ accepted := by
  obtain ⟨_, s, -, -, hs, -, hterminal⟩ := exists_lexeme_of_scan h
  rw [hterminal]
  rcases narrowed_cases accepted s t.text with heq | ⟨hmem, -⟩
  · rw [heq]
    exact (mem_tried.mp hs).1
  · exact hmem

/-- The lexeme of a name is as long as can be. -/
theorem lexeme?_name {chars lexeme rest : List Char}
    (h : Terminal.name.lexeme? chars = some (lexeme, rest)) :
    lexeme = chars.takeWhile isNameChar ∧ rest = chars.dropWhile isNameChar := by
  cases chars with
  | nil => cases h
  | cons c chars =>
    simp only [Terminal.lexeme?] at h
    split at h
    · exact Prod.mk.inj (Option.some.inj h.symm)
    · cases h

/-- **Where a name is accepted as well, a keyword is a whole word.** -/
theorem not_isNameChar_of_scan {chars rest : List Char} {t : Token}
    (h : scan accepted p chars = .token t rest) (hk : t.terminal.IsKeyword)
    (hname : .name ∈ accepted) {c : Char} (hc : rest.head? = some c) : isNameChar c = false := by
  obtain ⟨_, s, -, -, hs, hlexeme, hterminal⟩ := exists_lexeme_of_scan h
  obtain rfl : s = .name := by
    rcases narrowed_cases accepted s t.text with heq | ⟨-, hwider⟩
    · rw [hterminal, heq] at hk
      exact absurd hname ((mem_tried.mp hs).2 _ hk)
    · rw [← hterminal] at hwider
      exact Option.some.inj (hwider.symm.trans hk)
  rw [(lexeme?_name hlexeme).2] at hc
  have hstop := List.head?_dropWhile_not isNameChar (t.text ++ rest)
  rw [hc] at hstop
  exact hstop

/-- No other lexeme than that of a name starts as a keyword does. -/
theorem lexeme?_keyword_eq_none {k s : Terminal} (hk : k.IsKeyword) (hne : s ≠ k)
    (hname : s ≠ .name) {text : List Char} (htext : k.fixedText? = some text) (rest : List Char) :
    s.lexeme? (text ++ rest) = none := by
  cases k <;> simp [Terminal.IsKeyword, Terminal.wider?] at hk <;>
    simp only [Terminal.fixedText?, Option.some.injEq] at htext <;> subst htext <;>
    cases s <;> simp_all [Terminal.lexeme?, Terminal.fixedText?, splitPrefix?, spanNonempty]

/-- A keyword could be a name. -/
theorem isNameChar_of_keyword {k : Terminal} (hk : k.IsKeyword) {text : List Char}
    (htext : k.fixedText? = some text) :
    (∀ c ∈ text, isNameChar c = true) ∧ ∃ c more, text = c :: more ∧ isNameStart c = true := by
  cases k <;> simp [Terminal.IsKeyword, Terminal.wider?] at hk <;>
    simp only [Terminal.fixedText?, Option.some.injEq] at htext <;> subst htext <;>
    exact ⟨List.all_eq_true.mp rfl, _, _, rfl, rfl⟩

/-- The lexeme of a name ends before a character that may not stand in a name. -/
theorem lexeme?_name_append {text rest : List Char} (htext : ∀ c ∈ text, isNameChar c = true)
    (hstart : ∃ c more, text = c :: more ∧ isNameStart c = true)
    (hrest : ∀ c, rest.head? = some c → isNameChar c = false) :
    Terminal.name.lexeme? (text ++ rest) = some (text, rest) := by
  have hsplit : splitWhile isNameChar (text ++ rest) = (text, rest) := by
    rw [splitWhile, List.takeWhile_append_of_pos htext, List.dropWhile_append_of_pos htext]
    cases rest with
    | nil => simp
    | cons d rest => simp [hrest d rfl]
  obtain ⟨c, more, rfl, hc⟩ := hstart
  rw [List.cons_append] at hsplit ⊢
  rw [Terminal.lexeme?, if_pos hc, hsplit]

/-- Nothing is narrower than a keyword. -/
theorem narrowed_keyword {k : Terminal} (hk : k.IsKeyword) (text : List Char) :
    narrowed accepted k text = k := by
  rcases narrowed_cases accepted k text with heq | ⟨-, hwider⟩
  · exact heq
  · generalize narrowed accepted k text = s at hwider
    cases s <;> simp [Terminal.wider?] at hwider <;> subst hwider <;> cases hk

/-- A name that is the text of a keyword is that keyword. -/
theorem narrowed_name {k : Terminal} (hk : k.IsKeyword) (haccepted : k ∈ accepted)
    {text : List Char} (htext : k.fixedText? = some text) : narrowed accepted .name text = k := by
  have hunique : ∀ s t : Terminal, s.IsKeyword → t.IsKeyword → s.fixedText? = t.fixedText? →
      s = t := by
    intro s t hs ht
    cases s <;> simp [Terminal.IsKeyword, Terminal.wider?] at hs <;>
      cases t <;> simp [Terminal.IsKeyword, Terminal.wider?] at ht <;> decide
  unfold narrowed
  cases hfound : accepted.find? fun s => s.wider? = some .name && s.fixedText? = some text with
  | none =>
    have hk' := List.find?_eq_none.mp hfound k haccepted
    simp only [Bool.and_eq_true, decide_eq_true_eq] at hk'
    exact absurd ⟨hk, htext⟩ hk'
  | some s =>
    have hs := List.find?_some hfound
    simp only [Bool.and_eq_true, decide_eq_true_eq] at hs
    exact hunique s k hs.1 hk (hs.2.trans htext.symm)

/-- A token is found for the terminal that its lexeme is found for, if all others fail. -/
theorem firstToken_of_forall {s : Terminal} (hs : s ∈ tried accepted)
    {chars lexeme rest : List Char}
    (hlexeme : s.lexeme? chars = some (lexeme, rest))
    (hothers : ∀ r ∈ tried accepted, r ≠ s → r.lexeme? chars = none) :
    firstToken accepted p chars =
      some (⟨narrowed accepted s lexeme, lexeme, p, p.advance lexeme⟩, rest) := by
  obtain ⟨before, after, hsplit, hbefore⟩ := List.eq_append_cons_of_mem hs
  refine List.findSome?_eq_some_iff.mpr ⟨before, s, after, hsplit, ?_, fun r hr => ?_⟩
  · rw [hlexeme]
    rfl
  · have hmem : r ∈ tried accepted := hsplit ▸ List.mem_append_left _ hr
    rw [hothers r hmem (ne_of_mem_of_not_mem hr hbefore)]
    rfl

/-- **When a keyword is found**: whatever stands behind it, unless a name is accepted as well and
the keyword goes on as one. -/
theorem scan_keyword_iff {k : Terminal} (hk : k.IsKeyword) (haccepted : k ∈ accepted)
    {text : List Char} (htext : k.fixedText? = some text) (rest : List Char) :
    (∃ t, scan accepted p (text ++ rest) = .token t rest ∧ t.terminal = k) ↔
      (.name ∈ accepted → ∀ c, rest.head? = some c → isNameChar c = false) := by
  constructor
  · rintro ⟨t, hscan, rfl⟩ hname c hc
    exact not_isNameChar_of_scan hscan hk hname hc
  · intro hrest
    obtain ⟨hchars, hstart⟩ := isNameChar_of_keyword hk htext
    refine ⟨⟨k, text, p, p.advance text⟩, scan_eq_token_iff.mpr ⟨[], .nil, rfl, ?_⟩, rfl⟩
    by_cases hname : .name ∈ accepted
    · have hspan := lexeme?_name_append hchars hstart (hrest hname)
      have htried : .name ∈ tried accepted := mem_tried.mpr ⟨hname, fun w hw => by cases hw⟩
      have hfirst := firstToken_of_forall (p := p) htried hspan fun r hr hne => by
        refine lexeme?_keyword_eq_none hk ?_ hne htext rest
        rintro rfl
        exact (mem_tried.mp hr).2 _ hk hname
      rwa [narrowed_name hk haccepted htext] at hfirst
    · have hspan : k.lexeme? (text ++ rest) = some (text, rest) := by
        rw [lexeme?_of_fixedText? htext]
        exact splitPrefix?_append text rest
      have htried : k ∈ tried accepted := by
        refine mem_tried.mpr ⟨haccepted, fun w hw => ?_⟩
        obtain rfl : w = .name := Option.some.inj (hw.symm.trans hk)
        exact hname
      have hfirst := firstToken_of_forall (p := p) htried hspan fun r hr hne => by
        refine lexeme?_keyword_eq_none hk hne ?_ htext rest
        rintro rfl
        exact hname (mem_tried.mp hr).1
      rwa [narrowed_keyword hk text] at hfirst

end

/-! ### Sources -/

/-- An identifier character stands at the start of no gap. -/
theorem isSeparator_of_isNameChar {c : Char} (hc : isNameChar c = true) :
    isSeparator c = false := by
  rw [← Bool.not_eq_true]
  intro hs
  cases hc.symm.trans (isNameChar_of_isSeparator hs)

/-- What starts with an identifier character does not start with a gap. -/
theorem eq_nil_of_isGap {gap rest : List Char} (hgap : IsGap gap) {c : Char}
    (hc : isNameChar c = true) (hhead : (gap ++ rest).head? = some c) : gap = [] := by
  rcases hgap.eq_nil_or_cons with rfl | ⟨s, more, rfl, hs⟩
  · rfl
  · cases hhead
    cases hs.symm.trans (isSeparator_of_isNameChar hc)

section

variable {source : List Char} {c : Char}

/-- **A keyword before an identifier character** does not follow a token behind which keywords are
whole words. -/
theorem not_readsWords_of_isReadBehind {prev : Option Token} {t : Token}
    (h : IsReadBehind source prev t) (hk : t.terminal.IsKeyword)
    (hnext : source[t.extent.stop.offset]? = some c) (hc : isNameChar c = true) :
    ¬ReadsWords (prev.map Token.terminal) := by
  obtain ⟨q, hq, before, rest, after, rfl, -, hscan⟩ := h
  obtain ⟨gap, rfl, hextent, -⟩ := scan_token_at hscan (.ofPrefix before)
  have hstop : t.extent.stop.offset = (before ++ gap ++ t.text).length := by
    rw [hextent, List.append_assoc, ← Position.offset_ofPrefix, ← Position.advance_ofPrefix]
  have hhead : after.head? = some c := by
    rw [hstop, ← List.head?_drop, ← List.append_assoc, ← List.append_assoc, List.drop_left] at hnext
    exact hnext
  rw [← name_mem_accepted_iff hq hk (terminal_mem_of_scan hscan)]
  intro hname
  cases hc.symm.trans (not_isNameChar_of_scan hscan hk hname hhead)

/-- Parentheses and dots start with no identifier character. -/
theorem isNameChar_of_lexeme? {t : Terminal} (ht : t ∈ [.leftParen, .relative])
    {chars lexeme rest : List Char} (h : t.lexeme? chars = some (lexeme, rest))
    (hhead : chars.head? = some c) : isNameChar c = false := by
  obtain ⟨more, rfl⟩ := List.head?_eq_some_iff.mp hhead
  rcases List.mem_pair.mp ht with rfl | rfl
  · rw [lexeme?_of_fixedText? rfl] at h
    obtain ⟨heq, hlexeme⟩ := splitPrefix?_eq_some h
    rw [hlexeme] at heq
    cases heq
    decide
  · by_cases hdot : (c == '.') = true
    · rw [beq_iff_eq] at hdot
      subst hdot
      decide
    · simp [Terminal.lexeme?, spanNonempty, hdot] at h

/-- **What is found behind a keyword** before an identifier character starts with it. -/
theorem isWord_of_isReadBehind {t next : Token} (h : IsReadBehind source (some t) next)
    (hk : t.terminal.IsKeyword) (hnext : source[t.extent.stop.offset]? = some c)
    (hc : isNameChar c = true) :
    next.extent.start = t.extent.stop ∧ (next.terminal = .name ∨
      t.terminal = .visibility ∧ next.terminal ∈ [.structWord, .unionWord, .enumWord]) := by
  obtain ⟨q, hq, before, rest, after, rfl, hstop, hscan⟩ := h
  have hstop : t.extent.stop = .ofPrefix before := hstop
  have hhead : rest.head? = some c := by
    rw [hstop, Position.offset_ofPrefix, ← List.head?_drop, List.drop_left] at hnext
    exact hnext
  obtain ⟨gap, hgap, hrest, hfirst⟩ := scan_eq_token_iff.mp hscan
  obtain rfl := eq_nil_of_isGap hgap hc (hrest ▸ hhead)
  refine ⟨by rw [extent_of_firstToken hfirst, hstop]; rfl, ?_⟩
  rcases accepted_behind_keyword hk hq (terminal_mem_of_scan hscan) with hname | hdeclares | hother
  · exact Or.inl hname
  · exact Or.inr hdeclares
  · obtain ⟨_, s, -, -, -, hlexeme, hterminal⟩ := exists_lexeme_of_scan hscan
    have hs : next.terminal = s := by
      rcases narrowed_cases (state q).accepted s next.text with heq | ⟨-, hwider⟩
      · exact hterminal.trans heq
      · rw [← hterminal] at hwider
        rcases List.mem_pair.mp hother with heq | heq <;> rw [heq] at hwider <;> cases hwider
    rw [← hs] at hlexeme
    have hhead' : (next.text ++ after).head? = some c := hrest ▸ hhead
    cases hc.symm.trans (isNameChar_of_lexeme? hother hlexeme hhead')

/-- Behind the last token no identifier character stands. -/
theorem exists_cons_of_isNameChar {tree : Tree} (h : parse source = .ok tree)
    {front others : List Token} {t : Token} (htokens : tokens source = front ++ t :: others)
    (hnext : source[t.extent.stop.offset]? = some c) (hc : isNameChar c = true) :
    ∃ next more, others = next :: more := by
  refine List.exists_cons_of_ne_nil fun hnil => ?_
  obtain ⟨text, tail, hsource, hlaid, htail⟩ := isLaidOut_of_parse h
  have hlast : (tokens source).getLast? = some t := by
    rw [htokens, hnil, List.getLast?_concat]
  rw [hlaid.stop_getLast? hlast, hsource, ← List.head?_drop, List.drop_left] at hnext
  rcases htail.eq_nil_or_cons with rfl | ⟨s, rest, rfl, hs⟩
  · cases hnext
  · cases hnext
    cases hs.symm.trans (isSeparator_of_isNameChar hc)

end

/-- **Behind which tokens a keyword is a whole word.** In a source that is parsed, an identifier
character may stand directly behind a keyword unless that keyword follows the closing bracket of an
attribute or the dots before a module. Then the next token starts with that character. The scanner
finds a keyword in all states that accept it, whatever stands behind it, but for those behind such a
bracket or such dots, where it must not go on as a name. -/
theorem keyword_ends {k : Terminal} (hk : k.IsKeyword) :
    (∀ {source : List Char} {tree : Tree} {front others : List Token} {t : Token} {c : Char},
      parse source = .ok tree → tokens source = front ++ t :: others → t.terminal = k →
        source[t.extent.stop.offset]? = some c → isNameChar c = true →
          ¬ReadsWords (front.getLast?.map Token.terminal) ∧
            ∃ next more, others = next :: more ∧ next.extent.start = t.extent.stop ∧
              (next.terminal = .name ∨ k = .visibility ∧
                next.terminal ∈ [.structWord, .unionWord, .enumWord])) ∧
      ∀ {prev : Option Terminal} {q : Nat} {text : List Char}, q ∈ statesBehind prev →
        k ∈ (state q).accepted → k.fixedText? = some text → ∀ (p : Position) (rest : List Char),
          ((∃ t, scan (state q).accepted p (text ++ rest) = .token t rest ∧ t.terminal = k) ↔
            (ReadsWords prev → ∀ c, rest.head? = some c → isNameChar c = false)) := by
  refine ⟨?_, fun hq haccepted htext p rest => ?_⟩
  · intro source tree front others t c hparse htokens ht hnext hc
    subst ht
    have hchain := isChain_of_parse hparse
    refine ⟨not_readsWords_of_isReadBehind (hchain.isReadBehind htokens) hk hnext hc, ?_⟩
    obtain ⟨next, more, rfl⟩ := exists_cons_of_isNameChar hparse htokens hnext hc
    have hread := hchain.isReadBehind (htokens.trans (List.append_cons front t (next :: more)))
    rw [List.getLast?_concat] at hread
    exact ⟨next, more, rfl, isWord_of_isReadBehind hread hk hnext hc⟩
  · rw [scan_keyword_iff hk haccepted htext, name_mem_accepted_iff hq hk haccepted]

/-- The declaration of `E` without a blank behind the keyword. -/
theorem keyword_ends_enum :
    ∃ tree t next more, parse "enumE\x7b\x7d".toList = .ok tree ∧
      tokens "enumE\x7b\x7d".toList = t :: next :: more ∧ t.terminal = .enumWord ∧
        next.extent.start = t.extent.stop ∧ next.terminal = .name := by
  have hok : (parse "enumE\x7b\x7d".toList).toOption.isSome = true := by
    decide +kernel
  obtain ⟨tree, hparse⟩ := Option.isSome_iff_exists.mp hok
  rw [Outcome.toOption_eq_some_iff] at hparse
  have hfirst : ((tokens "enumE\x7b\x7d".toList).head?.any fun t =>
      t.terminal = .enumWord && t.extent.stop.offset = 4) = true := by
    decide +kernel
  obtain ⟨t, ht, hfirst⟩ := (Option.any_eq_true _ _).mp hfirst
  simp only [Bool.and_eq_true, decide_eq_true_eq] at hfirst
  obtain ⟨others, htokens⟩ := List.head?_eq_some_iff.mp ht
  have hnext : "enumE\x7b\x7d".toList[t.extent.stop.offset]? = some 'E' := by
    rw [hfirst.2]
    rfl
  have hfront : tokens "enumE\x7b\x7d".toList = [] ++ t :: others := htokens
  obtain ⟨-, next, more, rfl, hstart, hname | ⟨hpub, -⟩⟩ :=
    (keyword_ends (k := .enumWord) rfl).1 hparse hfront hfirst.1 hnext (by decide)
  · exact ⟨tree, t, next, more, hparse, htokens, hfirst.1, hstart, hname⟩
  · cases hpub

/-- **A keyword may be the start of a longer word**: a source with an identifier character directly
behind a keyword is parsed. -/
theorem not_keyword_ends :
    ¬∀ (source : List Char) (tree : Tree) (t : Token) (c : Char), parse source = .ok tree →
      t ∈ tokens source → t.terminal.IsKeyword → source[t.extent.stop.offset]? = some c →
        isNameChar c = false := by
  intro hall
  have hok : (parse "enumE\x7b\x7d".toList).toOption.isSome = true := by
    decide +kernel
  obtain ⟨tree, hparse⟩ := Option.isSome_iff_exists.mp hok
  rw [Outcome.toOption_eq_some_iff] at hparse
  have hfirst : ((tokens "enumE\x7b\x7d".toList).head?.any fun t =>
      t.terminal = .enumWord && t.extent.stop.offset = 4) = true := by
    decide +kernel
  obtain ⟨t, ht, hfirst⟩ := (Option.any_eq_true _ _).mp hfirst
  simp only [Bool.and_eq_true, decide_eq_true_eq] at hfirst
  have hnext : "enumE\x7b\x7d".toList[t.extent.stop.offset]? = some 'E' := by
    rw [hfirst.2]
    rfl
  have hfalse := hall _ tree t 'E' hparse (List.mem_of_head? ht)
    (show t.terminal.wider? = some .name by rw [hfirst.1]; rfl) hnext
  cases hfalse

end Errata.Syntax
