import Errata.Proofs.Syntax.Parser

/-!
# Moving tokens

Where tokens stand is of no concern to the parser. If all of them are moved, it reads, shifts and
reduces as before, and the parse tree is the same with its extents moved. An extent is moved at both
ends, so the extent of a node still reaches from its first to its last token.

* `Displacement`: where positions are moved to.
* `Tree.displace`: a tree with its tokens and its nodes moved.
* `Config.IsMoved`: configurations with the same symbols and the same next token, moved.
* **`next_of_isMoved`**, `done_of_isMoved`: a step that reads nothing does the same with tokens that
  were moved.
* `run_of_le`: a run that ends does so with more steps as well.
-/

namespace Errata.Syntax

/-- Where positions are moved to. An end of one token may be the start of another, and what was
between them may not be moved alike, so there are two maps. -/
structure Displacement where
  /-- Where the start of an extent is moved to. -/
  start : Position → Position
  /-- Where the stop of an extent is moved to. -/
  stop : Position → Position

variable (m : Displacement)

/-- An extent that is moved at both ends. -/
def Extent.displace (e : Extent) : Extent :=
  ⟨m.start e.start, m.stop e.stop⟩

/-- A token that is moved. -/
def Token.displace (t : Token) : Token :=
  { t with extent := t.extent.displace m }

/-- A tree that is moved. -/
def Tree.displace : Tree → Tree
  | leaf t => leaf (t.displace m)
  | node kind extent children => node kind (extent.map (Extent.displace m)) (displaceAll children)
where
  /-- Trees that are moved. -/
  displaceAll : List Tree → List Tree
    | [] => []
    | tree :: rest => displace tree :: displaceAll rest

/-- A fragment that is moved. -/
def Fragment.displace (f : Fragment) : Fragment where
  extent := f.extent.map (Extent.displace m)
  children := f.children.map (Tree.displace m)

/-- A symbol on the stack that is moved. -/
def Frame.displace (f : Frame) : Frame :=
  { f with fragment := f.fragment.displace m }

@[simp] theorem Token.terminal_displace (t : Token) : (t.displace m).terminal = t.terminal := rfl

@[simp] theorem Token.text_displace (t : Token) : (t.displace m).text = t.text := rfl

@[simp] theorem Frame.symbol_displace (f : Frame) : (f.displace m).symbol = f.symbol := rfl

@[simp] theorem Frame.state_displace (f : Frame) : (f.displace m).state = f.state := rfl

/-- Trees are moved one by one. -/
theorem Tree.displaceAll_eq_map (trees : List Tree) :
    displace.displaceAll m trees = trees.map (displace m) := by
  induction trees with
  | nil => rfl
  | cons tree trees ih => rw [displace.displaceAll, ih, List.map_cons]

/-- A node is moved with its children. -/
@[simp] theorem Tree.displace_node (kind : Kind) (extent : Option Extent) (children : List Tree) :
    (node kind extent children).displace m =
      node kind (extent.map (Extent.displace m)) (children.map (displace m)) := by
  rw [displace, displaceAll_eq_map]

/-- A leaf is moved with its token. -/
@[simp] theorem Tree.displace_leaf (t : Token) : (leaf t).displace m = leaf (t.displace m) := rfl

/-! ### Fragments -/

/-- The fragment of a token that is moved. -/
theorem Fragment.ofToken_displace (t : Token) :
    ofToken (t.displace m) = (ofToken t).displace m := by
  simp only [ofToken, displace, Token.terminal_displace, Option.map_some]
  by_cases hkept : t.terminal.isKept = true <;> simp [hkept, Token.displace]

/-- Extents that are moved reach from the first to the last as before. -/
theorem Fragment.joinExtents_displace (extents : List Extent) :
    joinExtents (extents.map (Extent.displace m)) =
      (joinExtents extents).map (Extent.displace m) := by
  simp only [joinExtents, List.head?_map, List.getLast?_map]
  cases extents.head? with
  | none => rfl
  | some first =>
    cases extents.getLast? with
    | none => rfl
    | some last => rfl

/-- **A fragment is put together** from parts that are moved as from the parts themselves. -/
theorem Fragment.combine_displace (kind : Option Kind) (parts : List Fragment) :
    combine kind (parts.map (displace m)) = (combine kind parts).displace m := by
  have hextents : (parts.map (displace m)).filterMap Fragment.extent =
      (parts.filterMap Fragment.extent).map (Extent.displace m) := by
    rw [List.filterMap_map, List.map_filterMap]
    rfl
  have hchildren : (parts.map (displace m)).flatMap Fragment.children =
      (parts.flatMap Fragment.children).map (Tree.displace m) := by
    rw [List.flatMap_map, List.map_flatMap]
    rfl
  cases kind with
  | none => simp only [combine, hextents, hchildren, joinExtents_displace, displace]
  | some kind =>
    simp only [combine, hextents, hchildren, joinExtents_displace, displace, List.map_cons,
      List.map_nil, Tree.displace_node]

/-! ### Steps -/

/-- Whether a configuration has the symbols and the next token of another, moved. -/
structure Config.IsMoved (c d : Config) : Prop where
  /-- The symbols. -/
  stack : d.stack = c.stack.map (Frame.displace m)
  /-- The next token. -/
  lookahead : d.lookahead = c.lookahead.map (Option.map (Token.displace m))

variable {m} {c d : Config}

/-- The state on top of a stack that is moved. -/
theorem topState_map_displace (stack : List Frame) :
    topState (stack.map (Frame.displace m)) = topState stack := by
  cases stack <;> rfl

/-- The state stays the same. -/
theorem Config.IsMoved.state_eq (h : c.IsMoved m d) : d.state = c.state := by
  show Syntax.state (topState d.stack) = Syntax.state (topState c.stack)
  rw [h.stack, topState_map_displace]

/-- The symbols on top of a stack are taken off it. -/
theorem popSymbols_append {symbols : List Symbol} {front : List Frame}
    (h : front.map Frame.symbol = symbols) (rest : List Frame) :
    popSymbols symbols (front ++ rest) = some rest := by
  subst h
  induction front with
  | nil => rfl
  | cons frame front ih => exact (if_pos rfl).trans ih

/-- The symbol that the symbols on top of a stack are reduced to. -/
def Production.frame (p : Production) (target : Nat) (front : List Frame) : Frame :=
  ⟨.n p.lhs, target, .combine p.kind (front.map Frame.fragment).reverse⟩

/-- What is reduced is reduced after it was moved as well. -/
theorem reduce_of_isMoved (h : c.IsMoved m d) {p : Production} {target : Nat}
    {front rest : List Frame} (hstack : c.stack = front ++ rest)
    (hsymbols : front.map Frame.symbol = p.rhs.reverse)
    (hgoto : (state (topState rest)).gotos.lookup p.lhs = some target) :
    reduce p d =
      .next { d with stack := (p.frame target front :: rest).map (Frame.displace m) } := by
  have hmoved : d.stack = front.map (Frame.displace m) ++ rest.map (Frame.displace m) := by
    rw [h.stack, hstack, List.map_append]
  have hsymbols' : (front.map (Frame.displace m)).map Frame.symbol = p.rhs.reverse := by
    rw [List.map_map, ← hsymbols]
    rfl
  have hlength : (front.map (Frame.displace m)).length = p.rhs.length := by
    simpa using congrArg List.length hsymbols
  have hparts : ((front.map (Frame.displace m)).map Frame.fragment).reverse =
      ((front.map Frame.fragment).reverse).map (Fragment.displace m) := by
    rw [List.map_map, List.map_reverse, List.map_map]
    rfl
  have hstate : Config.state { d with stack := rest.map (Frame.displace m) } =
      state (topState rest) := by
    show state (topState (rest.map (Frame.displace m))) = state (topState rest)
    rw [topState_map_displace]
  simp only [reduce, hmoved, popSymbols_append hsymbols', hstate, hgoto, ← hlength,
    List.take_left, hparts, Fragment.combine_displace]
  rfl

/-- A token that is shifted is shifted after it was moved as well. -/
theorem shift_of_isMoved (h : c.IsMoved m d) {t : Token} {target : Nat}
    (hshift : c.state.shifts.lookup t.terminal = some target) :
    shift (t.displace m) d = .next { d with
      stack := List.map (Frame.displace m) (⟨.t t.terminal, target, .ofToken t⟩ :: c.stack)
      lookahead := none } := by
  unfold shift
  rw [h.state_eq, Token.terminal_displace, hshift, h.stack, Fragment.ofToken_displace]
  rfl

/-- **A step that reads nothing** does the same with tokens that were moved, and leaves the text as
it is. -/
theorem next_of_isMoved (h : c.IsMoved m d) (hv : IsValid c.stack) (hknown : c.lookahead ≠ none)
    {c' : Config} (hstep : step c = .next c') :
    ∃ d', step d = .next d' ∧ c'.IsMoved m d' ∧
      (c'.rest = c.rest ∧ c'.position = c.position) ∧ d'.rest = d.rest ∧
        d'.position = d.position := by
  have heffect := step_effect hv
  rw [hstep] at heffect
  cases heffect with
  | read hl => exact absurd hl hknown
  | readEnd hl => exact absurd hl hknown
  | @reduce lookahead k target p front rest hl hk hp hstack hsymbols hgoto =>
    have hl' : d.lookahead = some (lookahead.map (Token.displace m)) := by
      rw [h.lookahead, hl, Option.map_some]
    have hk' : d.state.reduction? ((lookahead.map (Token.displace m)).map Token.terminal) =
        some k := by
      rw [h.state_eq, Option.map_map]
      exact hk
    refine ⟨{ d with stack := (p.frame target front :: rest).map (Frame.displace m) }, ?_,
      ⟨rfl, h.lookahead⟩, ⟨rfl, rfl⟩, rfl, rfl⟩
    simpa only [step, hl', hk', hp] using reduce_of_isMoved h hstack hsymbols hgoto
  | @shift t target hl hk hshift =>
    have hl' : d.lookahead = some (some (t.displace m)) := by
      rw [h.lookahead, hl]
      rfl
    have hshifts : step d = shift (t.displace m) d := by
      simp only [step, hl', Option.map_some, Token.terminal_displace, h.state_eq, hk]
    rw [hshifts, shift_of_isMoved h hshift]
    exact ⟨_, rfl, ⟨rfl, rfl⟩, ⟨rfl, rfl⟩, rfl, rfl⟩

/-- A reduction does not end a parse. -/
theorem reduce_ne_done (p : Production) (c : Config) (tree : Tree) : reduce p c ≠ .done tree := by
  unfold reduce
  split
  · nofun
  · dsimp only
    split <;> nofun

/-- **A parse that ends** ends with the tree moved if the tokens were moved. -/
theorem done_of_isMoved (h : c.IsMoved m d) (hv : IsValid c.stack) {tree : Tree}
    (hstep : step c = .done tree) : step d = .done (tree.displace m) := by
  have hl : c.lookahead = some none := by
    have heffect := step_effect hv
    rw [hstep] at heffect
    cases heffect with
    | acceptEmpty hl => exact hl
    | accept hl => exact hl
  have hl' : d.lookahead = some none := by
    rw [h.lookahead, hl]
    rfl
  simp only [step, hl, hl', Option.map_none, h.state_eq] at hstep ⊢
  cases hk : c.state.reduction? none with
  | some k =>
    rw [hk] at hstep
    dsimp only at hstep
    split at hstep
    · next p _ => exact absurd hstep (reduce_ne_done p c tree)
    · cases hstep
  | none =>
    rw [hk] at hstep
    dsimp only [finish] at hstep ⊢
    rw [h.state_eq, h.stack]
    split at hstep
    · next haccepting =>
      rw [if_pos haccepting]
      split at hstep
      · next hnil =>
        cases hstep
        rw [hnil]
        rfl
      · next hone =>
        cases hstep
        rw [hone]
        rfl
      · cases hstep
    · cases hstep

/-! ### Runs -/

/-- A run that ends does so with more steps as well. -/
theorem run_of_le {fuel more : Nat} (hle : fuel ≤ more) {tree : Tree} (h : run fuel c = .ok tree) :
    run more c = .ok tree := by
  induction fuel generalizing more c with
  | zero => cases h
  | succ fuel ih =>
    obtain ⟨more, rfl⟩ := Nat.exists_eq_add_of_le' (Nat.one_le_of_lt hle)
    rw [run] at h ⊢
    split at h
    · exact ih (Nat.le_of_succ_le_succ hle) h
    · exact h
    · cases h

end Errata.Syntax
