import Errata.Association
import Errata.Proofs.Syntax.Scanner
import Errata.Syntax.Automaton
import Errata.Syntax.Parser
import Mathlib.Algebra.Ring.Nat

/-!
# What a step of the parser does

The automaton fits its grammar, and the stack of the parser is a path through the automaton. So the
parser never comes to a state in which it cannot go on.

* `Edge` and `edges`: the edges of the automaton.
* `unwinds`: whether every way back over edges is spelled by the given symbols and ends in one of
  the given states.
* **`unwinds_of_reduction?`**: where the automaton reduces by a production, its right side is on top
  of every stack, and below there is a state that goes on with its left side.
* `lt_of_accepting`, `edges_target`: the states in which a file may end, and what leads to them.
* `IsValid`: stacks that are paths and hold whole files as single trees.
* `Effect`: what a step can do; **`step_effect`**: a step on a valid stack has such an effect.
* `exists_done_of_run`: a property of configurations that every effect preserves holds at the end of
  a run.
* **`parse_ne_stuck`**: the parser ends with a tree or with a syntax error. It never meets an entry
  that the automaton lacks, and its steps are enough.
* `exists_describe?_of_parse`: a syntax error that ends a parse is described.
-/

/-! ## The automaton and its grammar

The parser trusts the automaton: before it reduces by a production, it takes the right side of the
production off the stack, and then goes on from the state below. That this always works, whatever
the stack is, is checked on the table, by walking back over the edges of the automaton.
-/

namespace Errata.Syntax

/-! ### Edges -/

/-- An edge of the automaton: from a state, a symbol leads to another one. -/
structure Edge where
  /-- The state it starts from. -/
  source : Nat
  /-- The symbol that is read. -/
  symbol : Symbol
  /-- The state it leads to. -/
  target : Nat
deriving DecidableEq, Repr

/-- The edges that start from a state. -/
def State.edges (s : State) (index : Nat) : List Edge :=
  s.shifts.map (fun (t, target) => ⟨index, .t t, target⟩) ++
    s.gotos.map fun (x, target) => ⟨index, .n x, target⟩

/-- The edges of the automaton. -/
def edges : List Edge :=
  states.toList.zipIdx.flatMap fun (s, index) => s.edges index

/-- A state that is not dead stands in the table. -/
theorem mem_zipIdx_of_state {index : Nat} (h : state index ≠ .dead) :
    (state index, index) ∈ states.toList.zipIdx := by
  by_cases hlt : index < states.size
  · have hget : state index = states[index] := by simp [state, Array.getD, hlt]
    rw [hget, List.mem_zipIdx_iff_getElem?]
    simp [hlt]
  · exact absurd (by simp [state, Array.getD, hlt]) h

/-- A shift is an edge. -/
theorem mem_edges_of_shifts {index target : Nat} {t : Terminal}
    (h : (state index).shifts.lookup t = some target) : ⟨index, .t t, target⟩ ∈ edges := by
  have hentry := mem_of_lookup h
  have hlive : state index ≠ .dead := by
    intro hdead
    simp [hdead, State.dead] at hentry
  refine List.mem_flatMap.mpr ⟨_, mem_zipIdx_of_state hlive, List.mem_append.mpr (Or.inl ?_)⟩
  exact List.mem_map.mpr ⟨_, hentry, rfl⟩

/-- A move after a reduction is an edge. -/
theorem mem_edges_of_gotos {index target : Nat} {x : Nonterminal}
    (h : (state index).gotos.lookup x = some target) : ⟨index, .n x, target⟩ ∈ edges := by
  have hentry := mem_of_lookup h
  have hlive : state index ≠ .dead := by
    intro hdead
    simp [hdead, State.dead] at hentry
  refine List.mem_flatMap.mpr ⟨_, mem_zipIdx_of_state hlive, List.mem_append.mpr (Or.inr ?_)⟩
  exact List.mem_map.mpr ⟨_, hentry, rfl⟩

/-- The states from which a symbol leads on. -/
def starts (x : Nonterminal) : List Nat :=
  (edges.filter fun e => e.symbol = .n x).map Edge.source

/-- From these states the symbol does lead on. -/
theorem exists_goto_of_mem_starts {x : Nonterminal} {index : Nat} (h : index ∈ starts x) :
    ∃ target, (state index).gotos.lookup x = some target := by
  obtain ⟨e, he, rfl⟩ := List.mem_map.mp h
  obtain ⟨hedge, hsymbol⟩ := List.mem_filter.mp he
  obtain ⟨⟨s, i⟩, hs, hmem⟩ := List.mem_flatMap.mp hedge
  have hstate : state i = s := by
    have hget := List.mem_zipIdx_iff_getElem?.mp hs
    simp [state, Array.getD_eq_getD_getElem?, ← Array.getElem?_toList, hget]
  rcases List.mem_append.mp hmem with hshift | hgoto
  · obtain ⟨⟨t, target⟩, -, rfl⟩ := List.mem_map.mp hshift
    simp at hsymbol
  · obtain ⟨⟨y, target⟩, hentry, rfl⟩ := List.mem_map.mp hgoto
    obtain rfl : y = x := by simpa using hsymbol
    exact hstate ▸ exists_lookup_of_mem hentry

/-! ### Ways back -/

/-- The edges by the last digit of their targets, so that the check below looks at few of them. -/
def buckets : List (List Edge) :=
  (List.range 16).map fun digit => edges.filter fun e => Nat.beq (e.target % 16) digit

/-- The edges that lead to a state. -/
def edgesInto (index : Nat) : List Edge :=
  (buckets.getD (index % 16) []).filter fun e => Nat.beq e.target index

/-- The edges that lead to a state are these. -/
theorem mem_edgesInto {e : Edge} (h : e ∈ edges) : e ∈ edgesInto e.target := by
  have hlt : e.target % 16 < 16 := Nat.mod_lt _ (by decide)
  have hbucket : buckets.getD (e.target % 16) [] =
      edges.filter fun d => Nat.beq (d.target % 16) (e.target % 16) := by
    simp [buckets, List.getD_eq_getElem?_getD, hlt]
  rw [edgesInto, hbucket]
  simp [h, List.mem_filter]

/-- Whether every way back from a state is spelled by the symbols, the last one first, and ends in
one of the given states. No way leads back from the initial state. -/
def unwinds (ends : List Nat) : List Symbol → Nat → Bool
  | [], index => ends.contains index
  | s :: symbols, index =>
    !Nat.beq index 0 && (edgesInto index).all fun e => e.symbol = s && unwinds ends symbols e.source

/-- Whether the reductions of a state can be carried out. -/
def State.isSound (s : State) (index : Nat) : Bool :=
  s.reductions.all fun (production, _) =>
    match productions[production]? with
    | some p => unwinds (starts p.lhs) p.rhs.reverse index
    | none => false

/-- The reductions of every state can be carried out. -/
theorem states_isSound :
    (states.toList.zipIdx.all fun (s, index) => s.isSound index) = true := by
  decide +kernel

/-- **Where the automaton reduces by a production**, its right side is on every way back, and from
the state before it the left side leads on. -/
theorem unwinds_of_reduction? {index k : Nat} {lookahead : Option Terminal}
    (h : (state index).reduction? lookahead = some k) :
    ∃ p, productions[k]? = some p ∧ unwinds (starts p.lhs) p.rhs.reverse index = true := by
  obtain ⟨⟨k, before⟩, hfound, rfl⟩ := Option.map_eq_some_iff.mp h
  have hentry := List.mem_of_find?_eq_some hfound
  have hlive : state index ≠ .dead := by
    intro hdead
    simp [hdead, State.dead] at hentry
  have hsound := List.all_eq_true.mp states_isSound _ (mem_zipIdx_of_state hlive)
  have hreduction := List.all_eq_true.mp hsound _ hentry
  simp only at hreduction
  split at hreduction
  · next p hp => exact ⟨p, hp, hreduction⟩
  · cases hreduction

/-! ### The end -/

/-- The states in which a file may end are the first two. -/
theorem states_accepting :
    (states.toList.zipIdx.all fun (s, index) => !s.accepting || index < 2) = true := by
  decide +kernel

/-- A file may end in the initial state and in the one reached by a whole file. -/
theorem lt_of_accepting {index : Nat} (h : (state index).accepting = true) : index < 2 := by
  have hlive : state index ≠ .dead := by
    intro hdead
    simp [hdead, State.dead] at h
  have haccepting := List.all_eq_true.mp states_accepting _ (mem_zipIdx_of_state hlive)
  simpa [h] using haccepting

/-- Only a whole file leads to the second state, and nothing leads to the initial one. -/
theorem edges_target :
    (edges.all fun e => 2 ≤ e.target || e.source = 0 && e.symbol = .n .file && e.target = 1) =
      true := by
  decide +kernel

end Errata.Syntax

/-! ## Steps

The stack of the parser is a path through the automaton. What a step can do on such a stack is said
once; whatever holds of a whole run is derived from that, one effect after the other.
-/

namespace Errata.Syntax

/-! ### Stacks -/

/-- The state on top of a stack. -/
def topState (stack : List Frame) : Nat :=
  (stack.head?.map Frame.state).getD 0

/-- A stack is a path if each symbol leads to its state from the state below. -/
def IsPath : List Frame → Prop
  | [] => True
  | frame :: stack => ⟨topState stack, frame.symbol, frame.state⟩ ∈ edges ∧ IsPath stack

/-- A stack is valid if it is a path, and a whole file on it is one tree. -/
structure IsValid (stack : List Frame) : Prop where
  /-- It is a path. -/
  path : IsPath stack
  /-- A file is one tree. -/
  whole : ∀ frame ∈ stack, frame.symbol = .n .file → ∃ tree, frame.fragment.children = [tree]

/-- The empty stack is valid. -/
theorem isValid_nil : IsValid [] where
  path := trivial
  whole := by simp

/-- The rest of a path is a path. -/
theorem IsPath.of_append {front stack : List Frame} (h : IsPath (front ++ stack)) :
    IsPath stack := by
  induction front with
  | nil => exact h
  | cons frame front ih => exact ih h.2

/-- The symbols that every way back is spelled by are on top of a path. -/
theorem popSymbols_of_unwinds {ends : List Nat} {symbols : List Symbol} {stack : List Frame}
    (hp : IsPath stack) (h : unwinds ends symbols (topState stack) = true) :
    ∃ front rest, popSymbols symbols stack = some rest ∧ stack = front ++ rest ∧
      front.map Frame.symbol = symbols ∧ topState rest ∈ ends := by
  induction symbols generalizing stack with
  | nil => exact ⟨[], stack, rfl, rfl, rfl, by simpa [unwinds] using h⟩
  | cons s symbols ih =>
    rw [unwinds, Bool.and_eq_true, List.all_eq_true] at h
    cases stack with
    | nil => simp [topState] at h
    | cons frame stack =>
      have hedge := h.2 _ (mem_edgesInto hp.1)
      rw [Bool.and_eq_true, decide_eq_true_eq] at hedge
      obtain ⟨front, rest, hpop, rfl, hsymbols, hends⟩ := ih hp.2 hedge.2
      refine ⟨frame :: front, rest, ?_, rfl, ?_, hends⟩
      · rw [popSymbols, if_pos hedge.1, hpop]
      · rw [List.map_cons, hsymbols]
        exact congrArg (· :: symbols) hedge.1

/-! ### Effects -/

/-- What a step can do. -/
inductive Effect (c : Config) : Outcome → Prop where
  /-- It reads a token. -/
  | read {t : Token} {rest : List Char} (hl : c.lookahead = none)
      (hscan : scan c.state.accepted c.position c.rest = .token t rest) :
      Effect c (.next { c with
        position := t.extent.stop, rest, lookahead := some (some t), last := some t })
  /-- It finds the end of the input. -/
  | readEnd (hl : c.lookahead = none)
      (hscan : scan c.state.accepted c.position c.rest = .atEnd) :
      Effect c (.next { c with lookahead := some none })
  /-- It finds a syntax error. -/
  | syntaxError (e : SyntaxError) : Effect c (.failed (.syntaxError e))
  /-- It reduces by a production. -/
  | reduce {lookahead : Option Token} {k target : Nat} {p : Production} {front rest : List Frame}
      (hl : c.lookahead = some lookahead)
      (hk : c.state.reduction? (lookahead.map Token.terminal) = some k)
      (hp : productions[k]? = some p) (hstack : c.stack = front ++ rest)
      (hsymbols : front.map Frame.symbol = p.rhs.reverse)
      (hgoto : (state (topState rest)).gotos.lookup p.lhs = some target) :
      Effect c (.next { c with stack :=
        ⟨.n p.lhs, target, .combine p.kind (front.map Frame.fragment).reverse⟩ :: rest })
  /-- It shifts a token. -/
  | shift {t : Token} {target : Nat} (hl : c.lookahead = some (some t))
      (hk : c.state.reduction? (some t.terminal) = none)
      (hshift : c.state.shifts.lookup t.terminal = some target) :
      Effect c (.next { c with
        stack := ⟨.t t.terminal, target, .ofToken t⟩ :: c.stack, lookahead := none })
  /-- It ends with an empty file. -/
  | acceptEmpty (hl : c.lookahead = some none) (hstack : c.stack = []) :
      Effect c (.done (.node .file none []))
  /-- It ends with a file. -/
  | accept {tree : Tree} {target : Nat} {extent : Option Extent} (hl : c.lookahead = some none)
      (hstack : c.stack = [⟨.n .file, target, ⟨extent, [tree]⟩⟩]) : Effect c (.done tree)

/-- A path that ends in one of the first two states is empty or consists of a whole file. -/
theorem eq_of_topState_lt {stack : List Frame} (hp : IsPath stack) (h : topState stack < 2) :
    stack = [] ∨ ∃ frame, stack = [frame] ∧ frame.symbol = .n .file := by
  cases stack with
  | nil => exact Or.inl rfl
  | cons frame stack =>
    have hedge := List.all_eq_true.mp edges_target _ hp.1
    have htop : frame.state < 2 := h
    have hfile : topState stack = 0 ∧ frame.symbol = .n .file := by
      rw [Bool.or_eq_true, Bool.and_eq_true, Bool.and_eq_true] at hedge
      rcases hedge with hlarge | ⟨⟨hsource, hsymbol⟩, -⟩
      · exact absurd (of_decide_eq_true hlarge) (Nat.not_le.mpr htop)
      · exact ⟨of_decide_eq_true hsource, of_decide_eq_true hsymbol⟩
    cases stack with
    | nil => exact Or.inr ⟨frame, rfl, hfile.2⟩
    | cons below stack =>
      -- nothing leads to the initial state
      have hbelow := List.all_eq_true.mp edges_target _ hp.2.1
      have hzero : below.state = 0 := hfile.1
      simp [hzero] at hbelow

/-- Reducing has its effect. -/
theorem reduce_effect {c : Config} (hv : IsValid c.stack) {lookahead : Option Token} {k : Nat}
    (hl : c.lookahead = some lookahead)
    (hk : c.state.reduction? (lookahead.map Token.terminal) = some k) :
    ∃ p, productions[k]? = some p ∧ Effect c (reduce p c) := by
  obtain ⟨p, hp, hunwinds⟩ := unwinds_of_reduction? hk
  refine ⟨p, hp, ?_⟩
  obtain ⟨front, rest, hpop, hstack, hsymbols, hends⟩ := popSymbols_of_unwinds hv.path hunwinds
  obtain ⟨target, hgoto⟩ := exists_goto_of_mem_starts hends
  have hlength : front.length = p.rhs.length := by
    simpa using congrArg List.length hsymbols
  have hparts : c.stack.take p.rhs.length = front := by
    rw [hstack, ← hlength, List.take_left]
  have hreduce : reduce p c = .next { c with stack :=
      ⟨.n p.lhs, target, .combine p.kind (front.map Frame.fragment).reverse⟩ :: rest } := by
    simp only [reduce, hpop, hparts]
    rw [show Config.state { c with stack := rest } = state (topState rest) from rfl, hgoto]
  rw [hreduce]
  exact .reduce hl hk hp hstack hsymbols hgoto

/-- **A step on a valid stack has one of the effects.** -/
theorem step_effect {c : Config} (hv : IsValid c.stack) : Effect c (step c) := by
  unfold step
  split
  · next hl =>
    unfold readNext
    split
    · next hscan => exact .read hl hscan
    · next hscan => exact .readEnd hl hscan
    · exact .syntaxError _
    · exact .syntaxError _
  · next lookahead hl =>
    split
    · next k hk =>
      obtain ⟨p, hp, heffect⟩ := reduce_effect hv hl hk
      split
      · next q hq =>
        obtain rfl : p = q := Option.some.inj (hp.symm.trans hq)
        exact heffect
      · next hnone => cases hp.symm.trans hnone
    · next hk =>
      split
      · next t =>
        unfold shift
        split
        · next hshift => exact .shift hl hk hshift
        · exact .syntaxError _
      · unfold finish
        split
        · next haccepting =>
          rcases eq_of_topState_lt hv.path (lt_of_accepting haccepting) with
            hnil | ⟨frame, hone, hfile⟩
          · rw [hnil]
            exact .acceptEmpty hl hnil
          · obtain ⟨symbol, target, ⟨extent, children⟩⟩ := frame
            obtain ⟨tree, htree⟩ := hv.whole _ (hone ▸ List.mem_singleton_self _) hfile
            obtain rfl : symbol = .n .file := hfile
            obtain rfl : children = [tree] := htree
            rw [hone]
            exact .accept hl hone
        · exact .syntaxError _

/-! ### Runs -/

/-- A file is made a node. -/
theorem kind_of_file {p : Production} {k : Nat} (hp : productions[k]? = some p)
    (h : p.lhs = .file) : p.kind = some .file := by
  have hall : (productions.all fun p => p.lhs ≠ .file || p.kind = some .file) = true := by
    decide +kernel
  have hmem := Array.all_eq_true_iff_forall_mem.mp hall p (Array.mem_of_getElem? hp)
  simpa [h] using hmem

/-- The stack stays valid. -/
theorem Effect.isValid {c d : Config} (h : Effect c (.next d)) (hv : IsValid c.stack) :
    IsValid d.stack := by
  cases h with
  | read => exact hv
  | readEnd => exact hv
  | reduce hl hk hp hstack hsymbols hgoto =>
    have hrest := hv.path
    rw [hstack] at hrest
    refine ⟨⟨mem_edges_of_gotos hgoto, hrest.of_append⟩, ?_⟩
    rintro frame (_ | ⟨_, hmem⟩) hfile
    · rw [kind_of_file hp (by simpa using hfile)]
      exact ⟨_, rfl⟩
    · exact hv.whole frame (hstack ▸ List.mem_append_right _ hmem) hfile
  | shift hl hk hshift =>
    refine ⟨⟨mem_edges_of_shifts hshift, hv.path⟩, ?_⟩
    rintro frame (_ | ⟨_, hmem⟩) hfile
    · cases hfile
    · exact hv.whole frame hmem hfile

/-- **A property that every effect preserves** holds where a run ends. -/
theorem exists_done_of_run {P : Config → Prop}
    (hP : ∀ {c d}, IsValid c.stack → Effect c (.next d) → P c → P d) {fuel : Nat} {c : Config}
    {tree : Tree} (hv : IsValid c.stack) (hc : P c) (h : run fuel c = .ok tree) :
    ∃ d, IsValid d.stack ∧ P d ∧ Effect d (.done tree) := by
  induction fuel generalizing c with
  | zero => cases h
  | succ fuel ih =>
    have heffect := step_effect hv
    rw [run] at h
    split at h
    · next d hd =>
      rw [hd] at heffect
      exact ih (heffect.isValid hv) (hP hv heffect hc) h
    · next hd =>
      cases h
      exact ⟨c, hv, hc, hd ▸ heffect⟩
    · cases h

/-! ### Fuel -/

/-- How much a symbol on the stack can still be reduced. -/
def Symbol.weight : Symbol → Nat
  | .t _ => 5
  | .n x =>
    match x with
    | .item | .attributePath | .typeTerm => 3
    | .importStatement | .fromImport | .declaration | .dottedName => 4
    | .items | .importAlias | .braceBody | .parenBody | .fieldType | .attribute | .metaForm
    | .metaValue | .typeExpr => 2
    | _ => 1

/-- Every reduction makes the stack lighter. -/
theorem weight_lt {p : Production} {k : Nat} (hp : productions[k]? = some p) :
    (Symbol.n p.lhs).weight < (p.rhs.map Symbol.weight).sum := by
  have hall : (productions.all fun p =>
      (Symbol.n p.lhs).weight < (p.rhs.map Symbol.weight).sum) = true := by
    decide +kernel
  simpa using Array.all_eq_true_iff_forall_mem.mp hall p (Array.mem_of_getElem? hp)

/-- How many steps there can be at most: a token is read, shifted, and reduced five times. -/
def Config.measure (c : Config) : Nat :=
  7 * c.rest.length +
    (match c.lookahead with
      | none => 1
      | some none => 0
      | some (some _) => 7) +
    (c.stack.map fun frame => frame.symbol.weight).sum

/-- There are fewer steps left after each step. -/
theorem Effect.measure_lt {c d : Config} (h : Effect c (.next d)) : d.measure < c.measure := by
  cases h with
  | read hl hscan =>
    have hlt := length_scan_lt hscan
    simp only [Config.measure, hl]
    omega
  | readEnd hl hscan =>
    simp only [Config.measure, hl]
    omega
  | @reduce lookahead k target p front rest hl hk hp hstack hsymbols hgoto =>
    have hlt := weight_lt hp
    have hfront : (front.map fun frame => frame.symbol.weight).sum =
        (p.rhs.map Symbol.weight).sum := by
      have hmap := congrArg (fun symbols => (symbols.map Symbol.weight).sum) hsymbols
      simpa [Function.comp_def] using hmap
    simp only [Config.measure, hstack, List.map_append, List.map_cons, List.sum_append,
      List.sum_cons, hfront]
    omega
  | shift hl hk hshift =>
    simp only [Config.measure, hl, List.map_cons, List.sum_cons, Symbol.weight]
    omega

/-- A run with enough steps does not get stuck. -/
theorem run_ne_stuck {fuel : Nat} {c : Config} (hv : IsValid c.stack) (hc : c.measure < fuel) :
    run fuel c ≠ .error .stuck := by
  induction fuel generalizing c with
  | zero => omega
  | succ fuel ih =>
    have heffect := step_effect hv
    rw [run]
    split
    · next d hd =>
      rw [hd] at heffect
      have hlt := heffect.measure_lt
      exact ih (heffect.isValid hv) (by omega)
    · simp
    · next reason hd =>
      rw [hd] at heffect
      cases heffect
      simp

/-- **The parser ends with a tree or with a syntax error.** -/
theorem parse_ne_stuck (source : List Char) : parse source ≠ .error .stuck := by
  refine run_ne_stuck (c := .initial source) isValid_nil ?_
  simp only [Config.measure, Config.initial, List.map_nil, List.sum_nil]
  omega

/-- **What every effect preserves** from the start on holds at the end of a parse. -/
theorem exists_done_of_parse {P : Config → Prop}
    (hP : ∀ {c d}, IsValid c.stack → Effect c (.next d) → P c → P d) {source : List Char}
    {tree : Tree} (hc : P (.initial source)) (h : parse source = .ok tree) :
    ∃ d, IsValid d.stack ∧ P d ∧ Effect d (.done tree) :=
  exists_done_of_run hP isValid_nil hc h

/-! ### Syntax errors -/

/-- A refused token is described. -/
theorem exists_describe?_of_refuse {t : Token} {expected : List (Option Terminal)} {e : SyntaxError}
    (h : refuse t expected = .failed (.syntaxError e)) :
    ∃ description, e.what.describe? = some description := by
  cases h
  exact ⟨_, rfl⟩

/-- **A syntax error that a step meets is described.** -/
theorem exists_describe?_of_step {c : Config} {e : SyntaxError}
    (h : step c = .failed (.syntaxError e)) :
    ∃ description, e.what.describe? = some description := by
  unfold step at h
  split at h
  · unfold readNext at h
    split at h
    · cases h
    · cases h
    · exact exists_describe?_of_refuse h
    · cases h
      exact ⟨_, rfl⟩
  · split at h
    · split at h
      · unfold reduce at h
        split at h
        · cases h
        · dsimp only at h
          split at h <;> cases h
      · cases h
    · split at h
      · unfold shift at h
        split at h
        · cases h
        · exact exists_describe?_of_refuse h
      · unfold finish at h
        split at h
        · split at h <;> cases h
        · cases h
          exact ⟨_, rfl⟩

/-- **A syntax error that ends a parse is described** in one line. -/
theorem exists_describe?_of_parse {source : List Char} {e : SyntaxError}
    (h : parse source = .error (.syntaxError e)) :
    ∃ description, e.what.describe? = some description := by
  have hrun : ∀ {fuel : Nat} {c : Config}, run fuel c = .error (.syntaxError e) →
      ∃ description, e.what.describe? = some description := by
    intro fuel
    induction fuel with
    | zero => nofun
    | succ fuel ih =>
      intro c h
      rw [run] at h
      split at h
      · exact ih h
      · cases h
      · next reason hd =>
        cases h
        exact exists_describe?_of_step hd
  exact hrun h

end Errata.Syntax
