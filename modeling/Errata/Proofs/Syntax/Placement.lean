import Errata.Proofs.Syntax.Parser
import Errata.Proofs.Syntax.Position

/-!
# Where the parts of a file stand

A token stands where the scanner found it, and a node of the parse tree reaches from its first token
to its last. The symbols on the stack of the parser stand one behind the other, and so every node
has an extent of the source; a syntax error is reported at a token or at a character that starts
none.

* `Extent.IsIn`: extents that start at a character of the source and end behind it.
* `exists_of_scan`, `exists_of_scan_stray`: what the scanner finds, and where.
* `Tree.IsPlaced`, **`isPlaced_of_parse`**: the tokens and the nodes of a parse tree are parts of
  the source.
* **`isIn_of_parse_error`**: a syntax error is reported at a character of the source.
-/

namespace Errata.Syntax

variable {source : List Char}

/-! ### Extents -/

/-- Whether an extent reaches from a character of the source, other than a line feed, to a later
position. -/
def Extent.IsIn (source : List Char) (e : Extent) : Prop :=
  ∃ before c more after, source = before ++ c :: more ++ after ∧ c ≠ '\n' ∧
    e = ⟨.ofPrefix before, .ofPrefix (before ++ c :: more)⟩

/-- An extent of the source has a span in the source. -/
theorem Extent.IsIn.span {e : Extent} (h : e.IsIn source) : e.span.IsIn source := by
  obtain ⟨before, c, more, after, rfl, hc, rfl⟩ := h
  exact Extent.isIn_span hc

/-- An extent ends behind its start. -/
theorem Extent.IsIn.offset_lt {e : Extent} (h : e.IsIn source) :
    e.start.offset < e.stop.offset := by
  obtain ⟨before, c, more, after, -, -, rfl⟩ := h
  simp only [Position.offset_ofPrefix, List.length_append, List.length_cons]
  omega

/-- **From the start of an extent to the stop of a later one** is an extent. -/
theorem Extent.IsIn.to {a b : Extent} (ha : a.IsIn source) (hb : b.IsIn source)
    (h : a.start.offset < b.stop.offset) : (a.to b).IsIn source := by
  obtain ⟨before, c, more, after, hsource, hc, rfl⟩ := ha
  obtain ⟨before', c', more', after', hsource', -, rfl⟩ := hb
  simp only [Position.offset_ofPrefix] at h
  have hfirst : before ++ [c] <+: source := ⟨more ++ after, by simp [hsource]⟩
  have hlast : before' ++ c' :: more' <+: source := ⟨after', hsource'.symm⟩
  have hlength : (before ++ [c]).length ≤ (before' ++ c' :: more').length := by
    rw [List.length_append, List.length_singleton]
    exact h
  obtain ⟨between, hbetween⟩ := List.prefix_of_prefix_length_le hfirst hlast hlength
  have hwhole : before' ++ c' :: more' = before ++ c :: between := by
    rw [← hbetween]
    simp
  exact ⟨before, c, between, after', by rw [hsource', hwhole], hc, by rw [hwhole]; rfl⟩

/-- A token of the source has an extent of the source. -/
theorem Token.IsIn.isIn_extent {t : Token} (h : t.IsIn source) : t.extent.IsIn source := by
  obtain ⟨before, after, hsource, hne, hextent⟩ := h.exists_append
  have hnewline := h.newline_notMem
  obtain ⟨c, more, htext⟩ := List.exists_cons_of_ne_nil hne
  rw [htext] at hsource hextent hnewline
  refine ⟨before, c, more, after, hsource, ?_, hextent⟩
  rintro rfl
  exact hnewline List.mem_cons_self

/-- The span of one column at a character of the source. -/
theorem isIn_point {before after : List Char} {c : Char} (hc : c ≠ '\n') {p : Position}
    (hp : p = .ofPrefix before) :
    (Span.point p.line p.column).IsIn (before ++ c :: after) := by
  have hspan : (Extent.span ⟨.ofPrefix before, .ofPrefix (before ++ [c])⟩).IsIn
      (before ++ [c] ++ after) := Extent.isIn_span hc
  have heq : Extent.span ⟨.ofPrefix before, .ofPrefix (before ++ [c])⟩ =
      Span.point p.line p.column := by
    simp [Extent.span, Span.point, hp, Position.line_ofPrefix, Position.column_ofPrefix,
      lastLine_concat hc, List.count_append, hc]
  rw [heq, List.append_assoc] at hspan
  exact hspan

/-- The span of one column at the start of an extent. -/
theorem Extent.IsIn.point {e : Extent} (h : e.IsIn source) :
    (Span.point e.start.line e.start.column).IsIn source := by
  obtain ⟨before, c, more, after, rfl, hc, rfl⟩ := h
  rw [List.append_assoc]
  exact isIn_point hc rfl

/-! ### Scanning -/

/-- What is skipped is passed by the position. -/
theorem exists_of_skipFrom {pending : Nat} {before rest rest' : List Char} {p : Position}
    (h : skipFrom pending (.ofPrefix before) rest = (p, rest')) :
    ∃ skipped, rest = skipped ++ rest' ∧ p = .ofPrefix (before ++ skipped) := by
  induction rest generalizing pending before with
  | nil =>
    cases h
    exact ⟨[], rfl, by rw [List.append_nil]⟩
  | cons c rest ih =>
    have hcons : ∀ {pending : Nat},
        skipFrom pending ((Position.ofPrefix before).next c) rest = (p, rest') →
        ∃ skipped, c :: rest = skipped ++ rest' ∧ p = .ofPrefix (before ++ skipped) := by
      intro pending h
      rw [show (Position.ofPrefix before).next c = .ofPrefix (before ++ [c]) from
        Position.advance_ofPrefix before [c]] at h
      obtain ⟨skipped, rfl, rfl⟩ := ih h
      exact ⟨c :: skipped, rfl, by rw [List.append_assoc]; rfl⟩
    cases pending with
    | succ pending => exact hcons h
    | zero =>
      rw [skipFrom] at h
      split at h
      · exact hcons h
      · cases h
        exact ⟨[], rfl, by rw [List.append_nil]⟩

/-- A line feed is skipped. -/
theorem trivia?_newline (rest : List Char) :
    ∃ taken after, trivia? ('\n' :: rest) = some ('\n' :: taken, after) :=
  ⟨rest.takeWhile isSpacing, rest.dropWhile isSpacing, rfl⟩

/-- Skipping does not stop at a line feed. -/
theorem ne_newline_of_skipFrom {pending : Nat} {position p : Position} {c : Char}
    {rest rest' : List Char} (h : skipFrom pending position rest = (p, c :: rest')) : c ≠ '\n' := by
  induction rest generalizing pending position with
  | nil => cases h
  | cons d rest ih =>
    cases pending with
    | succ pending => exact ih h
    | zero =>
      rw [skipFrom] at h
      split at h
      · exact ih h
      · next hnone =>
        cases h
        rintro rfl
        obtain ⟨taken, after, htrivia⟩ := trivia?_newline rest'
        exact hnone _ _ _ htrivia

/-- Where the scanner finds something. -/
inductive Scan.IsAt (source before : List Char) : Scan → Prop where
  /-- A token. -/
  | token {t : Token} {after : List Char} (skipped : List Char) (ht : t.IsIn source)
      (hsource : source = before ++ skipped ++ t.text ++ after)
      (hextent : t.extent =
        ⟨.ofPrefix (before ++ skipped), .ofPrefix (before ++ skipped ++ t.text)⟩) :
      IsAt source before (.token t after)
  /-- The end. -/
  | atEnd : IsAt source before .atEnd
  /-- A token that cannot stand where it stands. -/
  | misplaced {t : Token} (ht : t.IsIn source) : IsAt source before (.misplaced t)
  /-- A character that starts no token. -/
  | stray {position : Position} {c : Char}
      (hpoint : (Span.point position.line position.column).IsIn source) :
      IsAt source before (.stray position c)

/-- **What the scanner finds**, it finds where it says. -/
theorem isAt_scan (accepted : List Terminal) (before rest : List Char) :
    (scan accepted (.ofPrefix before) rest).IsAt (before ++ rest) before := by
  unfold scan
  split
  · exact .atEnd
  · next position c rest' hskip =>
    obtain ⟨skipped, rfl, rfl⟩ := exists_of_skipFrom hskip
    have hin : ∀ {accepted : List Terminal} {t : Token} {after : List Char},
        firstToken accepted (.ofPrefix (before ++ skipped)) (c :: rest') = some (t, after) →
        t.IsIn (before ++ (skipped ++ c :: rest')) := by
      intro accepted t after h
      exact ⟨accepted, before ++ skipped, c :: rest', after, (List.append_assoc _ _ _).symm, h⟩
    split
    · next t after hfirst =>
      obtain ⟨heq, hne⟩ := firstToken_eq_some hfirst
      refine .token skipped (hin hfirst) ?_ ?_
      · rw [heq]
        simp
      · rw [extent_of_firstToken hfirst, Position.advance_ofPrefix]
    · split
      · next hfirst => exact .misplaced (hin hfirst)
      · refine .stray ?_
        rw [← List.append_assoc]
        exact isIn_point (ne_newline_of_skipFrom hskip) rfl

/-! ### Trees -/

/-- Whether the tokens and the nodes of a tree are parts of the source. -/
inductive Tree.IsPlaced (source : List Char) : Tree → Prop where
  /-- A token is found in it. -/
  | leaf {t : Token} (ht : t.IsIn source) : IsPlaced source (.leaf t)
  /-- A node has an extent of it, if it has one, and so do those inside. -/
  | node {kind : Kind} {extent : Option Extent} {children : List Tree}
      (place : ∀ e, extent = some e → e.IsIn source)
      (inside : ∀ tree ∈ children, tree.IsPlaced source) :
      IsPlaced source (.node kind extent children)

/-- The extent of a node. -/
theorem Tree.IsPlaced.extent_of_node {kind : Kind} {extent : Option Extent} {children : List Tree}
    (h : (Tree.node kind extent children).IsPlaced source) :
    ∀ e, extent = some e → e.IsIn source := by
  cases h with
  | node place inside => exact place

/-- The children of a node. -/
theorem Tree.IsPlaced.of_node {kind : Kind} {extent : Option Extent} {children : List Tree}
    (h : (Tree.node kind extent children).IsPlaced source) :
    ∀ tree ∈ children, tree.IsPlaced source := by
  cases h with
  | node place inside => exact inside

/-- Whether extents, the last one first, are parts of the source that stand one behind the other and
end before a position. -/
structure AreLaidOut (source : List Char) (bound : Nat) (extents : List Extent) : Prop where
  /-- They are parts of the source. -/
  place : ∀ e ∈ extents, e.IsIn source
  /-- They stand one behind the other. -/
  order : extents.Pairwise fun later earlier => earlier.stop.offset ≤ later.start.offset
  /-- They end before the position. -/
  bound : ∀ e ∈ extents, e.stop.offset ≤ bound

/-- Extents that end before a position end before a later one. -/
theorem AreLaidOut.mono {bound bound' : Nat} {extents : List Extent}
    (h : AreLaidOut source bound extents) (hle : bound ≤ bound') :
    AreLaidOut source bound' extents :=
  ⟨h.place, h.order, fun e he => (h.bound e he).trans hle⟩

/-- One more extent behind the others. -/
theorem AreLaidOut.cons {bound : Nat} {extents : List Extent} {e : Extent}
    (h : AreLaidOut source e.start.offset extents) (he : e.IsIn source)
    (hle : e.stop.offset ≤ bound) : AreLaidOut source bound (e :: extents) := by
  refine ⟨List.forall_mem_cons.mpr ⟨he, h.place⟩, List.pairwise_cons.mpr ⟨h.bound, h.order⟩,
    List.forall_mem_cons.mpr ⟨hle, fun f hf => ?_⟩⟩
  exact (h.bound f hf).trans (he.offset_lt.le.trans hle)

/-- The last extents, put together as one. -/
theorem AreLaidOut.join {bound : Nat} {front rest : List Extent}
    (h : AreLaidOut source bound (front ++ rest)) :
    AreLaidOut source bound ((Fragment.joinExtents front.reverse).toList ++ rest) := by
  cases front with
  | nil => exact h
  | cons top others =>
    obtain ⟨bottom, hbottom⟩ : ∃ bottom, (top :: others).getLast? = some bottom :=
      ⟨_, List.getLast?_cons⟩
    have hjoin : Fragment.joinExtents (top :: others).reverse = some (bottom.to top) := by
      simp only [Fragment.joinExtents, List.head?_reverse, List.getLast?_reverse, hbottom,
        List.head?_cons]
    obtain ⟨hfront, hrest, hacross⟩ := List.pairwise_append.mp h.order
    have hmem : bottom ∈ top :: others := List.mem_of_getLast? hbottom
    have htop := h.place top (by simp)
    have hplace := h.place bottom (List.mem_append_left _ hmem)
    have hlt : bottom.start.offset < top.stop.offset := by
      rcases List.mem_cons.mp hmem with rfl | hother
      · exact htop.offset_lt
      · have hbefore := (List.pairwise_cons.mp hfront).1 bottom hother
        have hlt := hplace.offset_lt
        have hlt' := htop.offset_lt
        omega
    rw [hjoin]
    refine AreLaidOut.cons ⟨fun e he => ?_, hrest, fun e he => ?_⟩ (hplace.to htop hlt) ?_
    · exact h.place e (List.mem_append_right _ he)
    · exact hacross bottom hmem e he
    · exact h.bound top (by simp)

/-- The place before which everything on the stack stands. -/
def Config.bound (c : Config) : Nat :=
  match c.lookahead with
  | some (some t) => t.extent.start.offset
  | _ => c.position.offset

/-- What the parser knows of where things stand. -/
structure Config.IsPlaced (source : List Char) (c : Config) : Prop where
  /-- The position is that of the rest. -/
  rest : ∃ before, source = before ++ c.rest ∧ c.position = .ofPrefix before
  /-- The next token stands before the position, and it is the last one read. -/
  lookahead : ∀ t, c.lookahead = some (some t) →
    t.IsIn source ∧ t.extent.stop = c.position ∧ c.last = some t
  /-- The last token read is one of the source. -/
  last : ∀ t, c.last = some t → t.IsIn source
  /-- As long as none is read the stack is empty. -/
  start : c.last = none → c.stack = []
  /-- The symbols on the stack stand one behind the other. -/
  order : AreLaidOut source c.bound (c.stack.filterMap fun frame => frame.fragment.extent)
  /-- The trees on the stack are parts of the source. -/
  trees : ∀ frame ∈ c.stack, ∀ tree ∈ frame.fragment.children, tree.IsPlaced source

/-- Before anything is read. -/
theorem isPlaced_initial (source : List Char) : (Config.initial source).IsPlaced source where
  rest := ⟨[], rfl, rfl⟩
  lookahead := nofun
  last := nofun
  start := fun _ => rfl
  order := ⟨by simp [Config.initial], List.Pairwise.nil, by simp [Config.initial]⟩
  trees := by simp [Config.initial]

/-- What stands before the next token, or before the position, stands before the position. -/
theorem Config.IsPlaced.bound_le {c : Config} (h : c.IsPlaced source) :
    c.bound ≤ c.position.offset := by
  unfold Config.bound
  split
  · next t hl =>
    obtain ⟨ht, hstop, -⟩ := h.lookahead t hl
    rw [← hstop]
    exact ht.isIn_extent.offset_lt.le
  · exact Nat.le_refl _

/-- The extent of a fragment that is put together from those of frames, the last frame first. -/
theorem extent_combine (kind : Option Kind) (front : List Frame) :
    (Fragment.combine kind (front.map Frame.fragment).reverse).extent =
      Fragment.joinExtents (front.filterMap fun frame => frame.fragment.extent).reverse := by
  have hextents : (front.map Frame.fragment).reverse.filterMap Fragment.extent =
      (front.filterMap fun frame => frame.fragment.extent).reverse := by
    rw [List.filterMap_reverse, List.filterMap_map]
    rfl
  cases kind <;> simp only [Fragment.combine, hextents]

/-- The trees of a fragment that is put together are parts of the source if those of its parts
are, and so is its extent. -/
theorem isPlaced_combine {kind : Option Kind} {parts : List Fragment}
    (hextent : ∀ e, (Fragment.combine kind parts).extent = some e → e.IsIn source)
    (h : ∀ part ∈ parts, ∀ tree ∈ part.children, tree.IsPlaced source) :
    ∀ tree ∈ (Fragment.combine kind parts).children, tree.IsPlaced source := by
  have hinside : ∀ tree ∈ parts.flatMap Fragment.children, tree.IsPlaced source := by
    intro tree hm
    obtain ⟨part, hpart, hm⟩ := List.mem_flatMap.mp hm
    exact h part hpart tree hm
  cases kind with
  | none => exact hinside
  | some kind =>
    intro tree hm
    rw [List.mem_singleton.mp hm]
    exact .node hextent hinside

/-- **Every step keeps things where they stand.** -/
theorem Effect.isPlaced {c d : Config} (h : Effect c (.next d)) (hc : c.IsPlaced source) :
    d.IsPlaced source := by
  cases h with
  | @read t rest hl hscan =>
    obtain ⟨before, hsource, hposition⟩ := hc.rest
    have hat := isAt_scan c.state.accepted before c.rest
    rw [← hposition, hscan, ← hsource] at hat
    cases hat with
    | token skipped ht hsplit hextent =>
      refine ⟨⟨_, hsplit, by rw [hextent]⟩, ?_, ?_, nofun, ?_, hc.trees⟩
      · rintro _ ⟨⟩
        exact ⟨ht, rfl, rfl⟩
      · rintro _ ⟨⟩
        exact ht
      · refine hc.order.mono (hc.bound_le.trans ?_)
        rw [hposition]
        simp only [Config.bound, hextent, Position.offset_ofPrefix, List.length_append]
        omega
  | readEnd hl hscan =>
    refine ⟨hc.rest, nofun, hc.last, hc.start, hc.order.mono ?_, hc.trees⟩
    exact hc.bound_le
  | @reduce lookahead k target p front rest hl hk hp hstack hsymbols hgoto =>
    have horder := hc.order
    have htrees := hc.trees
    rw [hstack, List.filterMap_append] at horder
    rw [hstack] at htrees
    have hjoin := horder.join
    rw [← extent_combine p.kind] at hjoin
    refine ⟨hc.rest, hc.lookahead, hc.last, fun hlast => ?_, ?_, ?_⟩
    · -- no production is empty
      have hempty : front = [] := by
        have hnil := hc.start hlast
        rw [hstack] at hnil
        exact (List.append_eq_nil_iff.mp hnil).1
      have hlt := weight_lt hp
      have hrhs : p.rhs = [] := by simpa [hempty] using hsymbols.symm
      simp [hrhs] at hlt
    · rw [List.filterMap_cons]
      cases hextent : (Fragment.combine p.kind (front.map Frame.fragment).reverse).extent <;>
        rw [hextent] at hjoin <;> exact hjoin
    · rintro frame (_ | ⟨_, hm⟩)
      · refine isPlaced_combine (fun e he => ?_) fun part hpart => ?_
        · exact hjoin.place e (by simp [he])
        · obtain ⟨frame, hframe, rfl⟩ := List.mem_map.mp (List.mem_reverse.mp hpart)
          exact htrees frame (List.mem_append_left _ hframe)
      · exact htrees frame (List.mem_append_right _ hm)
  | @shift t target hl hk hshift =>
    obtain ⟨ht, hstop, hlast⟩ := hc.lookahead t hl
    have horder := hc.order
    have hbound : c.bound = t.extent.start.offset := by simp only [Config.bound, hl]
    rw [hbound] at horder
    refine ⟨hc.rest, nofun, hc.last, ?_, ?_, ?_⟩
    · intro hnone
      rw [hlast] at hnone
      cases hnone
    · exact horder.cons ht.isIn_extent (by rw [hstop]; exact Nat.le_refl _)
    · rintro frame (_ | ⟨_, hm⟩)
      · intro tree htree
        obtain rfl : tree = .leaf t := by
          by_cases hkept : t.terminal.isKept = true <;> simp_all [Fragment.ofToken]
        exact .leaf ht
      · exact hc.trees frame hm

/-- **The tokens and the nodes of a parse tree** are parts of the source. -/
theorem isPlaced_of_parse {tree : Tree} (h : parse source = .ok tree) : tree.IsPlaced source := by
  obtain ⟨d, -, hd, heffect⟩ := exists_done_of_parse (fun _ heffect hc => heffect.isPlaced hc)
    (isPlaced_initial source) h
  cases heffect with
  | acceptEmpty => exact .node nofun (by simp)
  | accept hl hstack =>
    exact hd.trees _ (hstack ▸ List.mem_singleton_self _) tree (List.mem_singleton_self tree)

/-! ### Syntax errors -/

/-- Where a refused token is reported. -/
theorem isIn_of_refuse {t : Token} (ht : t.IsIn source) {expected : List (Option Terminal)}
    {e : SyntaxError} (h : refuse t expected = .failed (.syntaxError e)) :
    e.span.IsIn source := by
  cases h
  exact ht.isIn_extent.point

/-- **A syntax error that a step meets** is reported at a character of the source. -/
theorem isIn_of_step_error {c : Config} (hc : c.IsPlaced source) {e : SyntaxError}
    (h : step c = .failed (.syntaxError e)) : e.span.IsIn source := by
  unfold step at h
  split at h
  · obtain ⟨before, hsource, hposition⟩ := hc.rest
    have hat := isAt_scan c.state.accepted before c.rest
    rw [← hposition, ← hsource] at hat
    unfold readNext at h
    split at h
    · cases h
    · cases h
    · next hscan =>
      rw [hscan] at hat
      cases hat with
      | misplaced ht => exact isIn_of_refuse ht h
    · next hscan =>
      rw [hscan] at hat
      cases hat with
      | stray hpoint =>
        cases h
        exact hpoint
  · next lookahead hl =>
    split at h
    · split at h
      · unfold reduce at h
        split at h
        · cases h
        · dsimp only at h
          split at h <;> cases h
      · cases h
    · split at h
      · next t _ =>
        unfold shift at h
        split at h
        · cases h
        · exact isIn_of_refuse (hc.lookahead t hl).1 h
      · unfold finish at h
        split at h
        · split at h <;> cases h
        · next haccepting =>
          cases h
          cases hlast : c.last with
          | some t => exact (hc.last t hlast).isIn_extent.point
          | none =>
            -- a file may be empty
            have hinitial : c.state.accepting = true := by
              rw [Config.state, hc.start hlast]
              decide +kernel
            exact absurd hinitial haccepting

/-- **A syntax error is reported at a character of the source.** -/
theorem isIn_of_parse_error {e : SyntaxError} (h : parse source = .error (.syntaxError e)) :
    e.span.IsIn source := by
  have hrun : ∀ {fuel : Nat} {c : Config}, IsValid c.stack → c.IsPlaced source →
      run fuel c = .error (.syntaxError e) → e.span.IsIn source := by
    intro fuel
    induction fuel with
    | zero => nofun
    | succ fuel ih =>
      intro c hv hc h
      have heffect := step_effect hv
      rw [run] at h
      split at h
      · next d hd =>
        rw [hd] at heffect
        exact ih (heffect.isValid hv) (heffect.isPlaced hc) h
      · cases h
      · next reason hd =>
        cases h
        exact isIn_of_step_error hc hd
  exact hrun isValid_nil (isPlaced_initial source) h

end Errata.Syntax
