import Errata.Proofs.Message.Reading

/-!
# Where the arguments of a literal stand

Cutting a literal into segments counts the code points that are passed. What it reports by number,
the arguments and the faults, is found in the literal at that number.

* `Argument.StandsIn`: arguments that stand in a literal behind an opening brace.
* `Fault.IsIn`: faults whose offset and length are those of a part of the literal.
* `segments_cases`: the first segment of a literal, or a fault at its start.
* **`standsIn_of_compile`**: the arguments of a message stand in its literal, one behind the other.
* **`isIn_of_compile`**: the fault of a literal is that of a part of it.
-/

namespace Errata.Placeholder

/-! ### Arguments and faults -/

/-- Whether an argument stands in a literal of which `offset` code points are already cut: it is not
empty, and it is found at its offset behind an opening brace. -/
def Argument.StandsIn (offset : Nat) (literal : Text) (a : Argument) : Prop :=
  a.text ≠ [] ∧ ∃ before after, literal = before ++ .char '{' :: a.text ++ after ∧
    a.offset = offset + before.length + 1

/-- What stands in the rest of a literal stands in the literal. -/
theorem Argument.StandsIn.append {offset : Nat} {front rest : Text} {a : Argument}
    (h : a.StandsIn (offset + front.length) rest) : a.StandsIn offset (front ++ rest) := by
  obtain ⟨hne, before, after, rfl, hoffset⟩ := h
  refine ⟨hne, front ++ before, after, by simp, ?_⟩
  rw [hoffset, List.length_append]
  omega

/-- An argument is the part of the literal that starts at its offset, behind an opening brace. -/
theorem Argument.StandsIn.exists_append {literal : Text} {a : Argument} (h : a.StandsIn 0 literal) :
    ∃ before after, literal = (before ++ [.char '{']) ++ a.text ++ after ∧
      a.offset = (before ++ [CodePoint.char '{']).length := by
  obtain ⟨-, before, after, rfl, hoffset⟩ := h
  refine ⟨before, after, by simp, ?_⟩
  rw [hoffset, List.length_append, List.length_singleton, Nat.zero_add]

/-- Whether the offset and the length of a fault are those of a part of a literal of which `offset`
code points are already cut. -/
def Fault.IsIn (offset : Nat) (literal : Text) (f : Fault) : Prop :=
  ∃ before part after, literal = before ++ part ++ after ∧ part ≠ [] ∧
    f.offset = offset + before.length ∧ f.length = part.length

/-- A fault in the rest of a literal is one in the literal. -/
theorem Fault.IsIn.append {offset : Nat} {front rest : Text} {f : Fault}
    (h : f.IsIn (offset + front.length) rest) : f.IsIn offset (front ++ rest) := by
  obtain ⟨before, part, after, rfl, hne, hoffset, hlength⟩ := h
  refine ⟨front ++ before, part, after, by simp, hne, ?_, hlength⟩
  rw [hoffset, List.length_append, Nat.add_assoc]

/-! ### The first segment -/

/-- Without its conversion an argument is what it starts with. -/
theorem prefix_of_splitConversion (written : Text) : (splitConversion written).1 <+: written := by
  have hreverse : ∀ {rest : Text} (more : Text), written.reverse = more ++ rest →
      rest.reverse <+: written := by
    intro rest more h
    refine ⟨more.reverse, ?_⟩
    rw [← List.reverse_append, ← h, List.reverse_reverse]
  unfold splitConversion
  split
  · next c rest h =>
    split
    · exact hreverse [.char '\n', c, .char '!'] h
    · exact List.prefix_refl _
  · next c rest _ h =>
    split
    · exact hreverse [c, .char '!'] h
    · exact List.prefix_refl _
  · exact List.prefix_refl _

/-- The argument of a placeholder is what the placeholder starts with. -/
theorem prefix_of_argumentText (inner : Text) : argumentText inner <+: inner :=
  (prefix_of_splitConversion _).trans <| List.takeWhile_prefix _

/-- Whether a segment is cut off the front of a literal: if it has an argument, the front starts
with an opening brace and the argument. -/
def Segment.IsFront (offset : Nat) (front : Text) (s : Segment) : Prop :=
  ∀ a, s.argument? = some a →
    a.text ≠ [] ∧ a.offset = offset + 1 ∧ ∃ tail, front = .char '{' :: a.text ++ tail

/-- The argument of the first segment stands in the literal. -/
theorem Segment.IsFront.standsIn {offset : Nat} {front : Text} {s : Segment}
    (h : s.IsFront offset front) (rest : Text) {a : Argument} (ha : s.argument? = some a) :
    a.StandsIn offset (front ++ rest) := by
  obtain ⟨hne, hoffset, tail, rfl⟩ := h a ha
  exact ⟨hne, [], tail ++ rest, by simp, hoffset⟩

/-- A segment without an argument may be any part of a literal. -/
theorem Segment.IsFront.of_none {s : Segment} (h : s.argument? = none) (offset : Nat)
    (front : Text) : s.IsFront offset front := by
  intro a ha
  rw [h] at ha
  cases ha

/-- **A literal starts with a segment**, or with a fault. -/
theorem segments_cases (strict : Bool) (offset : Nat) {literal : Text} (h : literal ≠ []) :
    (∃ s front rest, literal = front ++ rest ∧ front ≠ [] ∧ s.IsFront offset front ∧
      segments strict offset literal =
        (segments strict (offset + front.length) rest).map (s :: ·)) ∨
    ∃ f, segments strict offset literal = .error f ∧ f.IsIn offset literal := by
  obtain ⟨c, literal, rfl⟩ := List.exists_cons_of_ne_nil h
  by_cases hc : c = .char '{'
  · subst hc
    by_cases hbrace : literal.head? = some (.char '{')
    · obtain ⟨rest, rfl⟩ := List.head?_eq_some_iff.mp hbrace
      exact Or.inl ⟨.brace, [.char '{', .char '{'], rest, rfl, by simp, .of_none rfl _ _,
        segments_brace strict offset rest⟩
    · cases hs : splitAtFirst (.char '}') literal with
      | none =>
        refine Or.inr ⟨_, segments_unclosed hbrace hs strict offset, [], _, [],
          (List.append_nil _).symm, by simp, rfl, rfl⟩
      | some halves =>
        obtain ⟨inner, after⟩ := halves
        obtain ⟨rfl, -⟩ := splitAtFirst_eq_some_iff.mp hs
        by_cases hclose : after.head? = some (.char '}')
        · obtain ⟨rest, rfl⟩ := List.head?_eq_some_iff.mp hclose
          refine Or.inl ⟨.swallowed, .char '{' :: inner ++ [.char '}', .char '}'], rest, by simp,
            by simp, .of_none rfl _ _, ?_⟩
          have hopen : ∀ more, inner ++ .char '}' :: .char '}' :: rest = .char '{' :: more →
              False := by
            intro more heq
            rw [heq] at hbrace
            exact hbrace rfl
          have hlength : offset + (.char '{' :: inner ++ [.char '}', .char '}'] : Text).length =
              offset + inner.length + 2 + 1 := by
            simp only [List.length_append, List.length_cons, List.length_nil]
            omega
          rw [segments_swallowed hopen hs, hlength]
        · have hlength : offset + (.char '{' :: inner ++ [.char '}'] : Text).length =
              offset + inner.length + 2 := by
            simp only [List.length_append, List.length_cons, List.length_nil]
            omega
          have hfront : .char '{' :: (inner ++ .char '}' :: after) =
              (.char '{' :: inner ++ [.char '}']) ++ after := by simp
          rw [segments_placeholder hbrace hs hclose, parts_eq]
          by_cases ha : argumentText inner = []
          · cases strict with
            | true =>
              refine Or.inr
                ⟨_, by rw [if_pos ha, if_pos rfl], [], _, after, hfront, by simp, rfl, ?_⟩
              simp [Fault.length]
            | false =>
              refine Or.inl ⟨.shown (conversionText inner ++ fromColon inner), _, after, hfront,
                by simp, .of_none rfl _ _, ?_⟩
              rw [if_pos ha, if_neg (by decide), hlength]
          · refine Or.inl ⟨_, _, after, hfront, by simp, ?_, by rw [if_neg ha, hlength]⟩
            rintro a ⟨⟩
            obtain ⟨tail, htail⟩ := prefix_of_argumentText inner
            refine ⟨ha, rfl, tail ++ [.char '}'], ?_⟩
            rw [List.cons_append, List.cons_append, ← List.append_assoc, htail]
  · exact Or.inl ⟨.plain c, [c], literal, rfl, by simp, .of_none rfl _ _,
      segments_plain hc strict offset literal⟩

/-- **The arguments of a literal** stand in it, one behind the other. -/
theorem standsIn_of_segments {strict : Bool} {offset : Nat} {literal : Text}
    {segs : List Segment} (h : segments strict offset literal = .ok segs) :
    (∀ a ∈ segs.filterMap Segment.argument?, a.StandsIn offset literal) ∧
      (segs.filterMap Segment.argument?).Pairwise (·.offset < ·.offset) := by
  induction segs generalizing offset literal with
  | nil => simp
  | cons s segs ih =>
    have hne : literal ≠ [] := by
      rintro rfl
      rw [segments] at h
      cases h
    rcases segments_cases strict offset hne with
      ⟨s', front, rest, rfl, hfront, hs, heq⟩ | ⟨f, hf, -⟩
    · rw [heq] at h
      obtain ⟨more, hm, hcons⟩ := Outcome.map_eq_ok_iff.mp h
      cases hcons
      obtain ⟨hstands, hsorted⟩ := ih hm
      cases ha : s.argument? with
      | none =>
        rw [List.filterMap_cons_none ha]
        exact ⟨fun b hb => (hstands b hb).append, hsorted⟩
      | some a =>
        rw [List.filterMap_cons_some ha]
        refine ⟨List.forall_mem_cons.mpr ⟨hs.standsIn rest ha, fun b hb => (hstands b hb).append⟩,
          List.pairwise_cons.mpr ⟨fun b hb => ?_, hsorted⟩⟩
        obtain ⟨-, hoffset, -⟩ := hs a ha
        obtain ⟨-, before, after, -, hb⟩ := hstands b hb
        have := List.length_pos_iff.mpr hfront
        omega
    · rw [hf] at h
      cases h

/-- The fault of a literal is that of a part of it. -/
theorem isIn_of_segments {strict : Bool} {offset : Nat} {literal : Text} {f : Fault}
    (h : segments strict offset literal = .error f) : f.IsIn offset literal := by
  induction hn : literal.length using Nat.strongRecOn generalizing offset literal with
  | ind n ih =>
    have hne : literal ≠ [] := by
      rintro rfl
      rw [segments] at h
      cases h
    rcases segments_cases strict offset hne with
      ⟨s, front, rest, rfl, hfront, -, heq⟩ | ⟨f', hf, hin⟩
    · rw [heq, Outcome.map_eq_error_iff] at h
      have := List.length_pos_iff.mpr hfront
      rw [List.length_append] at hn
      exact (ih rest.length (by omega) h rfl).append
    · rw [hf] at h
      cases h
      exact hin

/-! ### Compiled messages -/

/-- **The arguments of a message** stand in its literal, one behind the other. -/
theorem standsIn_of_compile {strict : Bool} {literal : Text} {m : Message}
    (h : compile strict literal = .ok m) :
    (∀ a ∈ m.arguments, a.StandsIn 0 literal) ∧ m.arguments.Pairwise (·.offset < ·.offset) := by
  obtain ⟨segs, -, hsegs, -, rfl⟩ := compile_eq_ok_iff.mp h
  exact standsIn_of_segments hsegs

/-- **The fault of a literal** is that of a part of it. -/
theorem isIn_of_compile {strict : Bool} {literal : Text} {f : Fault}
    (h : compile strict literal = .error f) : f.IsIn 0 literal := by
  unfold compile at h
  cases hsegs : segments strict 0 literal with
  | error fault =>
    rw [hsegs] at h
    cases h
    exact isIn_of_segments hsegs
  | ok segs =>
    rw [hsegs] at h
    simp only [bind, Except.bind] at h
    split at h
    · cases h
    · next cause hchunks =>
      cases h
      refine ⟨[], literal, [], by simp, ?_, rfl, rfl⟩
      rintro rfl
      rw [segments] at hsegs
      cases hsegs
      rw [Message.ofSegments, List.flatMap_nil, Template.chunks] at hchunks
      cases hchunks

end Errata.Placeholder
