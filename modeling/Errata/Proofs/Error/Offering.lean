import Errata.Error.Render
import Errata.Proofs.Outcome
import Mathlib.Data.List.Induction

/-!
# The first answer to a request is kept

A request is offered values of any kinds, one after another; some have to be worked out first, and
that may fail. What counts for the request is the first offer of its kind that gives a value. Before
it nothing is kept, and behind it nothing is worked out any more.

* `take_eq_provide`: **one offer** in a running program is an offer to the request it holds.
* `answer_left`, `called_left`, `left_of_not_wants`: what an offer leaves of the program.
* `Gives`, `IsGiven`, `IsFirstGiven`: the values that the offers in a row give.
* `answer_after_eq_some_iff`: **what a row of offers leaves** in the request.
* **`takeAll_keeps_first`**: when the request is answered, by what, and what is worked out for it.
-/

namespace Errata.Error

open Held (after)

variable {σ ε κ α : Type}

/-! ### One offer -/

namespace Held

/-- What work comes to that has nothing to do with the request. -/
theorem run_call (make : Work σ ε α) (held : Held σ κ α) :
    (call make : Work (Held σ κ α) ε α).run.run held =
      ((make.run.run held.state).1,
        { held with state := (make.run.run held.state).2, called := held.called + 1 }) := rfl

/-- What an offer comes to that is wanted: its value is worked out, and kept if there is one. -/
theorem run_accept (bid : Bid σ ε κ α) (held : Held σ κ α) :
    (accept bid).run.run held =
      let state := (bid.make.run.run held.state).2
      let called := if bid.isLazy then held.called + 1 else held.called
      match (bid.make.run.run held.state).1 with
      | .ok a => (.ok (), ⟨{ held.request with answer := some a }, state, called⟩)
      | .error failure => (.error failure, ⟨held.request, state, called⟩) := by
  cases bid with
  | value kind a => rfl
  | lazily kind make =>
    rw [accept, Outcome.run_bind, run_call]
    simp only [Bid.make]
    rcases make.run.run held.state with ⟨_ | _, _⟩ <;> rfl

variable [DecidableEq κ]

/-- What an offer comes to: it is passed over, unless the request wants it. -/
theorem run_take (bid : Bid σ ε κ α) (held : Held σ κ α) :
    (take bid).run.run held =
      if held.request.wants bid.kind then (accept bid).run.run held else (.ok (), held) := by
  have hrun : (take bid).run.run held =
      (if held.request.wants bid.kind then accept bid else pure () :
        Work (Held σ κ α) ε Unit).run.run held := rfl
  rw [hrun]
  split <;> rfl

/-- **An offer made by a running program** is an offer to the request: what is worked out for it is
work of the program, and if that fails the request stays as it was. -/
theorem take_eq_provide (bid : Bid σ ε κ α) (held : Held σ κ α) :
    (take bid).run.run held =
      let offer := bid.offerIn held.state
      let calls := held.request.calls bid.kind offer
      let state := if calls then (bid.make.run.run held.state).2 else held.state
      let called := if calls then held.called + 1 else held.called
      match held.request.provide bid.kind offer with
      | .ok request => (.ok (), ⟨request, state, called⟩)
      | .error failure => (.error failure, ⟨held.request, state, called⟩) := by
  rw [run_take, run_accept]
  cases hwants : held.request.wants bid.kind with
  | false => cases bid <;> simp [Bid.offerIn, Request.provide, Request.calls, hwants]
  | true =>
    cases bid with
    | value kind a =>
      simp only [Bid.offerIn, Request.provide, hwants]
      rfl
    | lazily kind make =>
      simp only [Bid.offerIn, Bid.make, Bid.isLazy, Request.provide, Request.calls, hwants]
      cases (make.run.run held.state).1 <;> rfl

/-- A request wants an offer of its kind as long as nothing is kept. -/
theorem wants_iff {request : Request κ α} {kind : κ} :
    request.wants kind = true ↔ kind = request.kind ∧ request.answer = none := by
  simp [Request.wants]

/-- An offer that is not wanted changes nothing, whatever it is. -/
theorem left_of_not_wants {held : Held σ κ α} {bid : Bid σ ε κ α}
    (h : held.request.wants bid.kind = false) : held.left bid = held := by
  rw [left, run_take, h]
  rfl

/-- The value that an offer of a kind gives in a state of the program, if it does. -/
def given (kind : κ) (state : σ) (bid : Bid σ ε κ α) : Option α :=
  if bid.kind = kind then (bid.make.run.run state).1.toOption else none

/-- An offer leaves the kind that is asked for. -/
theorem kind_left (held : Held σ κ α) (bid : Bid σ ε κ α) :
    (held.left bid).request.kind = held.request.kind := by
  rw [left, run_take, run_accept]
  split
  · dsimp only
    split <;> rfl
  · rfl

/-- **What is kept after an offer** is what was kept before it, or else what the offer gives. -/
theorem answer_left (held : Held σ κ α) (bid : Bid σ ε κ α) :
    (held.left bid).request.answer =
      held.request.answer.or (given held.request.kind held.state bid) := by
  rw [left, run_take, run_accept, given]
  cases hanswer : held.request.answer with
  | some a => simp [Request.wants, hanswer]
  | none =>
    by_cases hkind : bid.kind = held.request.kind
    · rw [if_pos (wants_iff.mpr ⟨hkind, hanswer⟩), if_pos hkind]
      cases (bid.make.run.run held.state).1 with
      | ok a => rfl
      | error failure => exact hanswer
    · rw [if_neg fun h => hkind (wants_iff.mp h).1, if_neg hkind]
      exact hanswer

/-- A value is worked out for an offer if the offer is lazy and wanted. -/
theorem called_left (held : Held σ κ α) (bid : Bid σ ε κ α) :
    (held.left bid).called =
      if bid.isLazy && held.request.wants bid.kind then held.called + 1 else held.called := by
  rw [left, run_take, run_accept]
  cases held.request.wants bid.kind with
  | false => simp
  | true => cases (bid.make.run.run held.state).1 <;> simp

/-- An offer whose value fails to come leaves the request as it was. -/
theorem request_left_of_error {held : Held σ κ α} {bid : Bid σ ε κ α} {failure : ε}
    (h : (bid.make.run.run held.state).1 = .error failure) :
    (held.left bid).request = held.request := by
  rw [left, run_take, run_accept, h]
  split <;> rfl

end Held

/-! ### A row of offers -/

variable [DecidableEq κ]

/-- The last offer of a row is made to what the others leave. -/
theorem after_concat (kind : κ) (start : σ) (bids : List (Bid σ ε κ α)) (bid : Bid σ ε κ α) :
    after kind start (bids ++ [bid]) = (after kind start bids).left bid := by
  rw [after, Held.takeAll, List.foldl_concat]
  rfl

/-- The kind that is asked for stays the same. -/
theorem kind_after (kind : κ) (start : σ) (bids : List (Bid σ ε κ α)) :
    (after kind start bids).request.kind = kind := by
  induction bids using List.reverseRecOn with
  | nil => rfl
  | append_singleton bids bid ih => rw [after_concat, Held.kind_left, ih]

/-- An offer behind others gives a value: it is of the kind that is asked for, and its value comes
about in the state that the others leave. -/
def Gives (kind : κ) (start : σ) (before : List (Bid σ ε κ α)) (bid : Bid σ ε κ α) (a : α) :
    Prop :=
  bid.kind = kind ∧ (bid.make.run.run (after kind start before).state).1 = .ok a

/-- Some offer of a row gives the value. -/
def IsGiven (kind : κ) (start : σ) (bids : List (Bid σ ε κ α)) (a : α) : Prop :=
  ∃ before bid rest, bids = before ++ bid :: rest ∧ Gives kind start before bid a

/-- The first offer of a row that gives a value gives this one. -/
def IsFirstGiven (kind : κ) (start : σ) (bids : List (Bid σ ε κ α)) (a : α) : Prop :=
  ∃ before bid rest, bids = before ++ bid :: rest ∧ Gives kind start before bid a ∧
    ∀ b, ¬ IsGiven kind start before b

variable {kind : κ} {start : σ} {bids : List (Bid σ ε κ α)} {bid : Bid σ ε κ α} {a : α}

/-- What an offer behind others gives. -/
theorem given_eq_some_iff :
    Held.given kind (after kind start bids).state bid = some a ↔ Gives kind start bids bid a := by
  rw [Held.given, Gives]
  split
  · next hkind => rw [Outcome.toOption_eq_some_iff, and_iff_right hkind]
  · next hkind => simp [hkind]

/-- What is kept after the last offer of a row. -/
theorem answer_after_concat :
    (after kind start (bids ++ [bid])).request.answer =
      (after kind start bids).request.answer.or
        (Held.given kind (after kind start bids).state bid) := by
  rw [after_concat, Held.answer_left, kind_after]

/-- What stands at some place of a row with one more entry stands at a place of the row, or is that
entry. -/
theorem exists_split_concat_iff {β : Type} {row : List β} {last : β} {P : List β → β → Prop} :
    (∃ before entry rest, row ++ [last] = before ++ entry :: rest ∧ P before entry) ↔
      (∃ before entry rest, row = before ++ entry :: rest ∧ P before entry) ∨ P row last := by
  constructor
  · rintro ⟨before, entry, rest, heq, h⟩
    rcases List.eq_nil_or_concat' rest with rfl | ⟨rest, other, rfl⟩
    · obtain ⟨rfl, hlast⟩ := List.append_inj' heq rfl
      cases hlast
      exact .inr h
    · rw [← List.cons_append, ← List.append_assoc] at heq
      exact .inl ⟨before, entry, rest, (List.append_inj' heq rfl).1, h⟩
  · rintro (⟨before, entry, rest, rfl, h⟩ | h)
    · exact ⟨before, entry, rest ++ [last], by simp, h⟩
    · exact ⟨row, last, [], rfl, h⟩

/-- The values given in a row with one more offer. -/
theorem isGiven_concat_iff :
    IsGiven kind start (bids ++ [bid]) a ↔
      IsGiven kind start bids a ∨ Gives kind start bids bid a :=
  exists_split_concat_iff

/-- The first value given in a row with one more offer. -/
theorem isFirstGiven_concat_iff :
    IsFirstGiven kind start (bids ++ [bid]) a ↔
      IsFirstGiven kind start bids a ∨
        Gives kind start bids bid a ∧ ∀ b, ¬ IsGiven kind start bids b :=
  exists_split_concat_iff

/-- If values are given, one of them is the first. -/
theorem exists_isFirstGiven_iff :
    (∃ a, IsFirstGiven kind start bids a) ↔ ∃ a, IsGiven kind start bids a := by
  constructor
  · rintro ⟨a, before, bid, rest, heq, hgives, -⟩
    exact ⟨a, before, bid, rest, heq, hgives⟩
  · intro h
    induction bids using List.reverseRecOn with
    | nil =>
      obtain ⟨a, before, bid, rest, heq, -⟩ := h
      simp at heq
    | append_singleton bids bid ih =>
      simp only [isGiven_concat_iff, exists_or] at h
      simp only [isFirstGiven_concat_iff, exists_or]
      by_cases hbids : ∃ a, IsGiven kind start bids a
      · exact .inl (ih hbids)
      · obtain ⟨a, hgives⟩ := h.resolve_left hbids
        exact .inr ⟨a, hgives, fun b hb => hbids ⟨b, hb⟩⟩

/-- What holds the first value given holds nothing if none is given. -/
theorem eq_none_iff_of_first {answer : Option α}
    (h : ∀ a, answer = some a ↔ IsFirstGiven kind start bids a) :
    answer = none ↔ ∀ a, ¬ IsGiven kind start bids a := by
  rw [Option.eq_none_iff_forall_ne_some, ← not_exists, ← not_exists, ← exists_isFirstGiven_iff]
  simp only [h]

/-- **What a row of offers leaves in the request** is the first value that is given in it. -/
theorem answer_after_eq_some_iff :
    (after kind start bids).request.answer = some a ↔ IsFirstGiven kind start bids a := by
  induction bids using List.reverseRecOn generalizing a with
  | nil =>
    constructor
    · exact fun h => nomatch h
    · rintro ⟨before, bid, rest, heq, -⟩
      simp at heq
  | append_singleton bids bid ih =>
    -- The last offer counts only if nothing is kept of the others.
    rw [answer_after_concat, Option.or_eq_some_iff, ih, eq_none_iff_of_first fun _ => ih,
      given_eq_some_iff, isFirstGiven_concat_iff, and_comm]

/-- A request is answered after a row of offers if some value is given in it. -/
theorem isSome_answer_after_iff :
    (after kind start bids).request.answer.isSome = true ↔ ∃ a, IsGiven kind start bids a := by
  rw [Option.isSome_iff_ne_none, ne_eq, eq_none_iff_of_first fun _ => answer_after_eq_some_iff,
    not_forall_not]

/-- A value is worked out for the last offer of a row if the offer is lazy, of the kind that is
asked for, and nothing is kept of the others. -/
theorem called_after_concat_ne_iff :
    (after kind start (bids ++ [bid])).called ≠ (after kind start bids).called ↔
      bid.isLazy = true ∧ bid.kind = kind ∧ (after kind start bids).request.answer = none := by
  rw [after_concat, Held.called_left]
  have hwants : (after kind start bids).request.wants bid.kind = true ↔
      bid.kind = kind ∧ (after kind start bids).request.answer = none := by
    rw [Held.wants_iff, kind_after]
  rw [← hwants, ← Bool.and_eq_true]
  split
  · next h => exact iff_of_true (Nat.succ_ne_self _) h
  · next h => exact iff_of_false (fun hne => hne rfl) h

/-- The last offer of a row changes nothing if it is of another kind, or something is kept of the
others. -/
theorem after_concat_of_not_wants
    (h : ¬ (bid.kind = kind ∧ (after kind start bids).request.answer = none)) :
    after kind start (bids ++ [bid]) = after kind start bids := by
  rw [after_concat]
  refine Held.left_of_not_wants (Bool.eq_false_iff.mpr fun hwants => h ?_)
  rwa [Held.wants_iff, kind_after] at hwants

/-- **The first answer to a request is kept.** After a row of offers a request is answered exactly
if a value of its kind was given, and it holds the first one. An offer is worked out only if it is
of that kind and nothing was kept before it, and changes nothing otherwise; one whose value fails to
come leaves the request as it was. -/
theorem takeAll_keeps_first (kind : κ) (start : σ) (bids : List (Bid σ ε κ α)) :
    ((after kind start bids).request.answer.isSome = true ↔ ∃ a, IsGiven kind start bids a) ∧
      (∀ a, (after kind start bids).request.answer = some a ↔ IsFirstGiven kind start bids a) ∧
      ∀ (before : List (Bid σ ε κ α)) (bid : Bid σ ε κ α) (rest : List (Bid σ ε κ α)),
        bids = before ++ bid :: rest →
        ((after kind start (before ++ [bid])).called ≠ (after kind start before).called ↔
          bid.isLazy = true ∧ bid.kind = kind ∧
            (after kind start before).request.answer = none) ∧
        (¬ (bid.kind = kind ∧ (after kind start before).request.answer = none) →
          after kind start (before ++ [bid]) = after kind start before) ∧
        ∀ failure, (bid.make.run.run (after kind start before).state).1 = .error failure →
          (after kind start (before ++ [bid])).request = (after kind start before).request := by
  refine ⟨isSome_answer_after_iff, fun _ => answer_after_eq_some_iff, fun before bid _ _ =>
    ⟨called_after_concat_ne_iff, after_concat_of_not_wants, fun failure hfails => ?_⟩⟩
  rw [after_concat]
  exact Held.request_left_of_error hfails

/-- Offers to a program that counts what it works out: one of another kind, one that fails, one that
gives a value, and two that come too late. -/
def mixedBids : List (Bid Nat String String Nat) :=
  [.value "place" 1, .lazily "help" (do modify (· + 1); throw "broken"),
    .lazily "help" (do modify (· + 1); return 7), .value "help" 9,
    .lazily "help" (do modify (· + 1); return 11)]

/-- The second offer of a row fails, the third is kept, and nothing is worked out behind it. -/
theorem takeAll_keeps_first_mixed :
    (after "help" 0 mixedBids).request.answer = some 7 ∧ (after "help" 0 mixedBids).state = 2 ∧
      (∃ a, IsGiven "help" 0 mixedBids a) ∧
      (after "help" 0 (mixedBids.take 2)).request = (after "help" 0 (mixedBids.take 1)).request ∧
      after "help" 0 mixedBids = after "help" 0 (mixedBids.take 4) := by
  obtain ⟨hsome, -, hsplit⟩ := takeAll_keeps_first "help" 0 mixedBids
  obtain ⟨-, -, hfails⟩ := hsplit (mixedBids.take 1) _ (mixedBids.drop 2) rfl
  obtain ⟨-, hlate, -⟩ := hsplit (mixedBids.take 4) _ [] rfl
  exact ⟨rfl, rfl, hsome.mp rfl, hfails "broken" rfl, hlate fun h => nomatch h.2⟩

end Errata.Error
