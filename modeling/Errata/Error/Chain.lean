import Errata.Error.Store

/-!
# Chains of causes

Every error may have a cause, which is an error as well. For a generated error it is what the field
`source` holds; for any other it is the error it is chained to. Following causes from an error gives
its chain; a cause that is already in the chain ends it.

## Main definitions

* `Store.cause`: the cause that a generated error tells of.
* `Store.source`: the cause of an error of any kind.
* `Store.sources`: the chain of an error.
-/

namespace Errata.Error

/-- The field that holds the cause of an error. -/
def sourceField : String := "source"

/-- The field that holds the place where an error was made. -/
def locationField : String := "location"

/-- A chain of causes. -/
structure Chain where
  /-- The members, outermost first. The last may be no error. -/
  members : List Value
  /-- What ended the chain, if it was a failure. -/
  failure : Option Failure := none

/-- A chain with one more member in front. -/
def Chain.cons (v : Value) (c : Chain) : Chain :=
  { c with members := v :: c.members }

namespace Store

/-- The cause that a generated error tells of. -/
def causeOf (s : Store) (r : Ref) (e : ErrorObject) : Except Failure Value :=
  match e.kind with
  | .variant _ v =>
    if v.source?.isSome then s.attributeOf (.object r) sourceField else .ok .none
  | _ => .ok .none

/-- The cause that a generated error tells of. No other value tells of one. -/
def cause (s : Store) (v : Value) : Except Failure Value :=
  match s.error? v with
  | some (r, e) =>
    if e.kind.isGenerated then s.causeOf r e else .error (s.lacks v "cause")
  | none => .error (s.lacks v "cause")

/-- The direct cause of an error. -/
def source (s : Store) (v : Value) : Except Failure Value :=
  match s.error? v with
  | some (r, e) => if e.kind.isGenerated then s.causeOf r e else s.chainedTo v
  | none => s.chainedTo v

/-- How many references below `n` are not among those seen. -/
def unseen (n : Nat) (seen : List Ref) : Nat :=
  ((List.range n).filter (!seen.contains ·)).length

/-- Seeing one more reference leaves fewer unseen. -/
theorem unseen_cons_lt {n : Nat} {seen : List Ref} {r : Ref} (hn : r < n) (hs : r ∉ seen) :
    unseen n (r :: seen) < unseen n seen := by
  unfold unseen
  have step : (List.range n).filter (!(r :: seen).contains ·) =
      ((List.range n).filter (!seen.contains ·)).filter (· ≠ r) := by
    rw [List.filter_filter]
    apply List.filter_congr
    intro x _
    by_cases h : x = r <;> simp [h]
  rw [step]
  apply List.length_filter_lt_length_iff_exists.mpr
  exact ⟨r, by simp [hn, hs], by simp⟩

/-- The rest of a chain from a value on, where some errors are already in the chain. A value that is
no error has no cause, which is a failure after it. -/
def sourcesFrom (s : Store) (seen : List Ref) (v : Value) : Chain :=
  match v with
  | .none => ⟨[], none⟩
  | .object r =>
    if h : r < s.size ∧ r ∉ seen then
      have := unseen_cons_lt h.1 h.2
      (match s.source v with
      | .ok next => s.sourcesFrom (r :: seen) next
      | .error failure => ⟨[], some failure⟩).cons v
    else ⟨[], none⟩
  | _ => ⟨[v], some (s.lacks v chainAttribute)⟩
termination_by unseen s.size seen

/-- The chain of an error: the error, its cause, the cause of that, and so on. -/
def sources (s : Store) (v : Value) : Chain :=
  s.sourcesFrom [] v

end Store

end Errata.Error
