import Errata.Error.Store

/-!
# Copies

An error that is stored away and fetched again is a copy: a new object with the same class and the
same attributes, in which the objects it refers to are copies too. What an error is chained to is
not stored.

## Main definitions

* `Store.copy`: copies an error with all it refers to.
-/

namespace Errata.Error

/-- Copies under way: the objects made so far, and the copies among them. -/
structure Copying where
  /-- The objects made so far. -/
  store : Store
  /-- Each copied object with its copy. -/
  copies : List (Ref × Ref) := []

mutual

/-- Copies the objects in a value. -/
def copyValue (copyObject : Copying → Ref → Except Failure (Ref × Copying)) (c : Copying) :
    Value → Except Failure (Value × Copying)
  | .object r => do
    let (copied, c) ← copyObject c r
    return (.object copied, c)
  | .list items => do
    let (copied, c) ← copyValues copyObject c items
    return (.list copied, c)
  | v => .ok (v, c)

/-- Copies the objects in values. -/
def copyValues (copyObject : Copying → Ref → Except Failure (Ref × Copying)) (c : Copying) :
    List Value → Except Failure (List Value × Copying)
  | [] => .ok ([], c)
  | v :: rest => do
    let (first, c) ← copyValue copyObject c v
    let (others, c) ← copyValues copyObject c rest
    return (first :: others, c)

end

/-- Copies the objects in the values of entries. -/
def copyEntries (copyObject : Copying → Ref → Except Failure (Ref × Copying)) (c : Copying)
    (entries : List (String × Value)) :
    Except Failure (List (String × Value) × Copying) := do
  let (values, c) ← copyValues copyObject c (entries.map Prod.snd)
  return ((entries.map Prod.fst).zip values, c)

/-- Copies an object, unless it was copied before. Objects that it refers to are copied first, at
most `depth` levels deep. -/
def copyObject : Nat → Copying → Ref → Except Failure (Ref × Copying)
  | 0, _, _ => .error .endless
  | depth + 1, c, r =>
    match c.copies.lookup r with
    | some copied => .ok (copied, c)
    | none => do
      let (object, c) ←
        match c.store.get? r with
        | some (.error e) => do
          let (arguments, c) ← copyValues (copyObject depth) c e.arguments
          let (attributes, c) ← copyEntries (copyObject depth) c e.attributes
          pure (some (Object.error { kind := e.kind, arguments, attributes }), c)
        | some (.selector x) => do
          let (fields, c) ← copyEntries (copyObject depth) c x.fields
          pure (some (Object.selector { x with fields }), c)
        | none => pure (none, c)
      match object with
      | none => return (r, c)
      | some object =>
        let (copied, store) := c.store.add object
        return (copied, { store, copies := (r, copied) :: c.copies })

/-- Copies an error with all it refers to. -/
def Store.copy (s : Store) (r : Ref) : Except Failure (Ref × Store) := do
  let (copied, c) ← copyObject s.size { store := s } r
  return (copied, c.store)

end Errata.Error
