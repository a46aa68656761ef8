/-!
# Associations

A list of keys and values is read from its front: the first entry of a key counts. Setting a key
changes its first entry in place, and a key that is new is added at the end.

## Main statements

* `lookup_setEntry_self`: a key that was set has its new value.
* `lookup_setEntry_of_ne`: the other keys keep theirs.
* `lookup_eq_some_iff_mem`: an entry is found by its key if the entries of a key do not differ.
-/

namespace Errata

variable {κ α : Type} [BEq κ]

/-- The entries with the value of a key changed. -/
def setEntry (key : κ) (value : α) : List (κ × α) → List (κ × α)
  | [] => [(key, value)]
  | (k, v) :: rest => if k == key then (key, value) :: rest else (k, v) :: setEntry key value rest

variable [LawfulBEq κ]

/-- A key that was set has its new value. -/
theorem lookup_setEntry_self (key : κ) (value : α) (entries : List (κ × α)) :
    (setEntry key value entries).lookup key = some value := by
  induction entries with
  | nil => exact List.lookup_cons_self
  | cons entry rest ih =>
    obtain ⟨k, v⟩ := entry
    rw [setEntry]
    split
    · exact List.lookup_cons_self
    · next h =>
      rw [List.lookup_cons, beq_false_of_ne fun e => h (beq_iff_eq.mpr e.symm)]
      exact ih

/-- Setting a key leaves the values of the other keys. -/
theorem lookup_setEntry_of_ne {key other : κ} (value : α) (entries : List (κ × α))
    (h : other ≠ key) : (setEntry key value entries).lookup other = entries.lookup other := by
  induction entries with
  | nil => rw [setEntry, List.lookup_cons, beq_false_of_ne h]
  | cons entry rest ih =>
    obtain ⟨k, v⟩ := entry
    rw [setEntry]
    split
    · next hk =>
      rw [beq_iff_eq] at hk
      rw [List.lookup_cons, List.lookup_cons, hk, beq_false_of_ne h]
    · rw [List.lookup_cons, List.lookup_cons, ih]

/-- A found entry is an entry. -/
theorem mem_of_lookup {key : κ} {value : α} {entries : List (κ × α)}
    (h : entries.lookup key = some value) : (key, value) ∈ entries := by
  obtain ⟨front, back, rfl, -⟩ := List.lookup_eq_some_iff.mp h
  exact List.mem_append_right _ List.mem_cons_self

/-- An entry is found by its key, or another one is. -/
theorem exists_lookup_of_mem {key : κ} {value : α} {entries : List (κ × α)}
    (h : (key, value) ∈ entries) : ∃ found, entries.lookup key = some found := by
  induction entries with
  | nil => cases h
  | cons entry entries ih =>
    obtain ⟨other, first⟩ := entry
    rw [List.lookup_cons]
    split
    · exact ⟨first, rfl⟩
    · next hkey =>
      refine ih ((List.mem_cons.mp h).resolve_left fun heq => ?_)
      obtain ⟨rfl, -⟩ := Prod.mk.inj heq
      simp at hkey

/-- An entry is found by its key exactly if it is one, where the entries of a key do not differ. -/
theorem lookup_eq_some_iff_mem {entries : List (κ × α)}
    (hsame : ∀ key a b, (key, a) ∈ entries → (key, b) ∈ entries → a = b) {key : κ} {value : α} :
    entries.lookup key = some value ↔ (key, value) ∈ entries := by
  refine ⟨mem_of_lookup, fun hmem => ?_⟩
  obtain ⟨found, hfound⟩ := exists_lookup_of_mem hmem
  rw [hfound, hsame key found value (mem_of_lookup hfound) hmem]

end Errata
