/-
When the probe loops of hash.h end.

The three loops stop at an empty slot, and `find` also at its key. A table that
is full has neither for an absent key, and nothing counts the slots looked at.
-/

import CS421.Hash.Search

set_option autoImplicit false

namespace CS421.Hash

open Loops Probing

inductive Operation where
  | find (key : Int32)
  | insert (allocated : Bool) (key data : Int32)
  | remove (item : Pointer)
  deriving DecidableEq, Repr

def Operation.key (store : Store) : Operation → Int32
  | .find key => key
  | .insert _ key _ => key
  | .remove item => store.keyOf item

def Store.Full (store : Store) : Prop := ∀ place, store.hashTable place ≠ none

/-- The operation looks at no more than so many slots and returns: NULL for an
absent key, an error where an insert has no slot left. -/
def EndsWithin (turns : Nat) (store : Store) : Operation → Prop
  | .find key =>
      ∃ result, find turns key store = some (.ok result) ∧ (store.Absent key → result = none)
  | .insert allocated key data =>
      ∃ answer next, insert turns allocated key data store = some (.ok (answer, next)) ∧
        (store.Full → answer ≠ 0)
  | .remove item =>
      ∃ result next, remove turns item store = some (.ok (result, next)) ∧
        (store.Absent (store.keyOf item) → result = none)

def Settled (store : Store) : Operation → Prop
  | .find key => ¬ store.Full ∨ ¬ store.Absent key
  | .insert allocated _ _ => ¬ store.Full ∨ allocated = false
  | .remove item =>
      if store.keyOf item = 0 then ¬ store.Full
      else store.hashTable (homeOf (store.keyOf item)) = none ∨ ¬ store.Absent (store.keyOf item)

theorem not_full_iff {store : Store} : ¬ store.Full ↔ ∃ place, store.hashTable place = none := by
  unfold Store.Full
  rw [not_forall]
  exact exists_congr (fun _ => not_not)

theorem not_absent_iff {store : Store} {key : Int32} :
    ¬ store.Absent key ↔
      ∃ place pointer, store.hashTable place = some pointer ∧ store.keyOf pointer = key := by
  unfold Store.Absent
  simp only [not_forall, not_not, exists_prop]

section Loops

variable {store : Store}

theorem find_ends_iff {key : Int32} (homed : Homed key) :
    (∃ result, find SIZE key store = some (.ok result)) ↔ ¬ store.Full ∨ ¬ store.Absent key := by
  have stops : (∃ place, lookup store.keyOf store.hashTable key place ≠ none) ↔
      ¬ store.Full ∨ ¬ store.Absent key := by
    rw [not_full_iff, not_absent_iff, ← exists_or]
    exact exists_congr (fun place => lookup_ne_none_iff)
  rw [← stops, ← run_scan_ends_iff Fault]
  exact exists_congr (fun result => (find_iff homed).trans (run_scan_iff Fault).symm)

theorem find_absent {turns : Nat} {key : Int32} {result : Option Pointer} (absent : store.Absent key)
    (ran : find turns key store = some (.ok result)) : result = none := by
  obtain ⟨n, _, settles⟩ := (find_iff (homed_of_find ran)).mp ran
  exact settles.lookup_absent absent

theorem vacant_ends_iff {home : Fin SIZE} :
    (∃ place, run (scan (vacant store.hashTable) Fault) SIZE home = some (.ok place)) ↔
      ¬ store.Full := by
  rw [run_scan_ends_iff, not_full_iff]
  exact exists_congr (fun place => vacant_ne_none_iff)

theorem insert_ends_iff {key data : Int32} (homed : Homed key) :
    (∃ answer next, insert SIZE true key data store = some (.ok (answer, next))) ↔ ¬ store.Full := by
  have loop : (∃ place, run (insertTurn (store.allocate key data)) SIZE (getHash key) =
      some (.ok place)) ↔ ¬ store.Full := by
    rw [← vacant_ends_iff]
    exact exists_congr (fun place => (insertTurn_iff homed).trans (run_scan_iff Fault).symm)
  rw [← loop, insert, if_pos rfl]
  dsimp only
  cases run (insertTurn (store.allocate key data)) SIZE (getHash key) with
  | none => simp
  | some out =>
      cases out with
      | error fault => simp
      | ok place => simp

theorem remove_zero_ends_iff {item : Pointer} (zero : store.keyOf item = 0) :
    (∃ answer, remove SIZE item store = some (.ok answer)) ↔ ¬ store.Full :=
  (remove_zero zero).ends_iff.trans vacant_ends_iff

/-- In a full table the probe for an absent key goes round for ever. -/
theorem find_never_ends {key : Int32} (homed : Homed key) (full : store.Full)
    (absent : store.Absent key) (turns : Nat) : find turns key store = none := by
  refine (find_follows homed).none_iff.mpr (run_scan_passes Fault (fun m _ => ?_))
  obtain ⟨pointer, stored⟩ := Option.ne_none_iff_exists'.mp (full (probe (homeOf key) m))
  exact lookup_none_iff.mpr ⟨pointer, stored, absent _ pointer stored⟩

theorem endsWithin_find_iff {key : Int32} (homed : Homed key) :
    EndsWithin SIZE store (.find key) ↔ Settled store (.find key) := by
  have loop : _ ↔ Settled store (.find key) := find_ends_iff homed
  rw [← loop]
  constructor
  · rintro ⟨result, ran, _⟩
    exact ⟨result, ran⟩
  · rintro ⟨result, ran⟩
    exact ⟨result, ran, fun absent => find_absent absent ran⟩

theorem endsWithin_insert_iff {allocated : Bool} {key data : Int32} (homed : Homed key) :
    EndsWithin SIZE store (.insert allocated key data) ↔
      Settled store (.insert allocated key data) := by
  cases allocated with
  | false => exact iff_of_true ⟨1, store, rfl, fun _ => by decide⟩ (Or.inr rfl)
  | true =>
      have spare : Settled store (.insert true key data) ↔ ¬ store.Full :=
        or_iff_left Bool.true_eq_false.mp
      rw [spare]
      constructor
      · rintro ⟨answer, next, ran, _⟩
        exact (insert_ends_iff homed).mp ⟨answer, next, ran⟩
      · intro spare
        obtain ⟨answer, next, ran⟩ := (insert_ends_iff homed).mpr spare
        exact ⟨answer, next, ran, fun full => absurd full spare⟩

theorem endsWithin_remove_iff {item : Pointer} (homed : Homed (store.keyOf item)) :
    EndsWithin SIZE store (.remove item) ↔ Settled store (.remove item) := by
  by_cases zero : store.keyOf item = 0
  · rw [Settled, if_pos zero, ← remove_zero_ends_iff zero]
    constructor
    · rintro ⟨result, next, ran, _⟩
      exact ⟨(result, next), ran⟩
    · rintro ⟨⟨result, next⟩, ran⟩
      exact ⟨result, next, ran, fun _ => remove_zero_null zero ran⟩
  · rw [Settled, if_neg zero]
    cases held : store.hashTable (homeOf (store.keyOf item)) with
    | none => exact iff_of_true ⟨none, store, remove_empty homed held, fun _ => rfl⟩ (Or.inl rfl)
    | some pointer =>
        constructor
        · rintro ⟨result, next, ran, null⟩
          refine Or.inr (fun absent => ?_)
          rw [remove_home homed zero held] at ran
          obtain ⟨same, _⟩ := Prod.mk.inj (Except.ok.inj (Option.some.inj ran))
          cases same.trans (null absent)
        · intro settled
          have present := settled.resolve_left (Option.some_ne_none pointer)
          exact ⟨some pointer, _, remove_home homed zero held,
            fun absent => absurd absent present⟩

end Loops

/-- Every operation with a valid key returns after at most thirty slots, with the
answer it should give, exactly when the table, or the allocation, settles it. -/
theorem endsWithin_iff (store : Store) (operation : Operation)
    (nonneg : 0 ≤ operation.key store) :
    EndsWithin SIZE store operation ↔ Settled store operation := by
  have homed : Homed (operation.key store) := homed_of_nonneg nonneg
  cases operation with
  | find key => exact endsWithin_find_iff homed
  | insert allocated key data => exact endsWithin_insert_iff homed
  | remove item => exact endsWithin_remove_iff homed

def fullTable : Store :=
  { hashTable := fun place => some place.val, temp := none, item := none,
    entry := fun pointer => { data := 0, key := Int32.ofNat pointer }, fresh := 30 }

theorem fullTable_absent : fullTable.Absent 30 := by
  intro place pointer stored
  have named : place.val = pointer := Option.some.inj stored
  subst named
  revert place
  decide

theorem endsWithin_iff_full : EndsWithin SIZE fullTable (.find 3) := by
  have present : ¬ fullTable.Absent 3 := fun absent => absent 3 3 rfl rfl
  exact (endsWithin_iff fullTable (.find 3) (by decide)).mpr (Or.inr present)

theorem find_in_full_table :
    ¬ ∀ (store : Store) (operation : Operation), 0 ≤ operation.key store →
      EndsWithin SIZE store operation := by
  intro ends
  obtain ⟨result, ran, _⟩ := ends fullTable (.find 30) (by decide)
  have homed : Homed 30 := homed_of_nonneg (by decide)
  have full : fullTable.Full := fun place => Option.some_ne_none place.val
  rw [find_never_ends homed full fullTable_absent SIZE] at ran
  cases ran

end CS421.Hash
