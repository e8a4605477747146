/-
The probe loops of hash.h as probes over thirty slots, for the keys that hash to
a slot: those that are not negative, and the negative multiples of 30.
-/

import CS421.Hash.Table
import CS421.Probing
import Mathlib.Data.Fintype.Basic

set_option autoImplicit false

namespace CS421.Hash

open Loops Probing

def homeOf (key : Int32) : Fin SIZE := ⟨(key.toInt % 30).toNat, by unfold SIZE; omega⟩

def indexOf (place : Fin SIZE) : Int32 := Int32.ofNat place.val

/-- The key hashes to a slot. A negative key does so only when its remainder is 0. -/
def Homed (key : Int32) : Prop := getHash key = indexOf (homeOf key)

theorem getHash_toInt (key : Int32) : (getHash key).toInt = key.toInt.tmod 30 := by
  have size : (Int32.ofNat SIZE).toInt = 30 := by decide
  rw [getHash, Int32.toInt_mod, size]

theorem homed_iff (key : Int32) : Homed key ↔ 0 ≤ key.toInt.tmod 30 := by
  have place : (indexOf (homeOf key)).toInt = key.toInt % 30 := by
    rw [indexOf, homeOf]
    dsimp only
    rw [Int32.toInt_ofNat_of_lt (by omega), Int.toNat_of_nonneg (by omega)]
  unfold Homed
  rw [← Int32.toInt_inj, getHash_toInt, place, Int.tmod_eq_emod]
  split <;> omega

theorem homed_of_nonneg {key : Int32} (nonneg : 0 ≤ key) : Homed key := by
  have low : 0 ≤ key.toInt := by simpa [Int32.le_iff_toInt_le] using nonneg
  rw [homed_iff, Int.tmod_eq_emod_of_nonneg low]
  omega

theorem slot_not_homed {key : Int32} (outside : ¬ Homed key) :
    slot (getHash key) = .error (.hashTable (getHash key)) := by
  rw [slot, dif_neg]
  rw [getHash_toInt]
  exact fun bound => outside ((homed_iff key).mpr bound.1)

theorem slot_indexOf (place : Fin SIZE) : slot (indexOf place) = .ok place := by
  revert place
  decide

theorem nextIndex_indexOf (place : Fin SIZE) :
    nextIndex (indexOf place) = indexOf (probe place 1) := by
  revert place
  decide

def Store.Absent (store : Store) (key : Int32) : Prop :=
  ∀ place pointer, store.hashTable place = some pointer → store.keyOf pointer ≠ key

theorem find_follows {turns : Nat} {key : Int32} {store : Store} (homed : Homed key) :
    Follows Eq (find turns key store)
      (run (scan (lookup store.keyOf store.hashTable key) Fault) turns (homeOf key)) := by
  rw [find, homed]
  refine run_follows (fun index place => index = indexOf place) Eq ?_ rfl turns
  rintro index place rfl
  simp only [findTurn, slot_indexOf, scan, lookup, beq_iff_eq]
  cases store.hashTable place with
  | none => rfl
  | some pointer =>
      dsimp only
      by_cases same : store.keyOf pointer = key
      · rw [if_pos same, if_pos same]
        rfl
      · rw [if_neg same, if_neg same]
        exact nextIndex_indexOf place

theorem find_iff {turns : Nat} {key : Int32} {store : Store} {result : Option Pointer}
    (homed : Homed key) :
    find turns key store = some (.ok result) ↔
      ∃ n, n < turns ∧
        SettlesAt (lookup store.keyOf store.hashTable key) (homeOf key) n result :=
  (find_follows homed).ok_iff.trans (run_scan_iff Fault)

theorem homed_of_find {turns : Nat} {key : Int32} {store : Store} {result : Option Pointer}
    (ran : find turns key store = some (.ok result)) : Homed key := by
  by_cases homed : Homed key
  · exact homed
  · cases turns with
    | zero => cases ran
    | succ turns =>
        simp only [find, run, findTurn, slot_not_homed homed] at ran
        cases ran

theorem insertTurn_iff {turns : Nat} {key : Int32} {store : Store} {place : Fin SIZE}
    (homed : Homed key) :
    run (insertTurn store) turns (getHash key) = some (.ok place) ↔
      ∃ n, n < turns ∧ SettlesAt (vacant store.hashTable) (homeOf key) n place := by
  rw [← run_scan_iff Fault, homed]
  refine (run_follows (fun index place => index = indexOf place) Eq ?_ rfl turns).ok_iff
  rintro index place rfl
  simp only [insertTurn, slot_indexOf, scan, vacant]
  cases store.hashTable place with
  | none => rfl
  | some pointer => exact nextIndex_indexOf place

theorem remove_empty {turns : Nat} {item : Pointer} {store : Store}
    (homed : Homed (store.keyOf item)) (empty : store.hashTable (homeOf (store.keyOf item)) = none) :
    remove (turns + 1) item store = some (.ok (none, store)) := by
  unfold remove
  change run (removeTurn (store.keyOf item)) (turns + 1) (store, getHash (store.keyOf item)) = _
  rw [homed, run]
  simp only [removeTurn, slot_indexOf, empty]

/-- For any key but 0 the loop ends at the first slot, with what it holds. -/
theorem remove_home {turns : Nat} {item pointer : Pointer} {store : Store}
    (homed : Homed (store.keyOf item)) (nonzero : store.keyOf item ≠ 0)
    (held : store.hashTable (homeOf (store.keyOf item)) = some pointer) :
    remove (turns + 1) item store = some (.ok (some pointer,
      (store.setKey pointer (store.keyOf item)).setSlot (homeOf (store.keyOf item)) store.temp)) := by
  unfold remove
  change run (removeTurn (store.keyOf item)) (turns + 1) (store, getHash (store.keyOf item)) = _
  rw [homed, run]
  simp only [removeTurn, slot_indexOf, held, bne_iff_ne.mpr nonzero, if_true]
  rfl

/-- For the key 0 the test never holds: the loop goes on to an empty slot. -/
theorem remove_zero {turns : Nat} {item : Pointer} {store : Store} (zero : store.keyOf item = 0) :
    Follows (fun answer _ => answer.1 = none ∧ answer.2.hashTable = store.hashTable)
      (remove turns item store)
      (run (scan (vacant store.hashTable) Fault) turns (homeOf 0)) := by
  unfold remove
  change Follows _ (run (removeTurn (store.keyOf item)) turns (store, getHash (store.keyOf item))) _
  rw [zero, homed_of_nonneg (by decide)]
  refine run_follows (fun state place =>
    state.2 = indexOf place ∧ state.1.hashTable = store.hashTable) _ ?_ ⟨rfl, rfl⟩ turns
  rintro ⟨current, index⟩ place ⟨rfl, same⟩
  dsimp only at same
  simp only [removeTurn, slot_indexOf, same, scan, vacant]
  cases store.hashTable place with
  | none => exact ⟨rfl, same⟩
  | some pointer => exact ⟨nextIndex_indexOf place, same⟩

theorem remove_zero_null {turns : Nat} {item : Pointer} {store next : Store}
    {result : Option Pointer} (zero : store.keyOf item = 0)
    (ran : remove turns item store = some (.ok (result, next))) : result = none := by
  obtain ⟨_, null, _⟩ := (remove_zero zero).result ran
  exact null

end CS421.Hash
