/-
What `find` answers after `insert` and after `remove`.

`insert` stores the global `item` in place of the entry it has made, so a table
that starts empty stays empty. `remove` takes whatever its first slot holds.
-/

import CS421.Hash.Search
import Mathlib.Tactic.ByContra

set_option autoImplicit false

namespace CS421.Hash

open Loops Probing

def Finds (key : Int32) (store : Store) (result : Option Pointer) : Prop :=
  ∃ turns, find turns key store = some (.ok result)

theorem finds_iff {key : Int32} {store : Store} {result : Option Pointer} (homed : Homed key) :
    Finds key store result ↔
      ∃ n, SettlesAt (lookup store.keyOf store.hashTable key) (homeOf key) n result := by
  constructor
  · rintro ⟨turns, ran⟩
    obtain ⟨n, _, settles⟩ := (find_iff homed).mp ran
    exact ⟨n, settles⟩
  · rintro ⟨n, settles⟩
    exact ⟨n + 1, (find_iff homed).mpr ⟨n, Nat.lt_succ_self n, settles⟩⟩

theorem Finds.unique {key : Int32} {store : Store} {first second : Option Pointer}
    (left : Finds key store first) (right : Finds key store second) : first = second := by
  obtain ⟨turns, ran⟩ := left
  have homed := homed_of_find ran
  obtain ⟨n, settles⟩ := (finds_iff homed).mp ⟨turns, ran⟩
  obtain ⟨m, other⟩ := (finds_iff homed).mp right
  exact (settles.unique other).2

/-! ### After inserts -/

/-- A table before its first use, with both globals as they always are. -/
structure Untouched (store : Store) : Prop where
  empty : ∀ place, store.hashTable place = none
  temp : store.temp = none
  item : store.item = none

/-- The inserts of the list, each with its entry allocated, all return 0. -/
inductive Inserted : Store → List (Int32 × Int32) → Store → Prop where
  | nil (store : Store) : Inserted store [] store
  | cons {store next last : Store} {key data : Int32} {rest : List (Int32 × Int32)} {turns : Nat}
      (returns : insert turns true key data store = some (.ok (0, next)))
      (later : Inserted next rest last) : Inserted store ((key, data) :: rest) last

def StoresAll (store : Store) (calls : List (Int32 × Int32)) : Prop :=
  ∃ last, Inserted store calls last ∧
    (∀ key data, (key, data) ∈ calls →
      ∃ pointer, Finds key last (some pointer) ∧ last.entry pointer = { data := data, key := key }) ∧
    ∀ key, 0 ≤ key → (∀ data, (key, data) ∉ calls) → Finds key last none

section Untouched

variable {store : Store}

theorem Untouched.finds {key : Int32} (untouched : Untouched store) (nonneg : 0 ≤ key) :
    Finds key store none := by
  refine (finds_iff (homed_of_nonneg nonneg)).mpr ⟨0, settlesAt_zero.mpr ?_⟩
  exact lookup_empty (untouched.empty _)

theorem Untouched.setSlot (untouched : Untouched store) (key data : Int32) (place : Fin SIZE) :
    Untouched ((store.allocate key data).setSlot place store.item) := by
  refine ⟨fun other => ?_, untouched.temp, untouched.item⟩
  unfold Store.setSlot Store.allocate
  dsimp only
  rw [untouched.item]
  by_cases here : other = place
  · rw [here, Function.update_self]
  · rw [Function.update_of_ne here]
    exact untouched.empty other

theorem Untouched.insert {turns : Nat} {key data answer : Int32} {next : Store}
    (untouched : Untouched store)
    (ran : insert turns true key data store = some (.ok (answer, next))) : Untouched next := by
  rw [Hash.insert, if_pos rfl] at ran
  dsimp only at ran
  cases looked : run (insertTurn (store.allocate key data)) turns (getHash key) with
  | none =>
      rw [looked] at ran
      cases ran
  | some out =>
      rw [looked] at ran
      cases out with
      | error fault => cases ran
      | ok place =>
          obtain ⟨_, rfl⟩ := Prod.mk.inj (Except.ok.inj (Option.some.inj ran))
          exact untouched.setSlot key data place

theorem Untouched.inserted {calls : List (Int32 × Int32)} {last : Store}
    (untouched : Untouched store) (inserts : Inserted store calls last) : Untouched last := by
  induction inserts with
  | nil store => exact untouched
  | cons returns _ ih => exact ih (untouched.insert returns)

theorem Untouched.insert_lost {key data : Int32} (untouched : Untouched store) (nonneg : 0 ≤ key) :
    ∃ next, Hash.insert 1 true key data store = some (.ok (0, next)) ∧ Finds key next none := by
  have empty : vacant (store.allocate key data).hashTable (homeOf key) = some (homeOf key) := by
    rw [vacant, show (store.allocate key data).hashTable (homeOf key) = none from untouched.empty _]
  have looked : run (insertTurn (store.allocate key data)) 1 (getHash key) = some (.ok (homeOf key)) :=
    (insertTurn_iff (homed_of_nonneg nonneg)).mpr
      ⟨0, Nat.one_pos, settlesAt_zero.mpr empty⟩
  refine ⟨_, ?_, (untouched.setSlot key data (homeOf key)).finds nonneg⟩
  rw [Hash.insert, if_pos rfl]
  dsimp only
  rw [looked]
  rfl

end Untouched

/-- Only the empty list of inserts leaves a table that answers as it should. -/
theorem storesAll_iff_nil (store : Store) (untouched : Untouched store)
    (calls : List (Int32 × Int32)) (fits : calls.length < SIZE)
    (nonneg : ∀ call ∈ calls, 0 ≤ call.1) (distinct : (calls.map Prod.fst).Nodup) :
    StoresAll store calls ↔ calls = [] := by
  constructor
  · rintro ⟨last, inserts, found, _⟩
    cases calls with
    | nil => rfl
    | cons call rest =>
        rcases call with ⟨key, data⟩
        obtain ⟨pointer, finds, _⟩ := found key data List.mem_cons_self
        have lost := (untouched.inserted inserts).finds (nonneg (key, data) List.mem_cons_self)
        cases finds.unique lost
  · rintro rfl
    refine ⟨store, .nil store, ?_, fun key nonneg _ => untouched.finds nonneg⟩
    intro key data member
    cases member

def blank : Store :=
  { hashTable := fun _ => none, temp := none, item := none,
    entry := fun _ => { data := 0, key := 0 }, fresh := 0 }

theorem blank_untouched : Untouched blank := ⟨fun _ => rfl, rfl, rfl⟩

theorem storesAll_iff_nil_two : ¬ StoresAll blank [(1, 7), (2, 9)] := by
  intro stores
  have nonneg : ∀ call ∈ [((1 : Int32), (7 : Int32)), (2, 9)], 0 ≤ call.1 := by simp
  have distinct : ([((1 : Int32), (7 : Int32)), (2, 9)].map Prod.fst).Nodup := by simp
  have none := (storesAll_iff_nil blank blank_untouched [(1, 7), (2, 9)] (by decide) nonneg
    distinct).mp stores
  cases none

theorem first_insert_lost :
    ¬ ∀ (store : Store), Untouched store → ∀ calls : List (Int32 × Int32), calls.length < SIZE →
      (∀ call ∈ calls, 0 ≤ call.1) → (calls.map Prod.fst).Nodup → StoresAll store calls := by
  intro stores
  have nonneg : ∀ call ∈ [((1 : Int32), (7 : Int32))], 0 ≤ call.1 := by
    intro call member
    rw [List.mem_singleton.mp member]
    decide
  obtain ⟨last, inserts, found, _⟩ :=
    stores blank blank_untouched [(1, 7)] (by decide) nonneg (List.nodup_singleton 1)
  obtain ⟨pointer, finds, _⟩ := found 1 7 List.mem_cons_self
  have lost : Finds 1 last none := (blank_untouched.inserted inserts).finds (by decide)
  cases finds.unique lost

/-! ### After a remove -/

/-- A table as probing needs it: a slot to spare, no key twice, and every entry
on an unbroken way from its home. -/
structure WellFormed (store : Store) : Prop where
  spare : ∃ place, store.hashTable place = none
  nonneg : ∀ place pointer, store.hashTable place = some pointer → 0 ≤ store.keyOf pointer
  distinct : Distinct store.keyOf store.hashTable
  chained : ∀ place pointer, store.hashTable place = some pointer →
    ∃ n, Chained store.hashTable (homeOf (store.keyOf pointer)) n pointer ∧
      probe (homeOf (store.keyOf pointer)) n = place

def RemovesOnly (store : Store) (item : Pointer) : Prop :=
  ∃ place held next,
    (∃ turns, remove turns item store = some (.ok (some held, next))) ∧
    store.hashTable place = some held ∧ store.keyOf held = store.keyOf item ∧
    Finds (store.keyOf item) next none ∧
    ∀ key, key ≠ store.keyOf item → ∀ result, Finds key store result →
      Finds key next result ∧
        ∀ pointer, result = some pointer → next.entry pointer = store.entry pointer

def AloneAtHome (store : Store) (key : Int32) : Prop :=
  ∃ held, store.hashTable (homeOf key) = some held ∧ store.keyOf held = key ∧
    ∀ place pointer, store.hashTable place = some pointer →
      ¬ OnWay (homeOf (store.keyOf pointer)) place (homeOf key)

section Remove

variable {store : Store} {item : Pointer}

theorem setKey_self {pointer : Pointer} : store.setKey pointer (store.keyOf pointer) = store := by
  unfold Store.setKey Store.keyOf
  rw [Function.update_eq_self]

theorem remove_held {turns : Nat} {held : Pointer} (temp : store.temp = none)
    (nonneg : 0 ≤ store.keyOf item) (nonzero : store.keyOf item ≠ 0)
    (atHome : store.hashTable (homeOf (store.keyOf item)) = some held)
    (same : store.keyOf held = store.keyOf item) :
    remove (turns + 1) item store =
      some (.ok (some held, store.setSlot (homeOf (store.keyOf item)) none)) := by
  rw [remove_home (homed_of_nonneg nonneg) nonzero atHome, ← same, setKey_self, temp]

theorem finds_cleared {key : Int32} {hole : Fin SIZE} {result : Option Pointer}
    (homed : Homed key) :
    Finds key (store.setSlot hole none) result ↔
      ∃ n, SettlesAt (lookup store.keyOf (Function.update store.hashTable hole none) key)
        (homeOf key) n result :=
  finds_iff homed

theorem WellFormed.home_held (wellFormed : WellFormed store) {key : Int32} {place : Fin SIZE}
    {pointer : Pointer} (held : store.hashTable place = some pointer)
    (same : store.keyOf pointer = key) :
    ∃ first, store.hashTable (homeOf key) = some first := by
  obtain ⟨n, chained, here⟩ := wellFormed.chained place pointer held
  rw [same] at chained here
  cases n with
  | zero =>
      rw [probe_zero] at here
      exact ⟨pointer, here ▸ held⟩
  | succ n =>
      have full := chained.full 0 (Nat.succ_pos n)
      rw [probe_zero] at full
      exact Option.ne_none_iff_exists'.mp full

theorem WellFormed.absent_or_held (wellFormed : WellFormed store) {key : Int32} {n : Nat}
    {pointer : Pointer}
    (settles : SettlesAt (lookup store.keyOf store.hashTable key) (homeOf key) n (some pointer)) :
    n < SIZE ∧ store.hashTable (probe (homeOf key) n) = some pointer ∧
      store.keyOf pointer = key := by
  obtain ⟨stored, same⟩ := lookup_some_iff.mp settles.settled
  obtain ⟨m, chained, _⟩ := wellFormed.chained _ pointer stored
  have first := chained.settlesAt wellFormed.distinct
  rw [same] at first
  exact ⟨(settles.unique first).1 ▸ chained.within, stored, same⟩

/-- Emptying the home slot of a key takes away the entry that was there, and any
entry whose probe passes it. -/
theorem finds_after {key other : Int32} (wellFormed : WellFormed store)
    (alone : AloneAtHome store key) (different : other ≠ key) {result : Option Pointer}
    (before : Finds other store result) :
    Finds other (store.setSlot (homeOf key) none) result := by
  obtain ⟨held, atHome, same, avoids⟩ := alone
  obtain ⟨turns, ran⟩ := before
  have homed := homed_of_find ran
  obtain ⟨n, settles⟩ := (finds_iff homed).mp ⟨turns, ran⟩
  refine (finds_cleared homed).mpr ?_
  cases result with
  | none =>
      by_cases passes : ∃ m, m ≤ n ∧ probe (homeOf other) m = homeOf key
      · obtain ⟨m, onWay, here⟩ := passes
        exact settles.cut onWay here
      · refine ⟨n, settles.cleared (fun m onWay here => passes ⟨m, onWay, here⟩)⟩
  | some pointer =>
      obtain ⟨within, stored, own⟩ := wellFormed.absent_or_held settles
      refine ⟨n, settles.cleared (fun m onWay here => ?_)⟩
      rcases Nat.lt_or_eq_of_le onWay with earlier | rfl
      · refine avoids _ pointer stored ⟨n, within, ?_, m, earlier, ?_⟩
        · rw [own]
        · rw [own, here]
      · rw [here, atHome] at stored
        cases stored
        exact different (own.symm.trans same)

theorem lost_after {hole place : Fin SIZE} {pointer : Pointer} (wellFormed : WellFormed store)
    (stored : store.hashTable place = some pointer)
    (onWay : OnWay (homeOf (store.keyOf pointer)) place hole) :
    Finds (store.keyOf pointer) store (some pointer) ∧
      Finds (store.keyOf pointer) (store.setSlot hole none) none := by
  obtain ⟨n, within, reaches, m, before, passes⟩ := onWay
  obtain ⟨k, chained, here⟩ := wellFormed.chained place pointer stored
  have homed := homed_of_nonneg (wellFormed.nonneg place pointer stored)
  have settles := chained.settlesAt wellFormed.distinct
  have last : k = n := probe_injective _ chained.within within (here.trans reaches.symm)
  refine ⟨(finds_iff homed).mpr ⟨k, settles⟩, (finds_cleared homed).mpr ?_⟩
  exact settles.cut (last ▸ Nat.le_of_lt before) passes

theorem WellFormed.present_home (wellFormed : WellFormed store) {key : Int32}
    (present : ¬ store.Absent key) : 0 ≤ key ∧ ∃ first, store.hashTable (homeOf key) = some first := by
  by_contra none
  refine present (fun place pointer stored same => none ⟨?_, ?_⟩)
  · exact same ▸ wellFormed.nonneg place pointer stored
  · exact wellFormed.home_held stored same

theorem WellFormed.not_onWay_self (wellFormed : WellFormed store) {place home : Fin SIZE}
    {pointer first : Pointer} (stored : store.hashTable place = some pointer)
    (atHome : store.hashTable home = some first)
    (onWay : OnWay (homeOf (store.keyOf pointer)) place home) :
    store.keyOf pointer ≠ store.keyOf first := by
  intro equal
  have here := wellFormed.distinct _ _ _ _ stored atHome equal
  obtain ⟨n, within, reaches, m, before, passes⟩ := onWay
  have level := probe_injective _ (Nat.lt_trans before within) within
    ((passes.trans here.symm).trans reaches.symm)
  exact absurd level (Nat.ne_of_lt before)

theorem RemovesOnly.alone (wellFormed : WellFormed store) (temp : store.temp = none)
    (present : ¬ store.Absent (store.keyOf item)) (removes : RemovesOnly store item) :
    store.keyOf item ≠ 0 ∧ AloneAtHome store (store.keyOf item) := by
  obtain ⟨nonneg, first, atHome⟩ := wellFormed.present_home present
  obtain ⟨_, held, next, ⟨turns, ran⟩, _, same, _, others⟩ := removes
  have nonzero : store.keyOf item ≠ 0 := by
    intro zero
    cases remove_zero_null zero ran
  cases turns with
  | zero => cases ran
  | succ turns =>
      rw [remove_home (homed_of_nonneg nonneg) nonzero atHome] at ran
      obtain ⟨taken, rfl⟩ := Prod.mk.inj (Except.ok.inj (Option.some.inj ran))
      cases taken
      rw [← same, setKey_self, temp, same] at others
      refine ⟨nonzero, first, atHome, same, ?_⟩
      intro place pointer stored onWay
      have different := wellFormed.not_onWay_self stored atHome onWay
      rw [same] at different
      obtain ⟨finds, lost⟩ := lost_after wellFormed stored onWay
      have kept := (others _ different _ finds).1
      cases kept.unique lost

theorem AloneAtHome.removes (wellFormed : WellFormed store) (temp : store.temp = none)
    (nonneg : 0 ≤ store.keyOf item) (nonzero : store.keyOf item ≠ 0)
    (alone : AloneAtHome store (store.keyOf item)) : RemovesOnly store item := by
  obtain ⟨held, atHome, same, avoids⟩ := alone
  refine ⟨_, held, _, ⟨1, remove_held temp nonneg nonzero atHome same⟩, atHome, same, ?_, ?_⟩
  · have emptied : Function.update store.hashTable (homeOf (store.keyOf item)) none
        (homeOf (store.keyOf item)) = none := Function.update_self _ _ _
    exact (finds_cleared (homed_of_nonneg nonneg)).mpr
      ⟨0, settlesAt_zero.mpr (lookup_empty emptied)⟩
  · intro key different result finds
    refine ⟨finds_after wellFormed ⟨held, atHome, same, avoids⟩ different finds, ?_⟩
    intro pointer _
    rfl

end Remove

/-- A remove leaves every other key alone exactly when its key is not 0, its entry
is in its home slot and no other entry is reached past that slot. -/
theorem removesOnly_iff (store : Store) (wellFormed : WellFormed store) (temp : store.temp = none)
    (item : Pointer) (present : ¬ store.Absent (store.keyOf item)) :
    RemovesOnly store item ↔
      store.keyOf item ≠ 0 ∧ AloneAtHome store (store.keyOf item) := by
  constructor
  · exact RemovesOnly.alone wellFormed temp present
  · rintro ⟨nonzero, alone⟩
    exact alone.removes wellFormed temp (wellFormed.present_home present).1 nonzero

/-- The keys 1 and 31 share a home, the key 5 has its own. -/
def threeKeys : Store :=
  { hashTable := fun place =>
      if place = 1 then some 0 else if place = 2 then some 1 else if place = 5 then some 2 else none
    temp := none
    item := none
    entry := fun pointer =>
      if pointer = 0 then { data := 7, key := 1 }
      else if pointer = 1 then { data := 8, key := 31 } else { data := 9, key := 5 }
    fresh := 3 }

theorem threeKeys_stored {place : Fin SIZE} {pointer : Pointer}
    (stored : threeKeys.hashTable place = some pointer) :
    (place = 1 ∧ pointer = 0) ∨ (place = 2 ∧ pointer = 1) ∨ (place = 5 ∧ pointer = 2) := by
  simp only [threeKeys] at stored
  split at stored
  · exact Or.inl ⟨by assumption, (Option.some.inj stored).symm⟩
  · split at stored
    · exact Or.inr (Or.inl ⟨by assumption, (Option.some.inj stored).symm⟩)
    · split at stored
      · exact Or.inr (Or.inr ⟨by assumption, (Option.some.inj stored).symm⟩)
      · cases stored

theorem threeKeys_wellFormed : WellFormed threeKeys where
  spare := ⟨0, rfl⟩
  nonneg := by
    intro place pointer stored
    rcases threeKeys_stored stored with ⟨_, rfl⟩ | ⟨_, rfl⟩ | ⟨_, rfl⟩ <;> decide
  distinct := by
    intro i j left right first second
    rcases threeKeys_stored first with ⟨rfl, rfl⟩ | ⟨rfl, rfl⟩ | ⟨rfl, rfl⟩ <;>
      rcases threeKeys_stored second with ⟨rfl, rfl⟩ | ⟨rfl, rfl⟩ | ⟨rfl, rfl⟩ <;> decide
  chained := by
    intro place pointer stored
    rcases threeKeys_stored stored with ⟨rfl, rfl⟩ | ⟨rfl, rfl⟩ | ⟨rfl, rfl⟩
    · exact ⟨0, ⟨by decide, rfl, by decide⟩, by decide⟩
    · exact ⟨1, ⟨by decide, rfl, by decide⟩, by decide⟩
    · exact ⟨0, ⟨by decide, rfl, by decide⟩, by decide⟩

theorem removesOnly_iff_five : RemovesOnly threeKeys 2 := by
  have present : ¬ threeKeys.Absent (threeKeys.keyOf 2) := fun absent => absent 5 2 rfl rfl
  refine (removesOnly_iff threeKeys threeKeys_wellFormed rfl 2 present).mpr
    ⟨by decide, 2, rfl, rfl, ?_⟩
  intro place pointer stored
  rcases threeKeys_stored stored with ⟨rfl, rfl⟩ | ⟨rfl, rfl⟩ | ⟨rfl, rfl⟩ <;> decide

/-- `remove` of the key 31 takes the entry of the key 1 out of the slot they
both hash to. -/
theorem remove_takes_other :
    ¬ ∀ store : Store, WellFormed store → store.temp = none → ∀ item,
      ¬ store.Absent (store.keyOf item) → RemovesOnly store item := by
  intro removes
  have present : ¬ threeKeys.Absent (threeKeys.keyOf 1) := fun absent => absent 2 1 rfl rfl
  obtain ⟨_, held, next, ⟨turns, ran⟩, _, same, _⟩ :=
    removes threeKeys threeKeys_wellFormed rfl 1 present
  cases turns with
  | zero => cases ran
  | succ turns =>
      have nonzero : threeKeys.keyOf 1 ≠ 0 := by decide
      have homed : Homed (threeKeys.keyOf 1) := homed_of_nonneg (by decide)
      have atHome : threeKeys.hashTable (homeOf (threeKeys.keyOf 1)) = some 0 := rfl
      rw [remove_home homed nonzero atHome] at ran
      obtain ⟨taken, _⟩ := Prod.mk.inj (Except.ok.inj (Option.some.inj ran))
      cases taken
      exact absurd same (by decide)

end CS421.Hash
