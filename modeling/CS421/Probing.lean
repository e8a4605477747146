/-
Linear probing over a fixed number of slots.

A probe starts at a home slot and goes from slot to slot, around the end of the
table, until a check settles at one of them. The rules say where it ends, when
it ends at all, and what emptying a slot does to it. They know nothing of what a
slot holds beyond what the check reads.
-/

import CS421.Loops
import Mathlib.Logic.Function.Basic

set_option autoImplicit false

namespace CS421.Probing

open Loops

variable {size : Nat}

/-- The slot `n` places after `home`, around the end of the table. -/
def probe (home : Fin size) (n : Nat) : Fin size :=
  ⟨(home.val + n) % size, Nat.mod_lt _ (Nat.zero_lt_of_lt home.isLt)⟩

theorem probe_zero (home : Fin size) : probe home 0 = home :=
  Fin.ext (Nat.mod_eq_of_lt home.isLt)

theorem probe_add (home : Fin size) (m n : Nat) : probe (probe home m) n = probe home (m + n) := by
  apply Fin.ext
  unfold probe
  dsimp only
  rw [Nat.mod_add_mod, Nat.add_assoc]

theorem exists_probe (home place : Fin size) : ∃ n, n < size ∧ probe home n = place := by
  have low := home.isLt
  have high := place.isLt
  by_cases behind : home.val ≤ place.val
  · refine ⟨place.val - home.val, by omega, Fin.ext ?_⟩
    unfold probe
    dsimp only
    rw [Nat.add_sub_cancel' behind, Nat.mod_eq_of_lt high]
  · refine ⟨place.val + size - home.val, by omega, Fin.ext ?_⟩
    unfold probe
    dsimp only
    have around : home.val + (place.val + size - home.val) = place.val + size := by omega
    rw [around, Nat.add_mod_right, Nat.mod_eq_of_lt high]

theorem probe_injective (home : Fin size) {m n : Nat} (left : m < size) (right : n < size)
    (same : probe home m = probe home n) : m = n := by
  have values : (home.val + m) % size = (home.val + n) % size := congrArg Fin.val same
  have low := home.isLt
  have wraps : ∀ k, k < size →
      (home.val + k) % size = if home.val + k < size then home.val + k else home.val + k - size := by
    intro k short
    split
    · exact Nat.mod_eq_of_lt (by assumption)
    · rw [Nat.mod_eq_sub_mod (by omega), Nat.mod_eq_of_lt (by omega)]
  rw [wraps m left, wraps n right] at values
  split at values <;> split at values <;> omega

section Scan

variable {Result : Type*} (check : Fin size → Option Result)

/-- The probe as a loop, which never faults. -/
def scan (Fault : Type*) : Body (Fin size) Result Fault := fun place =>
  match check place with
  | some result => .done result
  | none => .again (probe place 1)

/-- The check settles first at the slot `n` places after `home`. -/
structure SettlesAt (home : Fin size) (n : Nat) (result : Result) : Prop where
  settled : check (probe home n) = some result
  first : ∀ m, m < n → check (probe home m) = none

variable {check} {home : Fin size} {n : Nat} {result : Result}

theorem settlesAt_zero : SettlesAt check home 0 result ↔ check home = some result := by
  constructor
  · intro settles
    have settled := settles.settled
    rw [probe_zero] at settled
    exact settled
  · intro settled
    refine ⟨?_, fun m before => absurd before (Nat.not_lt_zero m)⟩
    rw [probe_zero]
    exact settled

theorem settlesAt_succ :
    SettlesAt check home (n + 1) result ↔
      check home = none ∧ SettlesAt check (probe home 1) n result := by
  have moved : ∀ k, probe (probe home 1) k = probe home (k + 1) := by
    intro k
    rw [probe_add, Nat.add_comm]
  constructor
  · intro settles
    have start := settles.first 0 (Nat.succ_pos n)
    rw [probe_zero] at start
    refine ⟨start, ?_, ?_⟩
    · rw [moved]
      exact settles.settled
    · intro m before
      rw [moved]
      exact settles.first (m + 1) (Nat.succ_lt_succ before)
  · rintro ⟨start, settles⟩
    refine ⟨?_, ?_⟩
    · rw [← moved]
      exact settles.settled
    · intro m before
      cases m with
      | zero =>
          rw [probe_zero]
          exact start
      | succ m =>
          rw [← moved]
          exact settles.first m (Nat.lt_of_succ_lt_succ before)

theorem SettlesAt.unique {other : Nat} {final : Result} (first : SettlesAt check home n result)
    (second : SettlesAt check home other final) : n = other ∧ result = final := by
  have notBefore : ∀ {m k : Nat} {left right : Result}, SettlesAt check home m left →
      SettlesAt check home k right → ¬ m < k := by
    intro m k left right early late before
    have unsettled := late.first m before
    rw [early.settled] at unsettled
    cases unsettled
  have here : n = other := Nat.le_antisymm
    (Nat.not_lt.mp (notBefore second first)) (Nat.not_lt.mp (notBefore first second))
  subst other
  exact ⟨rfl, Option.some.inj (first.settled.symm.trans second.settled)⟩

theorem settles_or_passes (check : Fin size → Option Result) (home : Fin size) (slots : Nat) :
    (∃ n result, n < slots ∧ SettlesAt check home n result) ∨
      ∀ n, n < slots → check (probe home n) = none := by
  induction slots with
  | zero => exact Or.inr (fun n before => absurd before (Nat.not_lt_zero n))
  | succ slots ih =>
      rcases ih with ⟨n, result, before, settles⟩ | passes
      · exact Or.inl ⟨n, result, Nat.lt_succ_of_lt before, settles⟩
      · cases looked : check (probe home slots) with
        | some result => exact Or.inl ⟨slots, result, Nat.lt_succ_self slots, looked, passes⟩
        | none =>
            refine Or.inr (fun n before => ?_)
            rcases Nat.lt_succ_iff_lt_or_eq.mp before with earlier | rfl
            · exact passes n earlier
            · exact looked

theorem exists_settlesAt {place : Fin size} (stops : check place ≠ none) (home : Fin size) :
    ∃ n result, n < size ∧ SettlesAt check home n result := by
  rcases settles_or_passes check home size with settles | passes
  · exact settles
  · obtain ⟨n, within, rfl⟩ := exists_probe home place
    exact absurd (passes n within) stops

variable (Fault : Type*) {fuel : Nat}

theorem SettlesAt.run (settles : SettlesAt check home n result) (enough : n < fuel) :
    run (scan check Fault) fuel home = some (.ok result) := by
  induction n generalizing home fuel with
  | zero =>
      obtain ⟨fuel, rfl⟩ := Nat.exists_eq_add_of_lt enough
      rw [Loops.run, scan, settlesAt_zero.mp settles]
  | succ n ih =>
      obtain ⟨start, later⟩ := settlesAt_succ.mp settles
      cases fuel with
      | zero => exact absurd enough (Nat.not_lt_zero _)
      | succ fuel =>
          rw [Loops.run, scan, start]
          exact ih later (Nat.lt_of_succ_lt_succ enough)

theorem run_scan_passes (passes : ∀ m, m < fuel → check (probe home m) = none) :
    run (scan check Fault) fuel home = none := by
  induction fuel generalizing home with
  | zero => rfl
  | succ fuel ih =>
      have start := passes 0 (Nat.succ_pos fuel)
      rw [probe_zero] at start
      rw [Loops.run, scan, start]
      apply ih
      intro m before
      rw [probe_add, Nat.add_comm]
      exact passes (m + 1) (Nat.succ_lt_succ before)

theorem run_scan_iff :
    run (scan check Fault) fuel home = some (.ok result) ↔
      ∃ n, n < fuel ∧ SettlesAt check home n result := by
  constructor
  · intro ran
    rcases settles_or_passes check home fuel with ⟨n, final, before, settles⟩ | passes
    · rw [settles.run Fault before] at ran
      cases ran
      exact ⟨n, before, settles⟩
    · rw [run_scan_passes Fault passes] at ran
      cases ran
  · rintro ⟨n, before, settles⟩
    exact settles.run Fault before

/-- A probe that settles anywhere takes no more turns than there are slots. -/
theorem run_scan_ends_iff :
    (∃ result, run (scan check Fault) size home = some (.ok result)) ↔
      ∃ place, check place ≠ none := by
  constructor
  · rintro ⟨result, ran⟩
    obtain ⟨n, _, settles⟩ := (run_scan_iff Fault).mp ran
    refine ⟨probe home n, ?_⟩
    rw [settles.settled]
    exact Option.some_ne_none result
  · rintro ⟨place, stops⟩
    obtain ⟨n, result, within, settles⟩ := exists_settlesAt stops home
    exact ⟨result, settles.run Fault within⟩

end Scan

section Slots

variable {Item Key : Type*} [DecidableEq Key] (keyOf : Item → Key)

def vacant (slots : Fin size → Option Item) : Fin size → Option (Fin size) := fun place =>
  match slots place with
  | none => some place
  | some _ => none

/-- The probe for a key settles at the item with that key or at an empty slot. -/
def lookup (slots : Fin size → Option Item) (key : Key) : Fin size → Option (Option Item) :=
  fun place =>
    match slots place with
    | none => some none
    | some item => if keyOf item = key then some (some item) else none

/-- The item at the slot `n` places after its home has no empty slot on its way. -/
structure Chained (slots : Fin size → Option Item) (home : Fin size) (n : Nat) (item : Item) :
    Prop where
  within : n < size
  stored : slots (probe home n) = some item
  full : ∀ m, m < n → slots (probe home m) ≠ none

def Distinct (slots : Fin size → Option Item) : Prop :=
  ∀ i j left right, slots i = some left → slots j = some right → keyOf left = keyOf right → i = j

/-- On its way from `home` to `place` a probe passes `hole`. -/
def OnWay (home place hole : Fin size) : Prop :=
  ∃ n, n < size ∧ probe home n = place ∧ ∃ m, m < n ∧ probe home m = hole

instance (home place hole : Fin size) : Decidable (OnWay home place hole) := by
  unfold OnWay
  infer_instance

variable {keyOf} {slots : Fin size → Option Item} {key : Key} {home hole : Fin size}

theorem vacant_ne_none_iff {place : Fin size} : vacant slots place ≠ none ↔ slots place = none := by
  unfold vacant
  cases slots place <;> simp

/-! ### Looking an item up -/

theorem lookup_none_iff {place : Fin size} :
    lookup keyOf slots key place = none ↔ ∃ item, slots place = some item ∧ keyOf item ≠ key := by
  unfold lookup
  cases looked : slots place with
  | none => simp
  | some item => simp

theorem lookup_some_iff {place : Fin size} {item : Item} :
    lookup keyOf slots key place = some (some item) ↔ slots place = some item ∧ keyOf item = key := by
  unfold lookup
  cases looked : slots place with
  | none => simp
  | some found =>
      by_cases same : keyOf found = key
      · simp [same]
        intro equal
        exact equal ▸ same
      · simp [same]
        intro equal
        exact equal ▸ same

theorem lookup_empty {place : Fin size} (empty : slots place = none) :
    lookup keyOf slots key place = some none := by
  rw [lookup, empty]

theorem lookup_ne_none_iff {place : Fin size} :
    lookup keyOf slots key place ≠ none ↔
      slots place = none ∨ ∃ item, slots place = some item ∧ keyOf item = key := by
  unfold lookup
  cases looked : slots place with
  | none => simp
  | some found => simp

theorem SettlesAt.lookup_absent {n : Nat} {result : Option Item}
    (settles : SettlesAt (lookup keyOf slots key) home n result)
    (absent : ∀ place item, slots place = some item → keyOf item ≠ key) : result = none := by
  cases result with
  | none => rfl
  | some item =>
      obtain ⟨stored, same⟩ := lookup_some_iff.mp settles.settled
      exact absurd same (absent _ item stored)

theorem Chained.settlesAt {n : Nat} {item : Item} (chained : Chained slots home n item)
    (distinct : Distinct keyOf slots) :
    SettlesAt (lookup keyOf slots (keyOf item)) home n (some item) := by
  refine ⟨lookup_some_iff.mpr ⟨chained.stored, rfl⟩, ?_⟩
  intro m before
  obtain ⟨other, found⟩ := Option.ne_none_iff_exists'.mp (chained.full m before)
  refine lookup_none_iff.mpr ⟨other, found, ?_⟩
  intro same
  have here := distinct _ _ other item found chained.stored same
  exact absurd (probe_injective home (Nat.lt_trans before chained.within) chained.within here)
    (Nat.ne_of_lt before)

theorem lookup_cleared {place : Fin size} (apart : place ≠ hole) :
    lookup keyOf (Function.update slots hole none) key place = lookup keyOf slots key place := by
  unfold lookup
  rw [Function.update_of_ne apart]

theorem SettlesAt.cleared {n : Nat} {result : Option Item}
    (settles : SettlesAt (lookup keyOf slots key) home n result)
    (avoids : ∀ m, m ≤ n → probe home m ≠ hole) :
    SettlesAt (lookup keyOf (Function.update slots hole none) key) home n result := by
  refine ⟨?_, ?_⟩
  · rw [lookup_cleared (avoids n (Nat.le_refl n))]
    exact settles.settled
  · intro m before
    rw [lookup_cleared (avoids m (Nat.le_of_lt before))]
    exact settles.first m before

/-- A probe that comes to the emptied slot ends there, at the latest, with
nothing. -/
theorem SettlesAt.cut {n m : Nat} {result : Option Item}
    (settles : SettlesAt (lookup keyOf slots key) home n result) (onWay : m ≤ n)
    (here : probe home m = hole) :
    ∃ k, SettlesAt (lookup keyOf (Function.update slots hole none) key) home k none := by
  have emptied : lookup keyOf (Function.update slots hole none) key hole = some none :=
    lookup_empty (Function.update_self hole none slots)
  rcases settles_or_passes (lookup keyOf (Function.update slots hole none) key) home (m + 1) with
    ⟨k, final, before, cleared⟩ | passes
  · by_cases atHole : probe home k = hole
    · have found := cleared.settled
      rw [atHole, emptied] at found
      cases found
      exact ⟨k, cleared⟩
    · have early : k < n := by
        have apart : k ≠ m := fun same => atHole (same ▸ here)
        omega
      have found := cleared.settled
      rw [lookup_cleared atHole, settles.first k early] at found
      cases found
  · have missed := passes m (Nat.lt_succ_self m)
    rw [here, emptied] at missed
    cases missed

end Slots

end CS421.Probing
