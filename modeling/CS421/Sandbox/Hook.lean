/-
The hook with the `getHash` of hash.h, the only one in the repository.

The system calls file a uid under its remainder by 32, the hook looks under its
remainder by 30.
-/

import CS421.Hash.Table
import CS421.Sandbox.Slots

set_option autoImplicit false

namespace CS421.Sandbox

/-- The slot that `getHash` names. The last two slots are never named. -/
def hookSlot (uid : Int32) : Fin SIZE :=
  ⟨(uid.toInt % 30).toNat, by unfold SIZE; omega⟩

theorem slot_getHash {uid : Int32} (nonneg : 0 ≤ uid) :
    slot (Hash.getHash uid) = .ok (hookSlot uid) := by
  have size : (Int32.ofNat Hash.SIZE).toInt = 30 := by decide
  have place : (Hash.getHash uid).toInt = uid.toInt % 30 := by
    rw [Hash.getHash, Int32.toInt_mod, size]
    exact Int.tmod_eq_emod_of_nonneg (toInt_nonneg nonneg)
  have bound : 0 ≤ (Hash.getHash uid).toInt ∧ (Hash.getHash uid).toInt.toNat < SIZE := by
    unfold SIZE
    omega
  rw [slot, dif_pos bound]
  exact congrArg Except.ok (Fin.ext (congrArg Int.toNat place))

theorem hookSlot_eq_slotOf_iff (uid : Int32) : hookSlot uid = slotOf uid ↔ uid.toInt % 480 < 30 := by
  rw [hookSlot, slotOf, Fin.mk.injEq]
  omega

theorem findder_one_iff {uid : Int32} {nr : UInt64} {state : State} (nonneg : 0 ≤ uid)
    (bound : nr.toNat < entries) :
    (∃ next, findder Hash.getHash uid nr state = .ok (1, next)) ↔
      (state.row nr).call = nr ∧ (state.row nr).hash (hookSlot uid) = uid := by
  unfold findder
  simp only [entry_valid bound, setEntry_valid bound, SysTable.holds, slot_getHash nonneg,
    bind, Except.bind, pure, Except.pure]
  by_cases inUse : (state.row nr).call = nr
  · by_cases listed : (state.row nr).hash (hookSlot uid) = uid
    · rw [if_pos (beq_iff_eq.mpr inUse)]
      simp [inUse, listed]
    · rw [if_pos (beq_iff_eq.mpr inUse)]
      simp [inUse, listed]
  · rw [if_neg (mt beq_iff_eq.mp inUse)]
    simp [inUse]

theorem idle_of_blocked {caller : UInt32} {proc : Int32} {nr : UInt64} {state next : State}
    (ran : sbx421Block caller proc nr state = .ok (0, next)) : Idle state := by
  cases held : state.lockTable.locked with
  | false => exact held
  | true =>
      have waits : blockLocked proc nr (startUp state) = .error .deadlock := by
        have lock : (startUp state).lockTable = state.lockTable :=
          ready_lockTable (.block caller proc nr) state
        rw [blockLocked, mutexLock, lock, held]
        rfl
      simp only [sbx421Block, waits] at ran
      split at ran
      · cases ran
      · split at ran
        · cases ran
        · have answers : (-EPERM : Int64) = 0 := congrArg Prod.fst (Except.ok.inj ran)
          exact absurd answers (by decide)

theorem row_of_blocked {caller : UInt32} {proc : Int32} {nr : UInt64} {state next : State}
    (initialised : state.started ≠ 0) (nonneg : 0 ≤ proc) (bound : nr.toNat < entries)
    (ran : sbx421Block caller proc nr state = .ok (0, next)) :
    Idle next ∧ next.started ≠ 0 ∧ next.row nr = (state.row nr).accepted proc nr := by
  have valid : (Call.block caller proc nr).Valid := ⟨nonneg, bound⟩
  have moved : step ⟨.block caller proc nr, valid⟩ state = .ok (0, next) := ran
  have effect := effect_of_step (idle_of_blocked ran) moved
  have ready := effect.initialised initialised
  refine ⟨ready.1, ready.2, ?_⟩
  generalize zero : (0 : Int64) = answer at effect
  cases effect with
  | accepted _ permitted accepts writes =>
      rw [writes.own, startUp_of_started initialised]
  | repeated => exact absurd zero (by decide)
  | blockDenied => exact absurd zero (by decide)

theorem accepted_lists (row : SysTable) (proc : Int32) (nr : UInt64) :
    (row.accepted proc nr).Lists proc nr := by
  refine ⟨rfl, ?_⟩
  unfold SysTable.accepted
  exact Function.update_self (slotOf proc) proc row.hash

section Accepted

variable {proc : Int32} {nr : UInt64} {row : SysTable} {next : State}

theorem unblock_accepted {other : UInt32} (nonneg : 0 ≤ proc) (bound : nr.toNat < entries)
    (idle : Idle next) (initialised : next.started ≠ 0)
    (accepted : next.row nr = row.accepted proc nr) (permitted : Permitted other proc) :
    ∃ after, sbx421Unblock other proc nr next = .ok (0, after) := by
  have valid : (Call.unblock other proc nr).Valid := ⟨nonneg, bound⟩
  have ran : sbx421Unblock other proc nr next = _ := perform_valid valid idle
  refine ⟨_, ran.trans (congrArg Except.ok (Prod.ext ?_ rfl))⟩
  simp only [Call.onRow, Call.ready, Call.nr, startUp_of_started initialised]
  rw [accepted, if_pos permitted, unblockRow, if_pos (accepted_lists row proc nr)]

theorem count_accepted (positive : 0 < proc) (bound : nr.toNat < entries)
    (idle : Idle next) (initialised : next.started ≠ 0)
    (accepted : next.row nr = row.accepted proc nr) :
    ∃ after, sbx421Count 0 proc nr next = .ok (0, after) := by
  have valid : (Call.count 0 proc nr).Valid := ⟨Int32.le_of_lt positive, bound⟩
  have ran : sbx421Count 0 proc nr next = _ := perform_valid valid idle
  refine ⟨_, ran.trans (congrArg Except.ok (Prod.ext ?_ rfl))⟩
  simp only [Call.onRow, Call.ready, Call.nr, startUp_of_started initialised]
  rw [accepted, if_pos trivial, if_pos positive, countRow, if_pos (accepted_lists row proc nr)]
  rfl

/-- The hook sees the block when both functions name one slot, or when the other
slot held the uid before. -/
theorem findder_accepted_iff (nonneg : 0 ≤ proc) (bound : nr.toNat < entries)
    (accepted : next.row nr = row.accepted proc nr) :
    (∃ after, findder Hash.getHash proc nr next = .ok (1, after)) ↔
      proc.toInt % 480 < 30 ∨ row.hash (hookSlot proc) = proc := by
  rw [findder_one_iff nonneg bound, accepted, ← hookSlot_eq_slotOf_iff]
  unfold SysTable.accepted
  dsimp only
  by_cases same : hookSlot proc = slotOf proc
  · rw [same, Function.update_self]
    exact iff_of_true ⟨rfl, rfl⟩ (Or.inl rfl)
  · rw [Function.update_of_ne same]
    exact ⟨fun found => Or.inr found.2, fun found => ⟨rfl, found.resolve_left same⟩⟩

end Accepted

def AllFind (uid : Int32) (nr : UInt64) (state : State) : Prop :=
  (∃ after, findder Hash.getHash uid nr state = .ok (1, after)) ∧
    (∀ other, Permitted other uid → ∃ after, sbx421Unblock other uid nr state = .ok (0, after)) ∧
    ∃ after, sbx421Count 0 uid nr state = .ok (0, after)

/-- Unblock and count look where the block was filed, so the hook decides. -/
theorem allFind_iff_of_accepted {row : SysTable} {uid : Int32} {nr : UInt64} {next : State}
    (positive : 0 < uid) (bound : nr.toNat < entries) (idle : Idle next)
    (started : next.started ≠ 0) (accepted : next.row nr = row.accepted uid nr) :
    AllFind uid nr next ↔ uid.toInt % 480 < 30 ∨ row.hash (hookSlot uid) = uid := by
  have nonneg := Int32.le_of_lt positive
  rw [← findder_accepted_iff nonneg bound accepted]
  constructor
  · intro found
    exact found.1
  · intro seen
    exact ⟨seen, fun _ permitted => unblock_accepted nonneg bound idle started accepted permitted,
      count_accepted positive bound idle started accepted⟩

theorem allFind_iff_of_exec {getHash : Int32 → Int32} {calls : List Request} {log : Log}
    {state next : State} {uid : Int32} {nr : UInt64} {caller : UInt32}
    (reached : Runs.exec (stepWith getHash) boot calls = .ok (log, state))
    (initialised : state.started ≠ 0) (positive : 0 < uid) (bound : nr.toNat < entries)
    (ran : sbx421Block caller uid nr state = .ok (0, next)) :
    AllFind uid nr next ↔ uid.toInt % 480 < 30 := by
  obtain ⟨idle, started, accepted⟩ :=
    row_of_blocked initialised (Int32.le_of_lt positive) bound ran
  rw [allFind_iff_of_accepted positive bound idle started accepted]
  refine or_iff_left_of_imp (fun listed => ?_)
  rw [← hookSlot_eq_slotOf_iff]
  have user : uid ≠ 0 := fun same => absurd (same ▸ positive) (by decide)
  have filed : (state.row nr).Filed := (filed_of_exec reached).2 (entryOf nr)
  have home := (filed.foundByProbe user).2 (hookSlot uid) listed
  rw [slot_getHashs (Int32.le_of_lt positive)] at home
  exact (Except.ok.inj home).symm

/-- Whatever the table holds, after a block that returned 0 the three agree
exactly for the uids whose two remainders are equal, and for those that already
stood in the slot the hook looks at. -/
theorem allFind_iff (state : State) (initialised : state.started ≠ 0) (uid : Int32)
    (positive : 0 < uid) (nr : UInt64) (bound : nr.toNat < entries) (caller : UInt32)
    (next : State) (ran : sbx421Block caller uid nr state = .ok (0, next)) :
    AllFind uid nr next ↔ uid.toInt % 480 < 30 ∨ (state.row nr).hash (hookSlot uid) = uid := by
  obtain ⟨idle, started, accepted⟩ :=
    row_of_blocked initialised (Int32.le_of_lt positive) bound ran
  exact allFind_iff_of_accepted positive bound idle started accepted

private theorem block_first {proc : Int32} {nr : UInt64} (nonneg : 0 ≤ proc)
    (bound : nr.toNat < entries) :
    ∃ next, sbx421Block 0 proc nr (startUp boot) = .ok (0, next) := by
  have valid : (Call.block 0 proc nr).Valid := ⟨nonneg, bound⟩
  have free : Idle (startUp boot) := startUp_idle rfl
  have ran : sbx421Block 0 proc nr (startUp boot) = _ := perform_valid valid free
  have accepts : ¬ ((startUp boot).row nr).Refuses proc := by
    rw [startUp_row rfl]
    intro refuses
    exact refuses.1 rfl
  refine ⟨_, ran.trans (congrArg Except.ok (Prod.ext ?_ rfl))⟩
  simp only [Call.onRow, Call.ready, Call.nr, startUp_of_started (startUp_started boot)]
  have permitted : Permitted 0 proc := Or.inr rfl
  rw [if_pos permitted, blockRow, if_neg accepts]

theorem allFind_iff_uid_five :
    ∃ next, sbx421Block 0 5 59 (startUp boot) = .ok (0, next) ∧ AllFind 5 59 next := by
  obtain ⟨next, ran⟩ : ∃ next, sbx421Block 0 5 59 (startUp boot) = .ok (0, next) :=
    block_first (by decide) (by decide)
  exact ⟨next, ran, (allFind_iff (startUp boot) (startUp_started boot) 5 (by decide) 59
    (by decide) 0 next ran).mpr (Or.inl (by decide))⟩

theorem hook_misses_uid_thirty :
    ¬ ∀ state : State, state.started ≠ 0 → ∀ uid : Int32, 0 < uid → ∀ nr : UInt64,
      nr.toNat < entries → ∀ caller next, sbx421Block caller uid nr state = .ok (0, next) →
        AllFind uid nr next := by
  intro agrees
  obtain ⟨next, ran⟩ : ∃ next, sbx421Block 0 30 59 (startUp boot) = .ok (0, next) :=
    block_first (by decide) (by decide)
  have found := agrees (startUp boot) (startUp_started boot) 30 (by decide) 59 (by decide) 0 next ran
  obtain ⟨_, _, accepted⟩ := row_of_blocked (startUp_started boot) (by decide) (by decide) ran
  rcases (findder_accepted_iff (by decide) (by decide) accepted).mp found.1 with near | listed
  · exact absurd near (by decide)
  · rw [startUp_row rfl] at listed
    have empty : (0 : Int32) = 30 := listed
    exact absurd empty (by decide)

end CS421.Sandbox
