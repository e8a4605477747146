/-
What a call with valid arguments does, as a function of one table entry.

Such a call never faults on a table whose lock is free. It may initialise the
table first; after that it rewrites the entry of its own number and nothing
else. Every law about runs of calls starts from `perform_valid`.
-/

import CS421.Sandbox.Syscalls

set_option autoImplicit false

namespace CS421.Sandbox

def slotOf (key : Int32) : Fin SIZE :=
  ⟨(key.toInt % 32).toNat, by unfold SIZE; omega⟩

def entryOf (nr : UInt64) : Fin entries := Fin.ofNat entries nr.toNat

theorem toInt_nonneg {key : Int32} (nonneg : 0 ≤ key) : 0 ≤ key.toInt := by
  simpa [Int32.le_iff_toInt_le] using nonneg

theorem getHashs_tmod (key : Int32) : (getHashs key).toInt = key.toInt.tmod 32 := by
  have size : (Int32.ofNat SIZE).toInt = 32 := by decide
  rw [getHashs, Int32.toInt_mod, size]

theorem getHashs_toInt {key : Int32} (nonneg : 0 ≤ key) :
    (getHashs key).toInt = key.toInt % 32 := by
  rw [getHashs_tmod]
  exact Int.tmod_eq_emod_of_nonneg (toInt_nonneg nonneg)

theorem slot_getHashs {key : Int32} (nonneg : 0 ≤ key) :
    slot (getHashs key) = .ok (slotOf key) := by
  have place := getHashs_toInt nonneg
  have bound : 0 ≤ (getHashs key).toInt ∧ (getHashs key).toInt.toNat < SIZE := by
    unfold SIZE
    omega
  rw [slot, dif_pos bound]
  exact congrArg Except.ok (Fin.ext (congrArg Int.toNat place))

theorem entryOf_eq {nr : UInt64} (bound : nr.toNat < entries) :
    entryOf nr = ⟨nr.toNat, bound⟩ :=
  Fin.ext (Nat.mod_eq_of_lt bound)

theorem entryOf_inj {left right : UInt64} (leftBound : left.toNat < entries)
    (rightBound : right.toNat < entries) : entryOf left = entryOf right ↔ left = right := by
  rw [entryOf_eq leftBound, entryOf_eq rightBound, Fin.mk.injEq, UInt64.toNat_inj]

theorem nr_ne_unset {nr : UInt64} (bound : nr.toNat < entries) : nr ≠ 999 := by
  intro same
  rw [same] at bound
  exact absurd bound (by decide)

/-- The test of `findder`, of unblock and of count. -/
def SysTable.Lists (row : SysTable) (key : Int32) (nr : UInt64) : Prop :=
  row.call = nr ∧ row.hash (slotOf key) = key

/-- The test of block, which asks only that `call` is not the reset value. -/
def SysTable.Refuses (row : SysTable) (key : Int32) : Prop :=
  row.call ≠ 999 ∧ row.hash (slotOf key) = key

instance (row : SysTable) (key : Int32) (nr : UInt64) : Decidable (row.Lists key nr) :=
  inferInstanceAs (Decidable (_ ∧ _))

instance (row : SysTable) (key : Int32) : Decidable (row.Refuses key) :=
  inferInstanceAs (Decidable (_ ∧ _))

def SysTable.accepted (row : SysTable) (proc : Int32) (nr : UInt64) : SysTable :=
  { call := nr, count := 0, hash := Function.update row.hash (slotOf proc) proc }

/-- The entry after a refused block: `call` moves, not `count`. -/
def SysTable.repeated (row : SysTable) : SysTable :=
  { call := row.call + 1, count := row.count, hash := row.hash }

theorem SysTable.repeated_call_ne (row : SysTable) : row.repeated.call ≠ row.call := by
  unfold repeated
  dsimp only
  grind

def SysTable.released (row : SysTable) (proc : Int32) : SysTable :=
  { call := 999, count := row.count, hash := Function.update row.hash (slotOf proc) 0 }

def SysTable.reported (row : SysTable) : SysTable :=
  { call := row.call, count := row.count + 1, hash := row.hash }

def blockRow (proc : Int32) (nr : UInt64) (row : SysTable) : Int64 × SysTable :=
  if row.Refuses proc then (-EEXIST, row.repeated) else (0, row.accepted proc nr)

def unblockRow (proc : Int32) (nr : UInt64) (row : SysTable) : Int64 × SysTable :=
  if row.Lists proc nr then (0, row.released proc) else (-EEXIST, row)

def countRow (proc : Int32) (nr : UInt64) (row : SysTable) : Int64 × SysTable :=
  if row.Lists proc nr then (narrow row.count, row) else (-EEXIST, row)

def findderRow (uid : Int32) (nr : UInt64) (row : SysTable) : Int64 × SysTable :=
  if row.Lists uid nr then (1, row.reported) else (0, row)

/-- The caller may act for `proc`: it is `proc` itself or root. -/
def Permitted (uid : UInt32) (proc : Int32) : Prop := uid = proc.toUInt32 ∨ uid = 0

instance (uid : UInt32) (proc : Int32) : Decidable (Permitted uid proc) :=
  inferInstanceAs (Decidable (_ ∨ _))

def Call.onRow : Call → SysTable → Int64 × SysTable
  | .block uid proc nr, row =>
      if Permitted uid proc then blockRow proc nr row else (-EPERM, row)
  | .unblock uid proc nr, row =>
      if Permitted uid proc then unblockRow proc nr row else (-EPERM, row)
  | .count uid proc nr, row =>
      if uid = 0 then
        if 0 < proc then countRow proc nr row else (-EINVAL, row)
      else (-EPERM, row)
  | .findder uid nr, row => findderRow uid nr row

def Call.ready : Call → State → State
  | .block _ _ _, state | .unblock _ _ _, state | .count _ _ _, state => startUp state
  | .findder _ _, state => state

def Mutex.cycle (lock : Mutex) : Mutex := { locked := false, taken := lock.taken + 1 }

def Call.lockAfter : Call → Mutex → Mutex
  | .block uid proc _, lock | .unblock uid proc _, lock =>
      if Permitted uid proc then lock.cycle else lock
  | .count uid proc _, lock => if uid = 0 ∧ 0 < proc then lock.cycle else lock
  | .findder _ _, lock => lock

def Idle (state : State) : Prop := state.lockTable.locked = false

def State.row (state : State) (nr : UInt64) : SysTable := state.permList (entryOf nr)

def State.withRow (state : State) (nr : UInt64) (row : SysTable) (lock : Mutex) : State :=
  { state with
    permList := Function.update state.permList (entryOf nr) row
    lockTable := lock }

theorem entry_valid {state : State} {nr : UInt64} (bound : nr.toNat < entries) :
    state.entry nr = .ok (state.row nr) := by
  rw [State.entry, dif_pos bound, State.row, entryOf_eq bound]

theorem setEntry_valid {state : State} {nr : UInt64} {row : SysTable}
    (bound : nr.toNat < entries) :
    state.setEntry nr row = .ok (state.withRow nr row state.lockTable) := by
  rw [State.setEntry, dif_pos bound, State.withRow, entryOf_eq bound]

private theorem holds_valid {row : SysTable} {first : Bool} {key : Int32} (nonneg : 0 ≤ key) :
    row.holds first (getHashs key) key = .ok (first && row.hash (slotOf key) == key) := by
  cases first with
  | false => rfl
  | true =>
      rw [SysTable.holds, slot_getHashs nonneg]
      rfl

theorem holds_lists {row : SysTable} {key : Int32} {nr : UInt64} (nonneg : 0 ≤ key) :
    row.holds (row.call == nr) (getHashs key) key = .ok (decide (row.Lists key nr)) := by
  have same : (row.call == nr && row.hash (slotOf key) == key) = decide (row.Lists key nr) := by
    rw [Bool.eq_iff_iff, decide_eq_true_iff, Bool.and_eq_true, beq_iff_eq, beq_iff_eq]
    rfl
  rw [holds_valid nonneg, same]

theorem holds_refuses {row : SysTable} {key : Int32} (nonneg : 0 ≤ key) :
    row.holds (row.call != 999) (getHashs key) key = .ok (decide (row.Refuses key)) := by
  have same : (row.call != 999 && row.hash (slotOf key) == key) = decide (row.Refuses key) := by
    rw [Bool.eq_iff_iff, decide_eq_true_iff, Bool.and_eq_true, bne_iff_ne, beq_iff_eq]
    rfl
  rw [holds_valid nonneg, same]

theorem setHash_valid {row : SysTable} {key value : Int32} (nonneg : 0 ≤ key) :
    row.setHash (getHashs key) value =
      .ok { row with hash := Function.update row.hash (slotOf key) value } := by
  rw [SysTable.setHash, slot_getHashs nonneg]
  rfl

theorem mutexLock_idle {state : State} (idle : Idle state) :
    mutexLock state = .ok { state with
      lockTable := { locked := true, taken := state.lockTable.taken + 1 } } := by
  have free : ¬ state.lockTable.locked = true := by
    rw [idle]
    decide
  rw [mutexLock, if_neg free]

theorem withRow_self (state : State) (nr : UInt64) (lock : Mutex) :
    state.withRow nr (state.row nr) lock = { state with lockTable := lock } := by
  rw [State.withRow, State.row, Function.update_eq_self]

theorem withRow_row {state : State} {number nr : UInt64} {row : SysTable} {lock : Mutex}
    (written : number.toNat < entries) (read : nr.toNat < entries) :
    (state.withRow number row lock).row nr = if nr = number then row else state.row nr := by
  by_cases same : nr = number
  · subst nr
    rw [if_pos rfl]
    exact Function.update_self (entryOf number) row state.permList
  · have apart : entryOf nr ≠ entryOf number := mt (entryOf_inj read written).mp same
    rw [if_neg same]
    exact Function.update_of_ne apart row state.permList

theorem blockLocked_valid {proc : Int32} {nr : UInt64} {state : State}
    (nonneg : 0 ≤ proc) (bound : nr.toNat < entries) (idle : Idle state) :
    blockLocked proc nr state = .ok
      ((blockRow proc nr (state.row nr)).1,
        state.withRow nr (blockRow proc nr (state.row nr)).2 state.lockTable.cycle) := by
  unfold blockLocked
  simp only [mutexLock_idle idle, entry_valid bound, holds_refuses nonneg, setHash_valid nonneg,
    setEntry_valid bound, bind, Except.bind, pure, Except.pure, decide_eq_true_eq]
  change (if (state.row nr).Refuses proc then _ else _) = _
  unfold blockRow
  by_cases refuses : (state.row nr).Refuses proc
  · rw [if_pos refuses, if_pos refuses]
    rfl
  · rw [if_neg refuses, if_neg refuses]
    rfl

theorem unblockLocked_valid {proc : Int32} {nr : UInt64} {state : State}
    (nonneg : 0 ≤ proc) (bound : nr.toNat < entries) (idle : Idle state) :
    unblockLocked proc nr state = .ok
      ((unblockRow proc nr (state.row nr)).1,
        state.withRow nr (unblockRow proc nr (state.row nr)).2 state.lockTable.cycle) := by
  unfold unblockLocked
  simp only [mutexLock_idle idle, entry_valid bound, holds_lists nonneg, setHash_valid nonneg,
    setEntry_valid bound, bind, Except.bind, pure, Except.pure, decide_eq_true_eq]
  change (if (state.row nr).Lists proc nr then _ else _) = _
  unfold unblockRow
  by_cases lists : (state.row nr).Lists proc nr
  · rw [if_pos lists, if_pos lists]
    rfl
  · rw [if_neg lists, if_neg lists, withRow_self]
    rfl

theorem countLocked_valid {proc : Int32} {nr : UInt64} {state : State}
    (nonneg : 0 ≤ proc) (bound : nr.toNat < entries) (idle : Idle state) :
    countLocked proc nr state = .ok
      ((countRow proc nr (state.row nr)).1,
        state.withRow nr (countRow proc nr (state.row nr)).2 state.lockTable.cycle) := by
  unfold countLocked
  simp only [mutexLock_idle idle, entry_valid bound, holds_lists nonneg,
    bind, Except.bind, pure, Except.pure, decide_eq_true_eq]
  change (if (state.row nr).Lists proc nr then _ else _) = _
  unfold countRow
  by_cases lists : (state.row nr).Lists proc nr
  · rw [if_pos lists, if_pos lists, withRow_self]
    rfl
  · rw [if_neg lists, if_neg lists, withRow_self]
    rfl

theorem findder_valid {uid : Int32} {nr : UInt64} {state : State}
    (nonneg : 0 ≤ uid) (bound : nr.toNat < entries) :
    findder getHashs uid nr state = .ok
      (if (state.row nr).Lists uid nr then 1 else 0,
        state.withRow nr (findderRow uid nr (state.row nr)).2 state.lockTable) := by
  unfold findder
  simp only [entry_valid bound, holds_lists nonneg, setEntry_valid bound,
    bind, Except.bind, pure, Except.pure, decide_eq_true_eq]
  unfold findderRow
  by_cases lists : (state.row nr).Lists uid nr
  · rw [if_pos lists, if_pos lists, if_pos lists]
    rfl
  · rw [if_neg lists, if_neg lists, if_neg lists, withRow_self]

theorem startUp_lockTable (state : State) : (startUp state).lockTable = state.lockTable := by
  unfold startUp
  split
  · exact initalizeHash_lockTable state
  · rfl

theorem startUp_idle {state : State} (idle : Idle state) : Idle (startUp state) :=
  (congrArg Mutex.locked (startUp_lockTable state)).trans idle

theorem ready_lockTable (call : Call) (state : State) :
    (call.ready state).lockTable = state.lockTable := by
  cases call with
  | findder uid nr => rfl
  | block uid proc nr => exact startUp_lockTable state
  | unblock uid proc nr => exact startUp_lockTable state
  | count uid proc nr => exact startUp_lockTable state

theorem ite_permitted {Value : Type} {uid : UInt32} {proc : Int32} {act refuse : Value} :
    (if uid == proc.toUInt32 then act else if uid == 0 then act else refuse) =
      if Permitted uid proc then act else refuse := by
  by_cases self : uid = proc.toUInt32
  · have permitted : Permitted uid proc := Or.inl self
    rw [if_pos (beq_iff_eq.mpr self), if_pos permitted]
  · rw [if_neg (mt beq_iff_eq.mp self)]
    by_cases root : uid = 0
    · have permitted : Permitted uid proc := Or.inr root
      rw [if_pos (beq_iff_eq.mpr root), if_pos permitted]
    · have stranger : ¬ Permitted uid proc := not_or.mpr ⟨self, root⟩
      rw [if_neg (mt beq_iff_eq.mp root), if_neg stranger]

theorem perform_count {uid : UInt32} {proc : Int32} {nr : UInt64} {state : State} :
    perform (.count uid proc nr) state =
      if uid = 0 ∧ 0 < proc then countLocked proc nr (startUp state)
      else .ok (if uid = 0 then -EINVAL else -EPERM, startUp state) := by
  simp only [perform, sbx421Count]
  by_cases root : uid = 0
  · by_cases positive : 0 < proc
    · have nonzero : proc ≠ 0 := fun same => absurd (same ▸ positive) (by decide)
      simp [root, positive, nonzero]
    · simp [root, positive]
  · simp [root]

theorem startUp_started (state : State) : (startUp state).started ≠ 0 := by
  unfold startUp
  by_cases unset : state.started = 0
  · rw [if_pos (beq_iff_eq.mpr unset)]
    exact (by decide : (1 : Int32) ≠ 0)
  · rw [if_neg (mt beq_iff_eq.mp unset)]
    exact unset

theorem startUp_of_started {state : State} (initialised : state.started ≠ 0) :
    startUp state = state := by
  rw [startUp, if_neg (mt beq_iff_eq.mp initialised)]

theorem startUp_row {state : State} (unset : state.started = 0) (nr : UInt64) :
    (startUp state).row nr = (state.row nr).initalize := by
  rw [startUp, if_pos (beq_iff_eq.mpr unset)]
  unfold State.row
  dsimp only
  rw [initalizeHash_permList]

/-- A valid call on a table whose lock is free answers from the entry of its
number, rewrites that entry and leaves the lock free. -/
theorem perform_valid {call : Call} {state : State} (valid : call.Valid) (idle : Idle state) :
    perform call state = .ok
      ((call.onRow ((call.ready state).row call.nr)).1,
        (call.ready state).withRow call.nr (call.onRow ((call.ready state).row call.nr)).2
          (call.lockAfter state.lockTable)) := by
  have lock := ready_lockTable call state
  have ready : Idle (call.ready state) := (congrArg Mutex.locked lock).trans idle
  rw [← lock]
  cases call with
  | block uid proc nr =>
      simp only [perform, sbx421Block, Call.onRow, Call.lockAfter, Call.nr, Call.ready]
      rw [ite_permitted]
      by_cases permitted : Permitted uid proc
      · simp only [if_pos permitted]
        exact blockLocked_valid valid.1 valid.2 ready
      · simp only [if_neg permitted, withRow_self]
  | unblock uid proc nr =>
      simp only [perform, sbx421Unblock, Call.onRow, Call.lockAfter, Call.nr, Call.ready]
      rw [ite_permitted]
      by_cases permitted : Permitted uid proc
      · simp only [if_pos permitted]
        exact unblockLocked_valid valid.1 valid.2 ready
      · simp only [if_neg permitted, withRow_self]
  | count uid proc nr =>
      rw [perform_count]
      simp only [Call.onRow, Call.lockAfter, Call.nr, Call.ready]
      by_cases root : uid = 0
      · by_cases positive : 0 < proc
        · simp only [if_pos root, if_pos positive, if_pos (And.intro root positive)]
          exact countLocked_valid valid.1 valid.2 ready
        · simp only [root, positive, and_false, if_false, if_true, withRow_self]
      · simp only [root, false_and, if_false, withRow_self]
  | findder uid nr =>
      have found : findder getHashs uid nr state = _ := findder_valid valid.1 valid.2
      simp only [perform, found, bind, Except.bind, pure, Except.pure]
      simp only [Call.onRow, Call.ready, Call.lockAfter, Call.nr]
      unfold findderRow
      by_cases lists : (state.row nr).Lists uid nr
      · rw [if_pos lists, if_pos lists]
        rfl
      · rw [if_neg lists, if_neg lists]
        rfl

end CS421.Sandbox
