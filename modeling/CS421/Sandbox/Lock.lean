/-
What becomes of the table lock, in proj2.c and in its chained variant.

A mutex that a call returns with stays taken: no later call gives it back, and
every later call that needs it waits.
-/

import CS421.Outcomes
import CS421.Runs
import CS421.Sandbox.Chained

set_option autoImplicit false

namespace CS421.Sandbox

open Runs Outcomes

/-- The call does not wait for the lock; if it returns, it has taken the lock at
most once and the lock is free. A wild access ends the run and is no return. -/
def GivesBack {Input State Fault : Type} (perform : Machine State Input Int64 Fault)
    (lock : State → Mutex) (deadlock : Fault) (state : State) (call : Input) : Prop :=
  Meets (perform call state) (fun fault => fault ≠ deadlock)
    (fun out => (lock out.2).locked = false ∧ (lock out.2).taken ≤ (lock state).taken + 1)

def NotDeadlock {Fault : Type} (deadlock fault : Fault) : Prop := fault ≠ deadlock

/-- What holds when a section that has locked once returns. -/
def Unlocked {State : Type} (lock : State → Mutex) (before : Mutex) (out : Int64 × State) : Prop :=
  (lock out.2).locked = false ∧ (lock out.2).taken ≤ before.taken + 1

section Sections

variable {State Fault : Type} {lock : State → Mutex} {deadlock : Fault} {answer : Int64}

theorem unlocked {next : State} {before : Mutex} {taken : Nat}
    (freed : lock next = { locked := false, taken := taken }) (once : taken = before.taken + 1) :
    Unlocked lock before (answer, next) := by
  unfold Unlocked
  rw [freed]
  exact ⟨rfl, Nat.le_of_eq once⟩

theorem unlocked_of_same {state next : State} (free : (lock state).locked = false)
    (same : lock next = lock state) : Unlocked lock (lock state) (answer, next) := by
  unfold Unlocked
  rw [same]
  exact ⟨free, Nat.le_succ _⟩

theorem guarded_meets {opened : Except Fault State} {act : State → Except Fault (Int64 × State)}
    {guard : Prop} [Decidable guard] {state : State} (free : (lock state).locked = false)
    (opens : Meets opened (NotDeadlock deadlock) (fun ready => lock ready = lock state))
    (inside : ∀ ready, opened = .ok ready → (lock ready).locked = false → guard →
      Meets (act ready) (NotDeadlock deadlock) (Unlocked lock (lock ready))) :
    Meets (opened >>= fun ready => if guard then act ready else pure (answer, ready))
      (NotDeadlock deadlock) (Unlocked lock (lock state)) := by
  cases started : opened with
  | error fault =>
      rw [started] at opens
      exact meets_error opens
  | ok ready =>
      rw [started] at opens
      have same : lock ready = lock state := opens
      change Meets (if guard then act ready else pure (answer, ready)) _ _
      split
      · rename_i entered
        rw [← same]
        exact inside ready started ((congrArg Mutex.locked same).trans free) entered
      · exact meets_ok (unlocked_of_same free same)

end Sections

/-! ### proj2.c -/

section Steps

variable {state : State} {row : SysTable} {nr : UInt64} {index key : Int32}

theorem mutexLock_meets (idle : Idle state) :
    Meets (mutexLock state) (NotDeadlock Fault.deadlock)
      (fun next => next.lockTable.taken = state.lockTable.taken + 1) := by
  rw [mutexLock_idle idle]
  exact meets_ok rfl

theorem entry_meets : Meets (state.entry nr) (NotDeadlock Fault.deadlock) (fun _ => True) := by
  unfold State.entry
  split
  · exact meets_ok trivial
  · exact meets_error Fault.noConfusion

theorem setEntry_meets :
    Meets (state.setEntry nr row) (NotDeadlock Fault.deadlock) (fun next => next.lockTable = state.lockTable) := by
  unfold State.setEntry
  split
  · exact meets_ok rfl
  · exact meets_error Fault.noConfusion

theorem slot_meets : Meets (slot index) (NotDeadlock Fault.deadlock) (fun _ => True) := by
  unfold slot
  split
  · exact meets_ok trivial
  · exact meets_error Fault.noConfusion

theorem holds_meets {first : Bool} :
    Meets (row.holds first index key) (NotDeadlock Fault.deadlock) (fun _ => True) := by
  unfold SysTable.holds
  split
  · exact slot_meets.bind (fun _ _ => meets_ok trivial)
  · exact meets_ok trivial

theorem setHash_meets : Meets (row.setHash index key) (NotDeadlock Fault.deadlock) (fun _ => True) :=
  slot_meets.bind (fun _ _ => meets_ok trivial)

end Steps

section Sections

variable {state : State} {proc : Int32} {nr : UInt64}

theorem blockLocked_meets (idle : Idle state) :
    Meets (blockLocked proc nr state) (NotDeadlock Fault.deadlock) (Unlocked State.lockTable state.lockTable) := by
  refine (mutexLock_meets idle).bind (fun locked once => ?_)
  refine entry_meets.bind (fun row _ => ?_)
  refine holds_meets.bind (fun present _ => ?_)
  cases present with
  | true => exact setEntry_meets.bind (fun next same => meets_ok (unlocked rfl (same ▸ once)))
  | false =>
      refine setHash_meets.bind (fun written _ => ?_)
      exact setEntry_meets.bind (fun next same => meets_ok (unlocked rfl (same ▸ once)))

theorem unblockLocked_meets (idle : Idle state) :
    Meets (unblockLocked proc nr state) (NotDeadlock Fault.deadlock) (Unlocked State.lockTable state.lockTable) := by
  refine (mutexLock_meets idle).bind (fun locked once => ?_)
  refine entry_meets.bind (fun row _ => ?_)
  refine holds_meets.bind (fun present _ => ?_)
  cases present with
  | true =>
      refine setHash_meets.bind (fun written _ => ?_)
      exact setEntry_meets.bind (fun next same => meets_ok (unlocked rfl (same ▸ once)))
  | false => exact meets_ok (unlocked rfl once)

theorem countLocked_meets (idle : Idle state) :
    Meets (countLocked proc nr state) (NotDeadlock Fault.deadlock) (Unlocked State.lockTable state.lockTable) := by
  refine (mutexLock_meets idle).bind (fun locked once => ?_)
  refine entry_meets.bind (fun row _ => ?_)
  refine holds_meets.bind (fun present _ => ?_)
  cases present with
  | true => exact meets_ok (unlocked rfl once)
  | false => exact meets_ok (unlocked rfl once)

end Sections

theorem opened_meets (state : State) :
    Meets (.ok (startUp state) : Except Fault State) (NotDeadlock Fault.deadlock)
      (fun ready => ready.lockTable = state.lockTable) :=
  meets_ok (startUp_lockTable state)

theorem findder_meets {uid : Int32} {nr : UInt64} {state : State} (idle : Idle state) :
    Meets (perform (.findder uid nr) state) (NotDeadlock Fault.deadlock)
      (Unlocked State.lockTable state.lockTable) := by
  have hook : Meets (findder getHashs uid nr state) (NotDeadlock Fault.deadlock)
      (fun out => out.2.lockTable = state.lockTable) := by
    refine entry_meets.bind (fun row _ => ?_)
    refine holds_meets.bind (fun found _ => ?_)
    cases found with
    | true => exact setEntry_meets.bind (fun next same => meets_ok same)
    | false => exact meets_ok rfl
  exact hook.bind (fun out same => meets_ok (unlocked_of_same idle same))

theorem givesBack_perform (call : Call) {state : State} (idle : Idle state) :
    GivesBack perform State.lockTable .deadlock state call := by
  have opens := opened_meets state
  unfold GivesBack
  cases call with
  | block uid proc nr =>
      simp only [perform, sbx421Block, ite_permitted]
      exact guarded_meets idle opens (fun _ _ free _ => blockLocked_meets free)
  | unblock uid proc nr =>
      simp only [perform, sbx421Unblock, ite_permitted]
      exact guarded_meets idle opens (fun _ _ free _ => unblockLocked_meets free)
  | count uid proc nr =>
      rw [perform_count]
      exact guarded_meets idle opens (fun _ _ free _ => countLocked_meets free)
  | findder uid nr => exact findder_meets idle

/-! ### proj2_copy.c -/

namespace Chained

variable {bucket : Int32 → Nat}

def Idle (state : State) : Prop := state.lockTable.locked = false

/-- A permitted block of a pair that the entry does not list yet, whose `kmalloc`
returns NULL. -/
def AllocationFails (bucket : Int32 → Nat) (state : State) : Call → Prop
  | .block allocated uid proc nr =>
      allocated = false ∧ Permitted uid proc ∧ ∃ ready procHash,
        startUp state = .ok ready ∧ getTableMain nr ready = .ok procHash ∧
          search bucket procHash proc nr = none
  | .unblock _ _ _ | .count _ _ _ => False

section Steps

variable {state : State} {proc : Int32} {nr : UInt64}

theorem mutexLock_idle (idle : Idle state) :
    mutexLock state = .ok { state with
      lockTable := { locked := true, taken := state.lockTable.taken + 1 } } := by
  have free : ¬ state.lockTable.locked = true := by
    rw [idle]
    decide
  rw [mutexLock, if_neg free]

theorem getTableMain_meets : Meets (getTableMain nr state) (NotDeadlock Fault.deadlock) (fun _ => True) := by
  unfold getTableMain
  split
  · split
    · exact meets_ok trivial
    · exact meets_error Fault.noConfusion
  · exact meets_error Fault.noConfusion

theorem startUp_meets :
    Meets (startUp state) (NotDeadlock Fault.deadlock) (fun ready => ready.lockTable = state.lockTable) := by
  unfold startUp
  split
  · have entries_meet : Meets ((List.finRange entries).foldlM initalizeEntry state.permList)
        (NotDeadlock Fault.deadlock) (fun _ => True) := by
      refine foldlM_meets trivial (fun permList countm _ => ?_) _
      unfold initalizeEntry
      split
      · exact meets_ok trivial
      · exact meets_error Fault.noConfusion
    have table_meets : Meets (initalizeHash state) (NotDeadlock Fault.deadlock)
        (fun next => next.lockTable = state.lockTable) :=
      entries_meet.bind (fun _ _ => meets_ok rfl)
    exact table_meets.bind (fun next same => meets_ok same)
  · exact meets_ok rfl

theorem locked_meets (idle : Idle state) {act : HashTable → State → Outcome}
    (searched : ∀ procHash locked, getTableMain nr state = .ok procHash →
      locked.lockTable.taken = state.lockTable.taken + 1 →
        Meets (act procHash locked) (NotDeadlock Fault.deadlock) (Unlocked State.lockTable state.lockTable)) :
    Meets (do
        let locked ← mutexLock state
        let procHash ← getTableMain nr locked
        act procHash locked)
      (NotDeadlock Fault.deadlock) (Unlocked State.lockTable state.lockTable) := by
  rw [mutexLock_idle idle]
  have met : Meets (getTableMain nr state) (NotDeadlock Fault.deadlock) (fun _ => True) := getTableMain_meets
  change Meets (getTableMain nr state >>= _) _ _
  cases table : getTableMain nr state with
  | error fault =>
      rw [table] at met
      exact meets_error met
  | ok procHash => exact searched procHash _ table rfl

theorem blockLocked_meets {allocated : Bool} (idle : Idle state)
    (spare : ∀ procHash, getTableMain nr state = .ok procHash →
      search bucket procHash proc nr = none → allocated = true) :
    Meets (blockLocked bucket allocated proc nr state) (NotDeadlock Fault.deadlock) (Unlocked State.lockTable state.lockTable) := by
  refine locked_meets idle (fun procHash locked table once => ?_)
  cases found : search bucket procHash proc nr with
  | some check => exact meets_ok (unlocked rfl once)
  | none =>
      rw [spare procHash table found]
      exact meets_ok (unlocked rfl once)

theorem unblockLocked_meets (idle : Idle state) :
    Meets (unblockLocked bucket proc nr state) (NotDeadlock Fault.deadlock) (Unlocked State.lockTable state.lockTable) := by
  refine locked_meets idle (fun procHash locked _ once => ?_)
  cases search bucket procHash proc nr with
  | some check => exact meets_ok (unlocked rfl once)
  | none => exact meets_ok (unlocked rfl once)

theorem countLocked_meets (idle : Idle state) :
    Meets (countLocked bucket proc nr state) (NotDeadlock Fault.deadlock) (Unlocked State.lockTable state.lockTable) := by
  refine locked_meets idle (fun procHash locked _ once => ?_)
  cases search bucket procHash proc nr with
  | some check => exact meets_ok (unlocked rfl once)
  | none => exact meets_ok (unlocked rfl once)

theorem blockLocked_keeps {procHash : HashTable} (idle : Idle state)
    (table : getTableMain nr state = .ok procHash) (unlisted : search bucket procHash proc nr = none) :
    ∃ next, blockLocked bucket false proc nr state = .ok (-ENOMEM, next) ∧
      next.lockTable.locked = true := by
  refine ⟨{ state with lockTable := { locked := true, taken := state.lockTable.taken + 1 } }, ?_, rfl⟩
  rw [blockLocked, mutexLock_idle idle]
  change (getTableMain nr state >>= _) = _
  rw [table]
  simp only [bind, Except.bind, unlisted]
  rfl

end Steps

theorem perform_count {uid : UInt32} {proc : Int32} {nr : UInt64} {state : State} :
    perform bucket (.count uid proc nr) state =
      (startUp state >>= fun ready =>
        if uid = 0 ∧ proc ≠ 0 then countLocked bucket proc nr ready
        else pure (if uid = 0 then -EINVAL else -EPERM, ready)) := by
  unfold perform sbx421Count
  refine bind_congr (fun ready => ?_)
  by_cases root : uid = 0
  · by_cases user : proc = 0
    · simp [root, user]
    · simp [root, user]
  · simp [root]

theorem givesBack_iff (call : Call) {state : State} (idle : Idle state) :
    GivesBack (perform bucket) State.lockTable .deadlock state call ↔
      ¬ AllocationFails bucket state call := by
  cases call with
  | block allocated uid proc nr =>
      unfold GivesBack perform sbx421Block AllocationFails
      simp only [ite_permitted]
      constructor
      · rintro gives ⟨rfl, permitted, ready, procHash, started, table, unlisted⟩
        have met : Meets (startUp state) (NotDeadlock Fault.deadlock) _ := startUp_meets
        rw [started] at met gives
        have free : Idle ready := (congrArg Mutex.locked (show _ = _ from met)).trans idle
        obtain ⟨next, ran, held⟩ := blockLocked_keeps free table unlisted
        change Meets (if Permitted uid proc then _ else _) _ _ at gives
        rw [if_pos permitted, ran] at gives
        exact absurd held (Bool.eq_false_iff.mp gives.1)
      · intro spare
        refine guarded_meets idle startUp_meets (fun ready started free permitted => ?_)
        refine blockLocked_meets free (fun procHash table unlisted => ?_)
        cases allocated with
        | true => rfl
        | false => exact absurd ⟨rfl, permitted, ready, procHash, started, table, unlisted⟩ spare
  | unblock uid proc nr =>
      refine iff_of_true ?_ not_false
      unfold GivesBack perform sbx421Unblock
      simp only [ite_permitted]
      exact guarded_meets idle startUp_meets (fun _ _ free _ => unblockLocked_meets free)
  | count uid proc nr =>
      refine iff_of_true ?_ not_false
      unfold GivesBack
      rw [perform_count]
      exact guarded_meets idle startUp_meets (fun _ _ free _ => countLocked_meets free)

end Chained

/-! ### Runs -/

theorem GivesBack.next {Input State Fault : Type} {perform : Machine State Input Int64 Fault}
    {lock : State → Mutex} {deadlock : Fault} {state next : State} {call : Input} {answer : Int64}
    (gives : GivesBack perform lock deadlock state call)
    (ran : perform call state = .ok (answer, next)) : (lock next).locked = false :=
  (Meets.ends gives ran).1

/-- From a state whose lock is free: in every run on proj2.c each call gives the
lock back and none waits for it; in a run on proj2_copy.c that is so exactly when
in none of its calls an allocation fails. -/
theorem lock_given_back_iff (start : State) (idle : Idle start) (calls : List Call)
    (bucket : Int32 → Nat) (variant : Chained.State) (free : Chained.Idle variant)
    (requests : List Chained.Call) :
    EveryStep perform start calls
        (fun _ state call => GivesBack perform State.lockTable .deadlock state call) ∧
      (EveryStep (Chained.perform bucket) variant requests
          (fun _ state call =>
            GivesBack (Chained.perform bucket) Chained.State.lockTable .deadlock state call) ↔
        EveryStep (Chained.perform bucket) variant requests
          (fun _ state call => ¬ Chained.AllocationFails bucket state call)) := by
  constructor
  · refine (everyStep_iff (fun _ state => Idle state) idle ?_ ?_ calls).mp
      (fun _ _ _ _ _ _ => trivial)
    · intro _ state call answer next free _ ran
      exact (givesBack_perform call free).next ran
    · intro _ state call free
      exact iff_of_true trivial (givesBack_perform call free)
  · refine everyStep_iff (fun _ state => Chained.Idle state) free ?_ ?_ requests
    · intro _ state call answer next _ gives ran
      exact gives.next ran
    · intro _ state call free
      exact Chained.givesBack_iff call free

def Chained.stocked : Chained.State :=
  { permList := fun _ => some fun _ => [], started := 1, lockTable := { locked := false, taken := 0 } }

theorem lock_given_back_iff_stocked :
    EveryStep (Chained.perform fun _ => 0) Chained.stocked [.block true 0 5 59]
      (fun _ state call =>
        GivesBack (Chained.perform fun _ => 0) Chained.State.lockTable .deadlock state call) := by
  refine (lock_given_back_iff boot rfl [] (fun _ => 0) Chained.stocked rfl
    [.block true 0 5 59]).2.mpr ?_
  intro prior call before log state _ fails
  have member := before.subset (List.mem_append_right prior List.mem_cons_self)
  cases List.mem_singleton.mp member
  exact absurd fails.1 (by decide)

/-- Root blocks the uid 5 while memory is short: the call returns -ENOMEM and the
lock is not free. -/
theorem lock_kept_without_memory :
    ¬ ∀ (start : State), Idle start → ∀ (calls : List Call) (bucket : Int32 → Nat)
      (variant : Chained.State), Chained.Idle variant → ∀ requests : List Chained.Call,
        EveryStep perform start calls
            (fun _ state call => GivesBack perform State.lockTable .deadlock state call) ∧
          EveryStep (Chained.perform bucket) variant requests (fun _ state call =>
            GivesBack (Chained.perform bucket) Chained.State.lockTable .deadlock state call) := by
  intro gives
  have given := (gives boot rfl [] (fun _ => 0) Chained.stocked rfl [.block false 0 5 59]).2
  have free := given [] (.block false 0 5 59) (List.prefix_refl _) [] Chained.stocked rfl
  have taken : true = false := free.1
  exact Bool.noConfusion taken

end CS421.Sandbox
