/-
Calls that run at the same time, one access to the table at a time.

A system call holds the lock from its test of the entry to its last store. The
hook takes no lock: it reads `call`, then a slot, then reads and stores `count`,
and the sections of other calls may be between any two of these. Each read or
store of a field is one step, and the stores of a thread are seen in the order
of the source. A section reads the entry in one step, since no other thread
stores to `call` or to a slot while the lock is held.
-/

import CS421.Sandbox.History

set_option autoImplicit false

namespace CS421.Sandbox

open Runs

inductive Store where
  | call (value : UInt64)
  | count (value : UInt64)
  | hash (place : Fin SIZE) (key : Int32)
  deriving DecidableEq

def SysTable.store (row : SysTable) : Store → SysTable
  | .call value => { row with call := value }
  | .count value => { row with count := value }
  | .hash place key => { row with hash := Function.update row.hash place key }

def State.store (table : State) (nr : UInt64) (store : Store) : State :=
  table.withRow nr ((table.row nr).store store) table.lockTable

/-- Lines 55 to 64 and 72 to 81, lines 108 to 111 and 125 to 128, line 160: what
the section stores and answers, from the entry it reads. -/
def Call.critical (call : Call) (row : SysTable) : List Store × Int64 :=
  match call with
  | .block _ proc nr =>
      if row.Refuses proc then ([.call (row.call + 1)], -EEXIST)
      else ([.hash (slotOf proc) proc, .call nr, .count 0], 0)
  | .unblock _ proc nr =>
      if row.Lists proc nr then ([.call 999, .hash (slotOf proc) 0], 0) else ([], -EEXIST)
  | .count _ proc nr =>
      if row.Lists proc nr then ([], narrow row.count) else ([], -EEXIST)
  | .findder _ _ => ([], 0)

def Call.refusal : Call → Option Int64
  | .block uid proc _ | .unblock uid proc _ => if Permitted uid proc then none else some (-EPERM)
  | .count uid proc _ =>
      if uid = 0 then if 0 < proc then none else some (-EINVAL) else some (-EPERM)
  | .findder _ _ => none

/-! ### Steps -/

/-- Where a thread stands, with what it has read. -/
inductive Stage where
  | idle
  | entered (request : Request)
  | holding (request : Request)
  | storing (request : Request) (stores : List Store) (answer : Int64)
  /-- `call` was read as the number. -/
  | matched (uid : Int32) (nr : UInt64) (valid : (Call.findder uid nr).Valid)
  /-- The slot was read as the uid. -/
  | found (uid : Int32) (nr : UInt64) (valid : (Call.findder uid nr).Valid)
  | counting (uid : Int32) (nr : UInt64) (valid : (Call.findder uid nr).Valid) (count : UInt64)

structure Tasks (Thread : Type) where
  table : State
  stage : Thread → Stage

def tasksAt (Thread : Type) (table : State) : Tasks Thread :=
  { table := table, stage := fun _ => .idle }

inductive Event where
  | took (request : Request)
  /-- The lock is given back, and the call answers. -/
  | released (request : Request) (answer : Int64)
  /-- The call answers and has held no lock. -/
  | answered (request : Request) (answer : Int64)
  deriving DecidableEq

def Event.answer : Event → Option (Request × Int64)
  | .took _ => none
  | .released request answer | .answered request answer => some (request, answer)

inductive Pause where
  | disabled
  /-- `mutex_lock` does not return while another thread holds the lock. -/
  | waits

def Mutex.take (lock : Mutex) : Mutex := { locked := true, taken := lock.taken + 1 }

/-- The tests of the caller, and `mutex_lock`. -/
def lockStep (request : Request) (table : State) : Except Pause (Option Event × State × Stage) :=
  match request.1.refusal with
  | some answer => .ok (some (.answered request answer), table, .idle)
  | none =>
      if table.lockTable.locked then .error .waits
      else .ok (some (.took request), { table with lockTable := table.lockTable.take },
        .holding request)

def Stage.next (table : State) : Stage → Except Pause (Option Event × State × Stage)
  | .idle => .error .disabled
  | .entered ⟨.findder uid nr, valid⟩ =>
      if (table.row nr).call = nr then .ok (none, table, .matched uid nr valid)
      else .ok (some (.answered ⟨.findder uid nr, valid⟩ 0), table, .idle)
  | .entered request => lockStep request table
  | .holding request =>
      let critical := request.1.critical (table.row request.1.nr)
      .ok (none, table, .storing request critical.1 critical.2)
  | .storing request [] answer => .ok (some (.released request answer), mutexUnlock table, .idle)
  | .storing request (store :: rest) answer =>
      .ok (none, table.store request.1.nr store, .storing request rest answer)
  | .matched uid nr valid =>
      if (table.row nr).hash (slotOf uid) = uid then .ok (none, table, .found uid nr valid)
      else .ok (some (.answered ⟨.findder uid nr, valid⟩ 0), table, .idle)
  | .found uid nr valid => .ok (none, table, .counting uid nr valid (table.row nr).count)
  | .counting uid nr valid count =>
      .ok (some (.answered ⟨.findder uid nr, valid⟩ 1), table.store nr (.count (count + 1)), .idle)

inductive Move (Thread : Type) where
  | enter (thread : Thread) (request : Request)
  | next (thread : Thread)

section Moves

variable {Thread : Type} [DecidableEq Thread]

def Tasks.moved (tasks : Tasks Thread) (table : State) (thread : Thread) (stage : Stage) :
    Tasks Thread :=
  { table := table, stage := Function.update tasks.stage thread stage }

/-- A call enters through lines 44 to 49, here one step. -/
def Move.act : Machine (Tasks Thread) (Move Thread) (Option Event) Pause
  | .enter thread request, tasks =>
      match tasks.stage thread with
      | .idle => .ok (none, tasks.moved (request.1.ready tasks.table) thread (.entered request))
      | _ => .error .disabled
  | .next thread, tasks =>
      match (tasks.stage thread).next tasks.table with
      | .error pause => .error pause
      | .ok (event, table, stage) => .ok (event, tasks.moved table thread stage)

end Moves

abbrev MoveLog (Thread : Type) := History (Move Thread) (Option Event)

def Call.Locks : Call → Prop
  | .block uid proc _ | .unblock uid proc _ => Permitted uid proc
  | .count uid proc _ => uid = 0 ∧ 0 < proc
  | .findder _ _ => False

inductive Goes (table : State) : Stage → Option Event → State → Stage → Prop where
  | asks {uid : Int32} {nr : UInt64} {valid : (Call.findder uid nr).Valid}
      (call : (table.row nr).call = nr) :
      Goes table (.entered ⟨.findder uid nr, valid⟩) none table (.matched uid nr valid)
  | passes {uid : Int32} {nr : UInt64} {valid : (Call.findder uid nr).Valid}
      (call : (table.row nr).call ≠ nr) :
      Goes table (.entered ⟨.findder uid nr, valid⟩) (some (.answered ⟨.findder uid nr, valid⟩ 0))
        table .idle
  | refused {request : Request} {answer : Int64} (unlocked : ¬ request.1.Locks)
      (refusal : request.1.refusal = some answer) :
      Goes table (.entered request) (some (.answered request answer)) table .idle
  | takes {request : Request} (locks : request.1.Locks) (free : Idle table) :
      Goes table (.entered request) (some (.took request))
        { table with lockTable := table.lockTable.take } (.holding request)
  | tests {request : Request} :
      Goes table (.holding request) none table
        (.storing request (request.1.critical (table.row request.1.nr)).1
          (request.1.critical (table.row request.1.nr)).2)
  | stores {request : Request} {store : Store} {rest : List Store} {answer : Int64} :
      Goes table (.storing request (store :: rest) answer) none
        (table.store request.1.nr store) (.storing request rest answer)
  | releases {request : Request} {answer : Int64} :
      Goes table (.storing request [] answer) (some (.released request answer))
        (mutexUnlock table) .idle
  | finds {uid : Int32} {nr : UInt64} {valid : (Call.findder uid nr).Valid}
      (slot : (table.row nr).hash (slotOf uid) = uid) :
      Goes table (.matched uid nr valid) none table (.found uid nr valid)
  | misses {uid : Int32} {nr : UInt64} {valid : (Call.findder uid nr).Valid}
      (slot : (table.row nr).hash (slotOf uid) ≠ uid) :
      Goes table (.matched uid nr valid) (some (.answered ⟨.findder uid nr, valid⟩ 0)) table .idle
  | reads {uid : Int32} {nr : UInt64} {valid : (Call.findder uid nr).Valid} :
      Goes table (.found uid nr valid) none table (.counting uid nr valid (table.row nr).count)
  | counts {uid : Int32} {nr : UInt64} {valid : (Call.findder uid nr).Valid} {count : UInt64} :
      Goes table (.counting uid nr valid count) (some (.answered ⟨.findder uid nr, valid⟩ 1))
        (table.store nr (.count (count + 1))) .idle

theorem Call.Locks.refusal {call : Call} (locks : call.Locks) : call.refusal = none := by
  cases call with
  | block uid proc nr => exact if_pos locks
  | unblock uid proc nr => exact if_pos locks
  | count uid proc nr => rw [Call.refusal, if_pos locks.1, if_pos locks.2]
  | findder uid nr => exact locks.elim

theorem locks_of_refusal {call : Call} (hook : ∀ uid nr, call ≠ .findder uid nr)
    (refusal : call.refusal = none) : call.Locks := by
  cases call with
  | block uid proc nr => simpa [Call.refusal, Call.Locks] using refusal
  | unblock uid proc nr => simpa [Call.refusal, Call.Locks] using refusal
  | count uid proc nr =>
      by_cases root : uid = 0
      · by_cases positive : 0 < proc
        · exact ⟨root, positive⟩
        · rw [Call.refusal, if_pos root, if_neg positive] at refusal
          cases refusal
      · rw [Call.refusal, if_neg root] at refusal
        cases refusal
  | findder uid nr => exact (hook uid nr rfl).elim

private theorem goes_of_lockStep {table next : State} {request : Request} {later : Stage}
    {event : Option Event} (hook : ∀ uid nr, request.1 ≠ .findder uid nr)
    (went : lockStep request table = .ok (event, next, later)) :
    Goes table (.entered request) event next later := by
  unfold lockStep at went
  cases refusal : request.1.refusal with
  | some answer =>
      rw [refusal] at went
      cases went
      refine .refused (fun locks => ?_) refusal
      rw [locks.refusal] at refusal
      cases refusal
  | none =>
      rw [refusal] at went
      dsimp only at went
      split at went
      · cases went
      · rename_i free
        cases went
        exact .takes (locks_of_refusal hook refusal) (Bool.eq_false_of_not_eq_true free)

theorem goes_of_next {table next : State} {stage later : Stage} {event : Option Event}
    (went : stage.next table = .ok (event, next, later)) : Goes table stage event next later := by
  cases stage with
  | idle => cases went
  | entered request =>
      rcases request with ⟨call, valid⟩
      cases call with
      | findder uid nr =>
          simp only [Stage.next] at went
          split at went
          · rename_i same
            cases went
            exact .asks same
          · rename_i other
            cases went
            exact .passes other
      | block uid proc nr => exact goes_of_lockStep (fun _ _ same => by cases same) went
      | unblock uid proc nr => exact goes_of_lockStep (fun _ _ same => by cases same) went
      | count uid proc nr => exact goes_of_lockStep (fun _ _ same => by cases same) went
  | holding request =>
      cases went
      exact .tests
  | storing request stores answer =>
      cases stores with
      | nil =>
          cases went
          exact .releases
      | cons store rest =>
          cases went
          exact .stores
  | matched uid nr valid =>
      simp only [Stage.next] at went
      split at went
      · rename_i same
        cases went
        exact .finds same
      · rename_i other
        cases went
        exact .misses other
  | found uid nr valid =>
      cases went
      exact .reads
  | counting uid nr valid count =>
      cases went
      exact .counts

section Moves

variable {Thread : Type} [DecidableEq Thread] {tasks : Tasks Thread} {thread : Thread}
  {event : Option Event}

theorem act_next_ok {next : Tasks Thread}
    (acted : (Move.next thread).act tasks = .ok (event, next)) :
    ∃ after later, Goes tasks.table (tasks.stage thread) event after later ∧
      next = tasks.moved after thread later := by
  rw [Move.act] at acted
  cases went : (tasks.stage thread).next tasks.table with
  | error pause =>
      rw [went] at acted
      cases acted
  | ok out =>
      rw [went] at acted
      cases acted
      exact ⟨_, _, goes_of_next went, rfl⟩

theorem act_enter_ok {request : Request} {next : Tasks Thread}
    (acted : (Move.enter thread request).act tasks = .ok (event, next)) :
    tasks.stage thread = .idle ∧ event = none ∧
      next = tasks.moved (request.1.ready tasks.table) thread (.entered request) := by
  rw [Move.act] at acted
  split at acted
  · cases acted
    exact ⟨‹_›, rfl, rfl⟩
  · cases acted

end Moves

theorem onRow_critical {call : Call} (locks : call.Locks) (row : SysTable) :
    call.onRow row =
      ((call.critical row).2, (call.critical row).1.foldl SysTable.store row) := by
  cases call with
  | block uid proc nr =>
      have value : (Call.block uid proc nr).onRow row = blockRow proc nr row := if_pos locks
      rw [value, blockRow, Call.critical]
      split <;> rfl
  | unblock uid proc nr =>
      have value : (Call.unblock uid proc nr).onRow row = unblockRow proc nr row := if_pos locks
      rw [value, unblockRow, Call.critical]
      split <;> rfl
  | count uid proc nr =>
      rw [Call.onRow, if_pos locks.1, if_pos locks.2, countRow, Call.critical]
      split <;> rfl
  | findder uid nr => exact locks.elim

theorem lockAfter_locks {call : Call} (locks : call.Locks) (lock : Mutex) :
    call.lockAfter lock = lock.cycle := by
  cases call with
  | block uid proc nr => exact if_pos locks
  | unblock uid proc nr => exact if_pos locks
  | count uid proc nr => exact if_pos locks
  | findder uid nr => exact locks.elim

theorem refused_or_locks (call : Call) :
    call.Locks ∨ (∃ uid nr, call = .findder uid nr) ∨
      ∃ answer, call.refusal = some answer ∧ (∀ row, call.onRow row = (answer, row)) ∧
        ∀ lock, call.lockAfter lock = lock := by
  cases call with
  | block uid proc nr =>
      by_cases permitted : Permitted uid proc
      · exact Or.inl permitted
      · exact Or.inr (Or.inr ⟨-EPERM, if_neg permitted, fun row => if_neg permitted,
          fun lock => if_neg permitted⟩)
  | unblock uid proc nr =>
      by_cases permitted : Permitted uid proc
      · exact Or.inl permitted
      · exact Or.inr (Or.inr ⟨-EPERM, if_neg permitted, fun row => if_neg permitted,
          fun lock => if_neg permitted⟩)
  | count uid proc nr =>
      by_cases root : uid = 0
      · by_cases positive : 0 < proc
        · exact Or.inl ⟨root, positive⟩
        · refine Or.inr (Or.inr ⟨-EINVAL, ?_, fun row => ?_, fun lock => ?_⟩)
          · rw [Call.refusal, if_pos root, if_neg positive]
          · rw [Call.onRow, if_pos root, if_neg positive]
          · exact if_neg (fun both => positive both.2)
      · exact Or.inr (Or.inr ⟨-EPERM, if_neg root, fun row => if_neg root,
          fun lock => if_neg (fun both => root both.1)⟩)
  | findder uid nr => exact Or.inr (Or.inl ⟨uid, nr, rfl⟩)

theorem withRow_withRow {table : State} {nr : UInt64} {row other : SysTable} {lock later : Mutex} :
    (table.withRow nr row lock).withRow nr other later = table.withRow nr other later := by
  unfold State.withRow
  dsimp only
  rw [Function.update_idem]

theorem foldl_store {table : State} {nr : UInt64} (bound : nr.toNat < entries)
    (stores : List Store) :
    stores.foldl (fun table store => table.store nr store) table =
      table.withRow nr (stores.foldl SysTable.store (table.row nr)) table.lockTable := by
  induction stores generalizing table with
  | nil => exact (withRow_self table nr table.lockTable).symm
  | cons store rest ih =>
      have stored : (table.store nr store).row nr = (table.row nr).store store := by
        rw [State.store, withRow_row bound bound, if_pos rfl]
      rw [List.foldl_cons, List.foldl_cons, ih, stored, State.store, withRow_withRow]
      rfl

section Alone

variable {Thread : Type} [DecidableEq Thread] {tasks : Tasks Thread} {thread : Thread}
  {request : Request} {table later : State} {stage next : Stage} {event : Option Event}

theorem tasks_moved_stage : (tasks.moved table thread stage).stage thread = stage := by
  simp [Tasks.moved]

theorem act_next (went : stage.next table = .ok (event, later, next)) :
    (Move.next thread).act (tasks.moved table thread stage) =
      .ok (event, tasks.moved later thread next) := by
  rw [Move.act, tasks_moved_stage]
  dsimp only [Tasks.moved]
  rw [went]
  dsimp only
  rw [Function.update_idem]

/-- The thread takes its steps one after the other, and the last one answers. -/
inductive Completes (request : Request) (answer : Int64) : State → Stage → State → Prop where
  | last {table later : State} {stage : Stage} {event : Event}
      (went : stage.next table = .ok (some event, later, .idle))
      (answers : event.answer = some (request, answer)) :
      Completes request answer table stage later
  | step {table between later : State} {stage next : Stage} {event : Option Event}
      (went : stage.next table = .ok (event, between, next))
      (rest : Completes request answer between next later) :
      Completes request answer table stage later

theorem Completes.exec (tasks : Tasks Thread) (thread : Thread) {answer : Int64}
    (completes : Completes request answer table stage later) :
    ∃ moves log event, event.answer = some (request, answer) ∧
      exec Move.act (tasks.moved table thread stage) (moves ++ [.next thread]) =
        .ok (log ++ [(.next thread, some event)], tasks.moved later thread .idle) := by
  induction completes with
  | last went answers =>
      exact ⟨[], [], _, answers, exec_concat_ok.mpr ⟨[], _, _, rfl, act_next went, rfl⟩⟩
  | step went _ ih =>
      obtain ⟨moves, log, event, answers, ran⟩ := ih
      exact ⟨.next thread :: moves, (.next thread, _) :: log, event, answers,
        exec_cons_ok.mpr ⟨_, _, _, act_next went, ran, rfl⟩⟩

theorem completes_storing (request : Request) (table : State) (answer : Int64)
    (stores : List Store) :
    Completes request answer table (.storing request stores answer)
      (mutexUnlock (stores.foldl (fun table store => table.store request.1.nr store) table)) := by
  induction stores generalizing table with
  | nil => exact .last rfl rfl
  | cons store rest ih => exact .step rfl (ih _)

theorem completes_locks (locks : request.1.Locks) (idle : Idle table) :
    Completes request (request.1.onRow (table.row request.1.nr)).1 table (.entered request)
      (table.withRow request.1.nr (request.1.onRow (table.row request.1.nr)).2
        (request.1.lockAfter table.lockTable)) := by
  have took : (Stage.entered request).next table =
      .ok (some (.took request), { table with lockTable := table.lockTable.take },
        .holding request) := by
    have taken : lockStep request table =
        .ok (some (.took request), { table with lockTable := table.lockTable.take },
          .holding request) := by
      rw [lockStep, locks.refusal]
      exact if_neg (Bool.eq_false_iff.mp idle)
    rcases request with ⟨call, valid⟩
    cases call with
    | block uid proc nr => exact taken
    | unblock uid proc nr => exact taken
    | count uid proc nr => exact taken
    | findder uid nr => exact locks.elim
  have stored := completes_storing request { table with lockTable := table.lockTable.take }
    (request.1.critical (table.row request.1.nr)).2 (request.1.critical (table.row request.1.nr)).1
  rw [foldl_store request.2.2] at stored
  rw [lockAfter_locks locks, onRow_critical locks]
  exact .step took (.step rfl stored)

theorem completes_hook {uid : Int32} {nr : UInt64} (valid : (Call.findder uid nr).Valid) :
    Completes ⟨.findder uid nr, valid⟩ (findderRow uid nr (table.row nr)).1 table
      (.entered ⟨.findder uid nr, valid⟩)
      (table.withRow nr (findderRow uid nr (table.row nr)).2 table.lockTable) := by
  unfold findderRow
  by_cases call : (table.row nr).call = nr
  · have asks : (Stage.entered ⟨.findder uid nr, valid⟩).next table =
        .ok (none, table, .matched uid nr valid) := if_pos call
    by_cases slot : (table.row nr).hash (slotOf uid) = uid
    · have lists : (table.row nr).Lists uid nr := ⟨call, slot⟩
      rw [if_pos lists]
      exact .step asks (.step (if_pos slot) (.step rfl (.last rfl rfl)))
    · have lacks : ¬ (table.row nr).Lists uid nr := fun lists => slot lists.2
      rw [if_neg lacks, withRow_self]
      exact .step asks (.last (if_neg slot) rfl)
  · have lacks : ¬ (table.row nr).Lists uid nr := fun lists => call lists.1
    rw [if_neg lacks, withRow_self]
    exact .last (if_neg call) rfl

/-- The steps of a call, taken without a step of another, are the call. -/
theorem steps_of_call {answer : Int64} {after : State} (idle : tasks.stage thread = .idle)
    (free : Idle tasks.table) (ran : step request tasks.table = .ok (answer, after)) :
    ∃ moves log event, event.answer = some (request, answer) ∧
      exec Move.act tasks (.enter thread request :: moves ++ [.next thread]) =
        .ok (log ++ [(.next thread, some event)], tasks.moved after thread .idle) := by
  have entered : (Move.enter thread request).act tasks =
      .ok (none, tasks.moved (request.1.ready tasks.table) thread (.entered request)) := by
    rw [Move.act, idle]
  have lock := ready_lockTable request.1 tasks.table
  have ready : Idle (request.1.ready tasks.table) := (congrArg Mutex.locked lock).trans free
  rw [step_eq request free] at ran
  obtain ⟨rfl, rfl⟩ := Prod.mk.inj (Except.ok.inj ran)
  have completes : Completes request (request.1.onRow (request.1.found tasks.table)).1
      (request.1.ready tasks.table) (.entered request)
      ((request.1.ready tasks.table).withRow request.1.nr
        (request.1.onRow (request.1.found tasks.table)).2
        (request.1.lockAfter tasks.table.lockTable)) := by
    rw [← lock]
    rcases refused_or_locks request.1 with locks | ⟨uid, nr, hook⟩ | ⟨value, refusal, row, kept⟩
    · exact completes_locks locks ready
    · rcases request with ⟨call, valid⟩
      subst hook
      exact completes_hook valid
    · rw [row, kept]
      dsimp only
      rw [Call.found, withRow_self]
      have answered (table : State) : (Stage.entered request).next table =
          .ok (some (.answered request value), table, .idle) := by
        rcases request with ⟨call, valid⟩
        cases call with
        | block uid proc nr => simp only [Stage.next, lockStep, refusal]
        | unblock uid proc nr => simp only [Stage.next, lockStep, refusal]
        | count uid proc nr => simp only [Stage.next, lockStep, refusal]
        | findder uid nr => cases refusal
      exact .last (answered _) rfl
  obtain ⟨moves, log, event, answers, later⟩ := completes.exec tasks thread
  exact ⟨moves, (.enter thread request, none) :: log, event, answers,
    exec_cons_ok.mpr ⟨none, _, _, entered, later, rfl⟩⟩

end Alone

end CS421.Sandbox
