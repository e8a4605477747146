/-
First use of the table by several callers at once.

The test of `started` and the initialisation stand before the lock. A caller
that has read 0 initialises the table whenever it comes to it, also when
another caller has initialised it before and has completed its own call.
-/

import CS421.Sandbox.History

set_option autoImplicit false

namespace CS421.Sandbox

open Runs

/-- The call opens with the test of `started`. The hook does not. -/
def Call.opens : Call → Bool
  | .block _ _ _ | .unblock _ _ _ | .count _ _ _ => true
  | .findder _ _ => false

/-- What a system call does after lines 44 to 49. -/
def Call.body : Call → State → Outcome
  | .block uid proc nr, state =>
      if uid == proc.toUInt32 then blockLocked proc nr state
      else if uid == 0 then blockLocked proc nr state
      else .ok (-EPERM, state)
  | .unblock uid proc nr, state =>
      if uid == proc.toUInt32 then unblockLocked proc nr state
      else if uid == 0 then unblockLocked proc nr state
      else .ok (-EPERM, state)
  | .count uid proc nr, state =>
      if uid == 0 then
        if proc != 0 && decide (proc > 0) then countLocked proc nr state
        else .ok (-EINVAL, state)
      else .ok (-EPERM, state)
  | .findder uid nr, state => perform (.findder uid nr) state

theorem ready_of_opens {call : Call} (opens : call.opens = true) (state : State) :
    call.ready state = startUp state := by
  cases call with
  | block uid proc nr => rfl
  | unblock uid proc nr => rfl
  | count uid proc nr => rfl
  | findder uid nr => cases opens

theorem ready_of_hook {call : Call} (hook : call.opens = false) (state : State) :
    call.ready state = state := by
  cases call with
  | block uid proc nr => cases hook
  | unblock uid proc nr => cases hook
  | count uid proc nr => cases hook
  | findder uid nr => rfl

theorem perform_eq_body (call : Call) (state : State) :
    perform call state = call.body (call.ready state) := by
  cases call with
  | block uid proc nr => rfl
  | unblock uid proc nr => rfl
  | count uid proc nr => rfl
  | findder uid nr => rfl

/-! ### Interleaved calls -/

inductive Phase where
  | idle
  | entered (request : Request)
  /-- `started` was read as 0. -/
  | mustInitalize (request : Request)
  | mustStart (request : Request)
  | ready (request : Request)

structure Callers (Thread : Type) where
  table : State
  phase : Thread → Phase

def bootCallers (Thread : Type) : Callers Thread := { table := boot, phase := fun _ => .idle }

/-- `read`, `initalize`, `start` and `run` are the steps (a) to (d) of a call. -/
inductive CallStep (Thread : Type) where
  | enter (thread : Thread) (request : Request)
  | read (thread : Thread)
  | initalize (thread : Thread)
  | start (thread : Thread)
  | run (thread : Thread)

inductive Halt where
  /-- The step is not the next one of the thread. -/
  | disabled
  | fault (fault : Fault)

section Steps

variable {Thread : Type} [DecidableEq Thread]

def Callers.moved (callers : Callers Thread) (table : State) (thread : Thread) (phase : Phase) :
    Callers Thread :=
  { table := table, phase := Function.update callers.phase thread phase }

def CallStep.act : Machine (Callers Thread) (CallStep Thread) (Option (Request × Int64)) Halt
  | .enter thread request, callers =>
      match callers.phase thread with
      | .idle =>
          let phase := if request.1.opens then .entered request else .ready request
          .ok (none, callers.moved callers.table thread phase)
      | _ => .error .disabled
  | .read thread, callers =>
      match callers.phase thread with
      | .entered request =>
          let phase :=
            if callers.table.started == 0 then .mustInitalize request else .ready request
          .ok (none, callers.moved callers.table thread phase)
      | _ => .error .disabled
  | .initalize thread, callers =>
      match callers.phase thread with
      | .mustInitalize request =>
          .ok (none, callers.moved (initalizeHash callers.table) thread (.mustStart request))
      | _ => .error .disabled
  | .start thread, callers =>
      match callers.phase thread with
      | .mustStart request =>
          .ok (none, callers.moved { callers.table with started := 1 } thread (.ready request))
      | _ => .error .disabled
  | .run thread, callers =>
      match callers.phase thread with
      | .ready request =>
          match request.1.body callers.table with
          | .error fault => .error (.fault fault)
          | .ok (answer, table) => .ok (some (request, answer), callers.moved table thread .idle)
      | _ => .error .disabled

abbrev CallLog (Thread : Type) := History (CallStep Thread) (Option (Request × Int64))

inductive Taken (callers next : Callers Thread) :
    CallStep Thread → Option (Request × Int64) → Prop where
  | enter {thread : Thread} {request : Request} (phase : callers.phase thread = .idle)
      (moved : next = callers.moved callers.table thread
        (if request.1.opens then .entered request else .ready request)) :
      Taken callers next (.enter thread request) none
  | read {thread : Thread} {request : Request} (phase : callers.phase thread = .entered request)
      (moved : next = callers.moved callers.table thread
        (if callers.table.started == 0 then .mustInitalize request else .ready request)) :
      Taken callers next (.read thread) none
  | initalize {thread : Thread} {request : Request}
      (phase : callers.phase thread = .mustInitalize request)
      (moved : next =
        callers.moved (initalizeHash callers.table) thread (.mustStart request)) :
      Taken callers next (.initalize thread) none
  | start {thread : Thread} {request : Request} (phase : callers.phase thread = .mustStart request)
      (moved : next =
        callers.moved { callers.table with started := 1 } thread (.ready request)) :
      Taken callers next (.start thread) none
  | run {thread : Thread} {request : Request} {answer : Int64} {table : State}
      (phase : callers.phase thread = .ready request)
      (ran : request.1.body callers.table = .ok (answer, table))
      (moved : next = callers.moved table thread .idle) :
      Taken callers next (.run thread) (some (request, answer))

theorem taken_of_act {callers next : Callers Thread} {step : CallStep Thread}
    {answer : Option (Request × Int64)} (acted : step.act callers = .ok (answer, next)) :
    Taken callers next step answer := by
  cases step with
  | enter thread request =>
      rw [CallStep.act] at acted
      split at acted
      · cases acted
        exact .enter ‹_› rfl
      · cases acted
  | read thread =>
      rw [CallStep.act] at acted
      split at acted
      · cases acted
        exact .read ‹_› rfl
      · cases acted
  | initalize thread =>
      rw [CallStep.act] at acted
      split at acted
      · cases acted
        exact .initalize ‹_› rfl
      · cases acted
  | start thread =>
      rw [CallStep.act] at acted
      split at acted
      · cases acted
        exact .start ‹_› rfl
      · cases acted
  | run thread =>
      rw [CallStep.act] at acted
      split at acted
      · rename_i request ready
        cases called : request.1.body callers.table with
        | error fault =>
            rw [called] at acted
            cases acted
        | ok out =>
            rw [called] at acted
            cases acted
            exact .run ready called rfl
      · cases acted

section Alone

variable {callers : Callers Thread} {thread : Thread} {request : Request} {table later : State}
  {phase next : Phase}

theorem moved_phase : (callers.moved table thread phase).phase thread = phase := by
  simp [Callers.moved]

theorem moved_moved :
    (callers.moved table thread phase).moved later thread next = callers.moved later thread next := by
  unfold Callers.moved
  dsimp only
  rw [Function.update_idem]

theorem moved_idle (idle : callers.phase thread = .idle) :
    callers.moved table thread .idle = { callers with table := table } := by
  rw [Callers.moved, ← idle, Function.update_eq_self]

theorem act_enter (idle : callers.phase thread = .idle) :
    (CallStep.enter thread request).act callers =
      .ok (none, callers.moved callers.table thread
        (if request.1.opens then .entered request else .ready request)) := by
  rw [CallStep.act, idle]

theorem act_read :
    (CallStep.read thread).act (callers.moved table thread (.entered request)) =
      .ok (none, callers.moved table thread
        (if table.started == 0 then .mustInitalize request else .ready request)) := by
  rw [CallStep.act, moved_phase]
  dsimp only
  rw [moved_moved]
  rfl

theorem act_initalize :
    (CallStep.initalize thread).act (callers.moved table thread (.mustInitalize request)) =
      .ok (none, callers.moved (initalizeHash table) thread (.mustStart request)) := by
  rw [CallStep.act, moved_phase]
  dsimp only
  rw [moved_moved]
  rfl

theorem act_start :
    (CallStep.start thread).act (callers.moved table thread (.mustStart request)) =
      .ok (none, callers.moved { table with started := 1 } thread (.ready request)) := by
  rw [CallStep.act, moved_phase]
  dsimp only
  rw [moved_moved]
  rfl

theorem act_run {answer : Int64} (idle : callers.phase thread = .idle)
    (ran : request.1.body table = .ok (answer, later)) :
    (CallStep.run thread).act (callers.moved table thread (.ready request)) =
      .ok (some (request, answer), { callers with table := later }) := by
  rw [CallStep.act, moved_phase]
  dsimp only
  rw [Callers.moved, ran]
  dsimp only
  rw [← moved_idle idle]
  exact congrArg (fun moved => Except.ok (some (request, answer), moved)) moved_moved

theorem exec_step {step : CallStep Thread} {rest : List (CallStep Thread)}
    {before after final : Callers Thread} {answer : Option (Request × Int64)} {log : CallLog Thread}
    (stepped : step.act before = .ok (answer, after))
    (later : exec CallStep.act after rest = .ok (log, final)) :
    exec CallStep.act before (step :: rest) = .ok ((step, answer) :: log, final) :=
  exec_cons_ok.mpr ⟨answer, after, log, stepped, later, rfl⟩

theorem steps_of_perform {answer : Int64} {after : State} (idle : callers.phase thread = .idle)
    (ran : perform request.1 callers.table = .ok (answer, after)) :
    ∃ steps log, exec CallStep.act callers steps =
      .ok (log, { callers with table := after }) := by
  rw [perform_eq_body] at ran
  have entered : (CallStep.enter thread request).act callers = _ := act_enter idle
  cases opens : request.1.opens with
  | false =>
      rw [ready_of_hook opens] at ran
      rw [opens] at entered
      exact ⟨_, _, exec_step entered (exec_step (act_run idle ran) exec_nil)⟩
  | true =>
      rw [ready_of_opens opens, startUp] at ran
      rw [opens] at entered
      have read : (CallStep.read thread).act
          (callers.moved callers.table thread (.entered request)) = _ := act_read
      by_cases unset : (callers.table.started == 0) = true
      · rw [if_pos unset] at ran read
        exact ⟨_, _, exec_step entered (exec_step read (exec_step act_initalize
          (exec_step act_start (exec_step (act_run idle ran) exec_nil))))⟩
      · rw [if_neg unset] at ran read
        exact ⟨_, _, exec_step entered (exec_step read (exec_step (act_run idle ran) exec_nil))⟩

end Alone

end Steps

/-! ### Accepted blocks -/

section Blocks

variable {Thread : Type}

def armedAfter (key : Int32) (nr : UInt64) (before : Bool) :
    CallStep Thread × Option (Request × Int64) → Bool
  | (_, some (⟨.block _ proc number, _⟩, answer)) =>
      if number = nr then
        if answer = 0 then proc == key || (before && slotOf proc != slotOf key)
        else if answer = -EEXIST then false
        else before
      else before
  | (_, some (⟨.unblock _ _ number, _⟩, answer)) => before && !(number == nr && answer == 0)
  | _ => before

/-- A block of the pair has answered 0, and since then no call on the number has
changed what it stored: no accepted unblock, no repeated block, and no block of
another uid in the same slot. -/
def Armed (key : Int32) (nr : UInt64) (log : CallLog Thread) : Prop :=
  log.foldl (armedAfter key nr) false = true

instance (key : Int32) (nr : UInt64) (log : CallLog Thread) : Decidable (Armed key nr log) :=
  inferInstanceAs (Decidable (_ = true))

section Armed

variable {key proc : Int32} {nr number : UInt64} {log : CallLog Thread} {step : CallStep Thread}
  {uid : UInt32} {answer : Int64}

theorem not_armed_nil : ¬ Armed key nr ([] : CallLog Thread) := Bool.false_ne_true

theorem armed_none : Armed key nr (log ++ [(step, none)]) ↔ Armed key nr log := by
  simp [Armed, armedAfter]

theorem armed_accepted {valid : (Call.block uid proc number).Valid} :
    Armed key nr (log ++ [(step, some (⟨.block uid proc number, valid⟩, 0))]) ↔
      if number = nr then proc = key ∨ (Armed key nr log ∧ slotOf proc ≠ slotOf key)
      else Armed key nr log := by
  by_cases own : number = nr
  · simp [Armed, armedAfter, own]
  · simp [Armed, armedAfter, own]

theorem armed_repeated {valid : (Call.block uid proc number).Valid} :
    Armed key nr (log ++ [(step, some (⟨.block uid proc number, valid⟩, -EEXIST))]) ↔
      number ≠ nr ∧ Armed key nr log := by
  have refused : ¬ (-EEXIST : Int64) = 0 := by decide
  by_cases own : number = nr
  · simp [Armed, armedAfter, own, refused]
  · simp [Armed, armedAfter, own]

theorem armed_denied {valid : (Call.block uid proc number).Valid} :
    Armed key nr (log ++ [(step, some (⟨.block uid proc number, valid⟩, -EPERM))]) ↔
      Armed key nr log := by
  have refused : ¬ (-EPERM : Int64) = 0 := by decide
  have other : ¬ (-EPERM : Int64) = -EEXIST := by decide
  simp [Armed, armedAfter, refused, other]

theorem armed_unblock {valid : (Call.unblock uid proc number).Valid} :
    Armed key nr (log ++ [(step, some (⟨.unblock uid proc number, valid⟩, answer))]) ↔
      Armed key nr log ∧ ¬ (number = nr ∧ answer = 0) := by
  simp only [Armed, armedAfter, List.foldl_append, List.foldl_cons, List.foldl_nil,
    Bool.and_eq_true, Bool.not_eq_true', Bool.eq_false_iff, ne_eq, beq_iff_eq]

theorem armed_count {valid : (Call.count uid proc number).Valid} :
    Armed key nr (log ++ [(step, some (⟨.count uid proc number, valid⟩, answer))]) ↔
      Armed key nr log := by
  simp [Armed, armedAfter]

theorem armed_findder {valid : (Call.findder proc number).Valid} :
    Armed key nr (log ++ [(step, some (⟨.findder proc number, valid⟩, answer))]) ↔
      Armed key nr log := by
  simp [Armed, armedAfter]

end Armed

def BlocksHeld (log : CallLog Thread) (table : State) : Prop :=
  ∀ key nr, Armed key nr log → (table.row nr).Lists key nr

def Shown (log : CallLog Thread) (table : State) : Prop :=
  ∀ key nr, Armed key nr log → nr.toNat < entries ∧ (table.row nr).Lists key nr

section Shown

variable {log later : CallLog Thread} {step : CallStep Thread} {table next : State}

theorem Shown.quiet (shown : Shown log table) {nr : UInt64} {row : SysTable}
    (writes : Writes table nr row next) (call : row.call = (table.row nr).call)
    (hash : row.hash = (table.row nr).hash)
    (armed : ∀ key number, Armed key number later → Armed key number log) : Shown later next := by
  intro key number stands
  obtain ⟨bound, lists⟩ := shown key number (armed key number stands)
  obtain ⟨sameCall, sameHash⟩ := writes.same call hash bound
  refine ⟨bound, ?_⟩
  unfold SysTable.Lists at lists ⊢
  rw [sameCall, sameHash]
  exact lists

theorem Shown.run (shown : Shown log table) {request : Request} {answer : Int64}
    (base : request.1.opens = true → startUp table = table)
    (effect : Effect table next request answer) :
    Shown (log ++ [(step, some (request, answer))]) next := by
  have elsewhere {nr : UInt64} {row : SysTable} (writes : Writes table nr row next) {key : Int32}
      {number : UInt64} (apart : nr ≠ number) (stands : Armed key number log) :
      number.toNat < entries ∧ (next.row number).Lists key number := by
    obtain ⟨bound, lists⟩ := shown key number stands
    rw [writes.other number bound apart.symm]
    exact ⟨bound, lists⟩
  cases effect with
  | @accepted uid proc nr valid permitted accepts writes =>
      rw [base rfl] at writes
      intro key number stands
      rw [armed_accepted] at stands
      by_cases own : nr = number
      · subst number
        rw [if_pos rfl] at stands
        refine ⟨valid.2, ?_⟩
        rw [writes.own]
        rcases stands with rfl | ⟨before, place⟩
        · exact ⟨rfl, Function.update_self _ _ _⟩
        · refine ⟨rfl, ?_⟩
          exact (Function.update_of_ne place.symm _ _).trans (shown key nr before).2.2
      · rw [if_neg own] at stands
        exact elsewhere writes own stands
  | repeated valid permitted refuses writes =>
      rw [base rfl] at writes
      intro key number stands
      obtain ⟨apart, before⟩ := armed_repeated.mp stands
      exact elsewhere writes apart before
  | released valid permitted lists writes =>
      rw [base rfl] at writes
      intro key number stands
      obtain ⟨before, apart⟩ := armed_unblock.mp stands
      exact elsewhere writes (fun same => apart ⟨same, rfl⟩) before
  | blockDenied valid denied writes =>
      rw [base rfl] at writes
      exact shown.quiet writes rfl rfl (fun _ _ => armed_denied.mp)
  | absent valid permitted lacks writes =>
      rw [base rfl] at writes
      exact shown.quiet writes rfl rfl (fun _ _ stands => (armed_unblock.mp stands).1)
  | unblockDenied valid denied writes =>
      rw [base rfl] at writes
      exact shown.quiet writes rfl rfl (fun _ _ stands => (armed_unblock.mp stands).1)
  | asked valid writes =>
      rw [base rfl] at writes
      exact shown.quiet writes rfl rfl (fun _ _ => armed_count.mp)
  | hit valid lists writes => exact shown.quiet writes rfl rfl (fun _ _ => armed_findder.mp)
  | miss valid lacks writes => exact shown.quiet writes rfl rfl (fun _ _ => armed_findder.mp)

end Shown

end Blocks

section Interleavings

variable {Thread : Type}

/-- The table is initialised only while no accepted block stands. -/
def InTime (log : CallLog Thread) (callers : Callers Thread) : CallStep Thread → Prop
  | .initalize thread =>
      (∃ request, callers.phase thread = .mustInitalize request) → ∀ key nr, ¬ Armed key nr log
  | _ => True

structure Guarded (log : CallLog Thread) (callers : Callers Thread) : Prop where
  idle : Idle callers.table
  shown : Shown log callers.table
  started : ∀ thread request, callers.phase thread = .ready request → request.1.opens = true →
    callers.table.started ≠ 0

theorem guarded_boot : Guarded [] (bootCallers Thread) where
  idle := rfl
  shown := fun _ _ stands => absurd stands not_armed_nil
  started := by
    intro thread request ready
    cases ready

variable [DecidableEq Thread]

theorem started_moved {callers : Callers Thread} {table : State} {thread : Thread} {phase : Phase}
    (before : ∀ other request, callers.phase other = .ready request → request.1.opens = true →
      table.started ≠ 0)
    (own : ∀ request, phase = .ready request → request.1.opens = true → table.started ≠ 0) :
    ∀ other request, (callers.moved table thread phase).phase other = .ready request →
      request.1.opens = true → (callers.moved table thread phase).table.started ≠ 0 := by
  intro other request ready opens
  by_cases same : other = thread
  · subst other
    rw [moved_phase] at ready
    exact own request ready opens
  · have kept : (callers.moved table thread phase).phase other = callers.phase other :=
      Function.update_of_ne same _ _
    rw [kept] at ready
    exact before other request ready opens

theorem guarded_step {log : CallLog Thread} {callers next : Callers Thread}
    {step : CallStep Thread} {answer : Option (Request × Int64)} (guarded : Guarded log callers)
    (inTime : InTime log callers step) (taken : Taken callers next step answer) :
    Guarded (log ++ [(step, answer)]) next := by
  obtain ⟨idle, shown, started⟩ := guarded
  have still : Shown (log ++ [(step, none)]) callers.table :=
    fun key nr stands => shown key nr (armed_none.mp stands)
  cases taken with
  | enter phase moved =>
      subst next
      refine ⟨idle, still, started_moved started ?_⟩
      intro own entered opens
      split at entered
      · cases entered
      · rename_i hook
        cases entered
        exact absurd opens hook
  | read phase moved =>
      subst next
      refine ⟨idle, still, started_moved started ?_⟩
      intro own entered opens
      split at entered
      · cases entered
      · rename_i set
        exact fun zero => set (beq_iff_eq.mpr zero)
  | @initalize thread request phase moved =>
      subst next
      have none := inTime ⟨request, phase⟩
      refine ⟨?_, ?_, started_moved started ?_⟩
      · exact (congrArg Mutex.locked (initalizeHash_lockTable callers.table)).trans idle
      · exact fun key nr stands => absurd (armed_none.mp stands) (none key nr)
      · intro own entered
        cases entered
  | start phase moved =>
      subst next
      have one : (1 : Int32) ≠ 0 := by decide
      exact ⟨idle, still, started_moved (fun _ _ _ _ => one) (fun _ _ _ => one)⟩
  | @run thread request answer table phase ran moved =>
      subst next
      have base (opens : request.1.opens = true) : startUp callers.table = callers.table :=
        startUp_of_started (started thread request phase opens)
      have ready : request.1.ready callers.table = callers.table := by
        cases opens : request.1.opens with
        | false => exact ready_of_hook opens callers.table
        | true => exact (ready_of_opens opens callers.table).trans (base opens)
      have performed : Sandbox.step request callers.table = .ok (answer, table) := by
        rw [Sandbox.step, perform_eq_body, ready, ran]
      have effect := effect_of_step idle performed
      refine ⟨idle_of_step idle performed, shown.run base effect, started_moved ?_ ?_⟩
      · intro other waiting waits opens
        exact (effect.initialised (started other waiting waits opens)).2
      · intro own entered
        cases entered

theorem late_reset {log : CallLog Thread} {callers : Callers Thread} {step : CallStep Thread}
    (guarded : Guarded log callers) (late : ¬ InTime log callers step) :
    ∃ answer next, step.act callers = .ok (answer, next) ∧
      ¬ BlocksHeld (log ++ [(step, answer)]) next.table := by
  cases step with
  | enter thread request => exact absurd trivial late
  | read thread => exact absurd trivial late
  | start thread => exact absurd trivial late
  | run thread => exact absurd trivial late
  | initalize thread =>
      obtain ⟨⟨request, unset⟩, some⟩ := Classical.not_imp.mp late
      obtain ⟨key, some⟩ := not_forall.mp some
      obtain ⟨nr, stands⟩ := not_forall_not.mp some
      refine ⟨none, callers.moved (initalizeHash callers.table) thread (.mustStart request), ?_, ?_⟩
      · rw [CallStep.act, unset]
      · intro kept
        have lists := kept key nr (armed_none.mpr stands)
        have reset : ((initalizeHash callers.table).row nr).call = 999 := by
          rw [State.row, initalizeHash_permList]
          rfl
        exact nr_ne_unset (guarded.shown key nr stands).1 (lists.1.symm.trans reset)

end Interleavings

/-- In every interleaving of the steps of any calls, the table keeps showing
every accepted block that stands exactly when no caller initialises it while one
stands. -/
theorem blocksHeld_iff_inTime (Thread : Type) [DecidableEq Thread] (steps : List (CallStep Thread)) :
    Always CallStep.act (bootCallers Thread) steps (fun log callers => BlocksHeld log callers.table) ↔
      EveryStep CallStep.act (bootCallers Thread) steps InTime := by
  apply always_iff_everyStep Guarded guarded_boot
  · intro log callers step answer next guarded inTime ran
    exact guarded_step guarded inTime (taken_of_act ran)
  · intro log callers guarded key nr stands
    exact (guarded.shown key nr stands).2
  · intro log callers step guarded late
    exact late_reset guarded late

/-- Two callers read `started` as 0, and the second one initialises the table
after the first one has blocked uid 5 from system call 59. -/
theorem second_caller_resets :
    ¬ Always CallStep.act (bootCallers Bool)
      [.enter false ⟨.block 5 5 59, by decide⟩, .enter true ⟨.block 7 7 60, by decide⟩,
        .read false, .read true, .initalize false, .start false, .run false, .initalize true]
      (fun log callers => BlocksHeld log callers.table) := by
  refine not_always_of_endsWith
    (fun log callers => decide (Armed 5 59 log ∧ ¬ (callers.table.row 59).Lists 5 59)) ?_
    (by decide +kernel)
  intro log callers check kept
  obtain ⟨stands, lacks⟩ := of_decide_eq_true check
  exact lacks (kept 5 59 stands)

end CS421.Sandbox
