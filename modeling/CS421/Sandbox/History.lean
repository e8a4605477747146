/-
Runs of valid calls on the sandbox table, and what their history says about a
pair of a uid and a system call number.

A block of a pair stands from the call that answered it with 0 until an unblock
of the same pair is answered with 0. The definitions here read the answers
only; the table is compared with them in the modules that follow.
-/

import CS421.Runs
import CS421.Sandbox.Rows

set_option autoImplicit false

namespace CS421.Sandbox

open Runs

def step : Machine State Request Int64 Fault := fun request => perform request.1

abbrev Log := History Request Int64

/-- The hook answers 1 for the pair. -/
def Blocked (state : State) (uid : Int32) (nr : UInt64) : Prop :=
  ∃ next, findder getHashs uid nr state = .ok (1, next)

theorem blocked_iff {state : State} {uid : Int32} {nr : UInt64}
    (nonneg : 0 ≤ uid) (bound : nr.toNat < entries) :
    Blocked state uid nr ↔ (state.row nr).Lists uid nr := by
  unfold Blocked
  rw [findder_valid nonneg bound]
  by_cases lists : (state.row nr).Lists uid nr
  · rw [if_pos lists]
    exact iff_of_true ⟨_, rfl⟩ lists
  · rw [if_neg lists]
    refine iff_of_false ?_ lists
    intro ⟨next, same⟩
    have answers : (0 : Int32) = 1 := congrArg Prod.fst (Except.ok.inj same)
    exact absurd answers (by decide)

def standingAfter (key : Int32) (nr : UInt64) (before : Bool) : Request × Int64 → Bool
  | (⟨.block _ proc number, _⟩, answer) =>
      before || (proc == key && number == nr && answer == 0)
  | (⟨.unblock _ proc number, _⟩, answer) =>
      before && !(proc == key && number == nr && answer == 0)
  | _ => before

/-- A block of the pair was answered with 0, and no unblock of it since. -/
def Standing (key : Int32) (nr : UInt64) (log : Log) : Prop :=
  log.foldl (standingAfter key nr) false = true

instance (key : Int32) (nr : UInt64) (log : Log) : Decidable (Standing key nr log) :=
  inferInstanceAs (Decidable (_ = true))

theorem not_standing_nil (key : Int32) (nr : UInt64) : ¬ Standing key nr [] :=
  Bool.false_ne_true

section Standing

variable {key proc : Int32} {nr number : UInt64} {log : Log} {uid : UInt32} {answer : Int64}

theorem standing_block {valid : (Call.block uid proc number).Valid} :
    Standing key nr (log ++ [(⟨.block uid proc number, valid⟩, answer)]) ↔
      Standing key nr log ∨ (proc = key ∧ number = nr ∧ answer = 0) := by
  simp [Standing, standingAfter, and_assoc]

theorem standing_unblock {valid : (Call.unblock uid proc number).Valid} :
    Standing key nr (log ++ [(⟨.unblock uid proc number, valid⟩, answer)]) ↔
      Standing key nr log ∧ ¬(proc = key ∧ number = nr ∧ answer = 0) := by
  simp only [Standing, standingAfter, List.foldl_append, List.foldl_cons, List.foldl_nil,
    Bool.and_eq_true, Bool.not_eq_true', Bool.eq_false_iff, ne_eq, beq_iff_eq, and_assoc]

theorem standing_count {valid : (Call.count uid proc number).Valid} :
    Standing key nr (log ++ [(⟨.count uid proc number, valid⟩, answer)]) ↔
      Standing key nr log := by
  simp [Standing, standingAfter]

theorem standing_findder {valid : (Call.findder proc number).Valid} :
    Standing key nr (log ++ [(⟨.findder proc number, valid⟩, answer)]) ↔
      Standing key nr log := by
  simp [Standing, standingAfter]

end Standing

theorem Standing.valid {key : Int32} {nr : UInt64} {log : Log} (stands : Standing key nr log) :
    0 ≤ key ∧ nr.toNat < entries := by
  induction log using List.reverseRecOn with
  | nil => exact absurd stands (not_standing_nil key nr)
  | append_singleton log event ih =>
      rcases event with ⟨⟨call, valid⟩, answer⟩
      cases call with
      | block uid proc number =>
          rcases standing_block.mp stands with earlier | ⟨rfl, rfl, _⟩
          · exact ih earlier
          · exact valid
      | unblock uid proc number => exact ih (standing_unblock.mp stands).1
      | count uid proc number => exact ih (standing_count.mp stands)
      | findder uid number => exact ih (standing_findder.mp stands)

def Call.found (call : Call) (state : State) : SysTable := (call.ready state).row call.nr

theorem step_eq (request : Request) {state : State} (idle : Idle state) :
    step request state = .ok
      ((request.1.onRow (request.1.found state)).1,
        (request.1.ready state).withRow request.1.nr (request.1.onRow (request.1.found state)).2
          (request.1.lockAfter state.lockTable)) :=
  perform_valid request.2 idle

theorem lockAfter_idle (call : Call) {lock : Mutex} (free : lock.locked = false) :
    (call.lockAfter lock).locked = false := by
  cases call with
  | block uid proc nr => simp only [Call.lockAfter]; split <;> first | rfl | exact free
  | unblock uid proc nr => simp only [Call.lockAfter]; split <;> first | rfl | exact free
  | count uid proc nr => simp only [Call.lockAfter]; split <;> first | rfl | exact free
  | findder uid nr => exact free

theorem onRow_count (uid : UInt32) (proc : Int32) (nr : UInt64) (row : SysTable) :
    ((Call.count uid proc nr).onRow row).2 = row := by
  simp only [Call.onRow, countRow]
  split
  · split
    · split <;> rfl
    · rfl
  · rfl

/-- The table `next` is `base` with the entry of `nr` rewritten, as every entry
in bounds shows. -/
structure Writes (base : State) (nr : UInt64) (row : SysTable) (next : State) : Prop where
  idle : Idle next
  started : next.started = base.started
  own : next.row nr = row
  other : ∀ number, number.toNat < entries → number ≠ nr → next.row number = base.row number

inductive Effect (state next : State) : Request → Int64 → Prop where
  | accepted {uid : UInt32} {proc : Int32} {nr : UInt64}
      (valid : (Call.block uid proc nr).Valid) (permitted : Permitted uid proc)
      (accepts : ¬ ((startUp state).row nr).Refuses proc)
      (writes : Writes (startUp state) nr (((startUp state).row nr).accepted proc nr) next) :
      Effect state next ⟨.block uid proc nr, valid⟩ 0
  | repeated {uid : UInt32} {proc : Int32} {nr : UInt64}
      (valid : (Call.block uid proc nr).Valid) (permitted : Permitted uid proc)
      (refuses : ((startUp state).row nr).Refuses proc)
      (writes : Writes (startUp state) nr ((startUp state).row nr).repeated next) :
      Effect state next ⟨.block uid proc nr, valid⟩ (-EEXIST)
  | blockDenied {uid : UInt32} {proc : Int32} {nr : UInt64}
      (valid : (Call.block uid proc nr).Valid) (denied : ¬ Permitted uid proc)
      (writes : Writes (startUp state) nr ((startUp state).row nr) next) :
      Effect state next ⟨.block uid proc nr, valid⟩ (-EPERM)
  | released {uid : UInt32} {proc : Int32} {nr : UInt64}
      (valid : (Call.unblock uid proc nr).Valid) (permitted : Permitted uid proc)
      (lists : ((startUp state).row nr).Lists proc nr)
      (writes : Writes (startUp state) nr (((startUp state).row nr).released proc) next) :
      Effect state next ⟨.unblock uid proc nr, valid⟩ 0
  | absent {uid : UInt32} {proc : Int32} {nr : UInt64}
      (valid : (Call.unblock uid proc nr).Valid) (permitted : Permitted uid proc)
      (lacks : ¬ ((startUp state).row nr).Lists proc nr)
      (writes : Writes (startUp state) nr ((startUp state).row nr) next) :
      Effect state next ⟨.unblock uid proc nr, valid⟩ (-EEXIST)
  | unblockDenied {uid : UInt32} {proc : Int32} {nr : UInt64}
      (valid : (Call.unblock uid proc nr).Valid) (denied : ¬ Permitted uid proc)
      (writes : Writes (startUp state) nr ((startUp state).row nr) next) :
      Effect state next ⟨.unblock uid proc nr, valid⟩ (-EPERM)
  | asked {uid : UInt32} {proc : Int32} {nr : UInt64} {answer : Int64}
      (valid : (Call.count uid proc nr).Valid)
      (writes : Writes (startUp state) nr ((startUp state).row nr) next) :
      Effect state next ⟨.count uid proc nr, valid⟩ answer
  | hit {uid : Int32} {nr : UInt64} (valid : (Call.findder uid nr).Valid)
      (lists : (state.row nr).Lists uid nr)
      (writes : Writes state nr (state.row nr).reported next) :
      Effect state next ⟨.findder uid nr, valid⟩ 1
  | miss {uid : Int32} {nr : UInt64} (valid : (Call.findder uid nr).Valid)
      (lacks : ¬ (state.row nr).Lists uid nr)
      (writes : Writes state nr (state.row nr) next) :
      Effect state next ⟨.findder uid nr, valid⟩ 0

private theorem writes_withRow {base : State} {nr : UInt64} {row : SysTable} {lock : Mutex}
    (bound : nr.toNat < entries) (free : lock.locked = false) :
    Writes base nr row (base.withRow nr row lock) := by
  refine ⟨free, rfl, ?_, ?_⟩
  · rw [withRow_row bound bound, if_pos rfl]
  · intro number within apart
    rw [withRow_row bound within, if_neg apart]

theorem effect_of_step {request : Request} {state next : State} {answer : Int64}
    (idle : Idle state) (ran : step request state = .ok (answer, next)) :
    Effect state next request answer := by
  rw [step_eq request idle] at ran
  obtain ⟨rfl, rfl⟩ := Prod.mk.inj (Except.ok.inj ran)
  rcases request with ⟨call, valid⟩
  have writes : ∀ row, Writes (call.ready state) call.nr row
      ((call.ready state).withRow call.nr row (call.lockAfter state.lockTable)) :=
    fun row => writes_withRow valid.2 (lockAfter_idle call idle)
  cases call with
  | block uid proc nr =>
      by_cases permitted : Permitted uid proc
      · have value : ∀ row, (Call.block uid proc nr).onRow row = blockRow proc nr row :=
          fun row => if_pos permitted
        by_cases refuses : ((startUp state).row nr).Refuses proc
        · have repeats : blockRow proc nr ((startUp state).row nr) = (-EEXIST, _) := if_pos refuses
          rw [value, Call.found, Call.ready, Call.nr, repeats]
          exact .repeated valid permitted refuses (writes _)
        · have accepts : blockRow proc nr ((startUp state).row nr) = (0, _) := if_neg refuses
          rw [value, Call.found, Call.ready, Call.nr, accepts]
          exact .accepted valid permitted refuses (writes _)
      · have value : ∀ row, (Call.block uid proc nr).onRow row = (-EPERM, row) :=
          fun row => if_neg permitted
        rw [value]
        exact .blockDenied valid permitted (writes _)
  | unblock uid proc nr =>
      by_cases permitted : Permitted uid proc
      · have value : ∀ row, (Call.unblock uid proc nr).onRow row = unblockRow proc nr row :=
          fun row => if_pos permitted
        by_cases lists : ((startUp state).row nr).Lists proc nr
        · have releases : unblockRow proc nr ((startUp state).row nr) = (0, _) := if_pos lists
          rw [value, Call.found, Call.ready, Call.nr, releases]
          exact .released valid permitted lists (writes _)
        · have refuses : unblockRow proc nr ((startUp state).row nr) = (-EEXIST, _) := if_neg lists
          rw [value, Call.found, Call.ready, Call.nr, refuses]
          exact .absent valid permitted lists (writes _)
      · have value : ∀ row, (Call.unblock uid proc nr).onRow row = (-EPERM, row) :=
          fun row => if_neg permitted
        rw [value]
        exact .unblockDenied valid permitted (writes _)
  | count uid proc nr =>
      rw [onRow_count]
      exact .asked valid (writes _)
  | findder uid nr =>
      by_cases lists : (state.row nr).Lists uid nr
      · have value : (Call.findder uid nr).onRow (state.row nr) = (1, _) := if_pos lists
        rw [Call.found, Call.ready, Call.nr, value]
        exact .hit valid lists (writes _)
      · have value : (Call.findder uid nr).onRow (state.row nr) = (0, _) := if_neg lists
        rw [Call.found, Call.ready, Call.nr, value]
        exact .miss valid lists (writes _)

theorem Effect.initialised {state next : State} {request : Request} {answer : Int64}
    (effect : Effect state next request answer) (initialised : state.started ≠ 0) :
    Idle next ∧ next.started ≠ 0 := by
  have ready := startUp_of_started initialised
  cases effect <;>
    rename_i writes <;>
    first
    | rw [ready] at writes
      exact ⟨writes.idle, writes.started ▸ initialised⟩
    | exact ⟨writes.idle, writes.started ▸ initialised⟩

inductive Change (log : Log) (state next : State) : Request → Int64 → Prop where
  | accepted {uid : UInt32} {proc : Int32} {nr : UInt64}
      (valid : (Call.block uid proc nr).Valid) (permitted : Permitted uid proc)
      (accepts : ¬ ((startUp state).row nr).Refuses proc)
      (writes : Writes (startUp state) nr (((startUp state).row nr).accepted proc nr) next) :
      Change log state next ⟨.block uid proc nr, valid⟩ 0
  | repeated {uid : UInt32} {proc : Int32} {nr : UInt64}
      (valid : (Call.block uid proc nr).Valid) (permitted : Permitted uid proc)
      (refuses : ((startUp state).row nr).Refuses proc)
      (writes : Writes (startUp state) nr ((startUp state).row nr).repeated next) :
      Change log state next ⟨.block uid proc nr, valid⟩ (-EEXIST)
  | released {uid : UInt32} {proc : Int32} {nr : UInt64}
      (valid : (Call.unblock uid proc nr).Valid) (permitted : Permitted uid proc)
      (lists : ((startUp state).row nr).Lists proc nr)
      (writes : Writes (startUp state) nr (((startUp state).row nr).released proc) next) :
      Change log state next ⟨.unblock uid proc nr, valid⟩ 0
  | quiet {request : Request} {answer : Int64} {base : State} {nr : UInt64} {row : SysTable}
      (from_state : base = state ∨ base = startUp state) (writes : Writes base nr row next)
      (call : row.call = (base.row nr).call) (hash : row.hash = (base.row nr).hash)
      (stands : ∀ key number,
        Standing key number (log ++ [(request, answer)]) ↔ Standing key number log) :
      Change log state next request answer

theorem Effect.change {state next : State} {request : Request} {answer : Int64}
    (effect : Effect state next request answer) (log : Log) :
    Change log state next request answer := by
  cases effect with
  | accepted valid permitted accepts writes => exact .accepted valid permitted accepts writes
  | repeated valid permitted refuses writes => exact .repeated valid permitted refuses writes
  | released valid permitted lists writes => exact .released valid permitted lists writes
  | blockDenied valid denied writes =>
      refine .quiet (Or.inr rfl) writes rfl rfl (fun key number => ?_)
      rw [standing_block]
      exact or_iff_left (fun new => absurd new.2.2 (by decide))
  | absent valid permitted lacks writes =>
      refine .quiet (Or.inr rfl) writes rfl rfl (fun key number => ?_)
      rw [standing_unblock]
      exact and_iff_left (fun this => absurd this.2.2 (by decide))
  | unblockDenied valid denied writes =>
      refine .quiet (Or.inr rfl) writes rfl rfl (fun key number => ?_)
      rw [standing_unblock]
      exact and_iff_left (fun this => absurd this.2.2 (by decide))
  | asked valid writes =>
      exact .quiet (Or.inr rfl) writes rfl rfl (fun key number => standing_count)
  | hit valid lists writes =>
      exact .quiet (Or.inl rfl) writes rfl rfl (fun key number => standing_findder)
  | miss valid lacks writes =>
      exact .quiet (Or.inl rfl) writes rfl rfl (fun key number => standing_findder)

theorem Writes.same {base next : State} {nr : UInt64} {row : SysTable}
    (writes : Writes base nr row next) (call : row.call = (base.row nr).call)
    (hash : row.hash = (base.row nr).hash) {number : UInt64} (bound : number.toNat < entries) :
    (next.row number).call = (base.row number).call ∧
      (next.row number).hash = (base.row number).hash := by
  by_cases own : number = nr
  · rw [own, writes.own]
    exact ⟨call, hash⟩
  · rw [writes.other number bound own]
    exact ⟨rfl, rfl⟩

theorem Writes.row_self {base next : State} {nr : UInt64} (writes : Writes base nr (base.row nr) next)
    {number : UInt64} (bound : number.toNat < entries) : next.row number = base.row number := by
  by_cases own : number = nr
  · rw [own, writes.own]
  · exact writes.other number bound own

theorem idle_of_step {request : Request} {state next : State} {answer : Int64}
    (idle : Idle state) (ran : step request state = .ok (answer, next)) : Idle next := by
  rw [step_eq request idle] at ran
  obtain ⟨rfl, rfl⟩ := Prod.mk.inj (Except.ok.inj ran)
  exact lockAfter_idle request.1 idle

end CS421.Sandbox
