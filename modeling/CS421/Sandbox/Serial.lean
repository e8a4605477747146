/-
What calls that run at the same time show of one another.

The sections follow one another in the order in which they take the lock, so the
table is always between two tables of a sequential run: the one before the
section under way and the one after it. The hook reads the entry without the
lock. A block stores the slot before `call` and an unblock stores `call` before
the slot, and that order is what makes the two reads of the hook agree with one
of the sequential tables.
-/

import CS421.Sandbox.Readers

set_option autoImplicit false

namespace CS421.Sandbox

open Runs

/-- The same but for `count`, which the hook stores without the lock. -/
def SysTable.Same (row other : SysTable) : Prop :=
  row.call = other.call ∧ row.hash = other.hash

def SameTables (table other : State) : Prop :=
  ∀ nr : UInt64, nr.toNat < entries → (table.row nr).Same (other.row nr)

section Same

variable {row other third : SysTable}

theorem SysTable.Same.refl (row : SysTable) : row.Same row := ⟨rfl, rfl⟩

theorem SysTable.Same.symm (same : row.Same other) : other.Same row :=
  ⟨same.1.symm, same.2.symm⟩

theorem SysTable.Same.trans (same : row.Same other) (next : other.Same third) : row.Same third :=
  ⟨same.1.trans next.1, same.2.trans next.2⟩

theorem SysTable.Same.lists (same : row.Same other) (key : Int32) (nr : UInt64) :
    row.Lists key nr ↔ other.Lists key nr := by
  unfold SysTable.Lists
  rw [same.1, same.2]

theorem SysTable.Same.refuses (same : row.Same other) (key : Int32) :
    row.Refuses key ↔ other.Refuses key := by
  unfold SysTable.Refuses
  rw [same.1, same.2]

theorem SysTable.Same.store (same : row.Same other) (store : Store) :
    (row.store store).Same (other.store store) := by
  cases store with
  | call value => exact ⟨rfl, same.2⟩
  | count value => exact same
  | hash place key =>
      refine ⟨same.1, ?_⟩
      unfold SysTable.store
      rw [same.2]

theorem SysTable.Same.foldl (same : row.Same other) (stores : List Store) :
    (stores.foldl SysTable.store row).Same (stores.foldl SysTable.store other) := by
  induction stores generalizing row other with
  | nil => exact same
  | cons store rest ih => exact ih (same.store store)

theorem store_count_same (row : SysTable) (value : UInt64) : (row.store (.count value)).Same row :=
  ⟨rfl, rfl⟩

/-- A block or an unblock, whose answer does not depend on `count`. -/
def Call.edits : Call → Bool
  | .block _ _ _ | .unblock _ _ _ => true
  | .count _ _ _ | .findder _ _ => false

theorem SysTable.Same.critical (same : row.Same other) (call : Call) :
    (call.critical row).1 = (call.critical other).1 ∧
      (call.edits = true → (call.critical row).2 = (call.critical other).2) := by
  cases call with
  | block uid proc nr =>
      simp only [Call.critical, same.refuses, same.1]
      exact ⟨trivial, fun _ => trivial⟩
  | unblock uid proc nr =>
      simp only [Call.critical, same.lists]
      exact ⟨trivial, fun _ => trivial⟩
  | count uid proc nr =>
      simp only [Call.critical, same.lists]
      refine ⟨?_, fun edits => by cases edits⟩
      split <;> rfl
  | findder uid nr => exact ⟨rfl, fun _ => rfl⟩

end Same

/-- An entry in the middle of a section: each field is the one before or the one
after, and where `call` is the number, one of the two has both fields. -/
structure Between (nr : UInt64) (row prev last : SysTable) : Prop where
  call : row.call = prev.call ∨ row.call = last.call
  hash : row.hash = prev.hash ∨ row.hash = last.hash
  listed : row.call = nr → row.Same prev ∨ (last.call = nr ∧ row.hash = last.hash)

section Parts

variable {call : Call} {prior row : SysTable} {made left : List Store}

theorem Between.same {nr : UInt64} {other prev last : SysTable} (between : Between nr other prev last)
    (same : row.Same other) : Between nr row prev last where
  call := by
    rw [same.1]
    exact between.call
  hash := by
    rw [same.2]
    exact between.hash
  listed := by
    intro own
    rw [same.2]
    exact (between.listed (same.1.symm.trans own)).imp same.trans id

/-- What the first stores of a section on `nr` come to: nothing, all of it, the
slot of a block, or the `call` of an unblock. -/
inductive Part (nr : UInt64) (row prev last : SysTable) : Prop where
  | untouched (same : row.Same prev)
  | finished (same : row.Same last)
  | slot (call : row.call = prev.call) (hash : row.hash = last.hash) (lists : last.call = nr)
  | reset (call : row.call = 999) (hash : row.hash = prev.hash) (last : last.call = 999)

theorem Part.between {nr : UInt64} {prev last : SysTable} (bound : nr.toNat < entries)
    (part : Part nr row prev last) : Between nr row prev last := by
  cases part with
  | untouched same => exact ⟨Or.inl same.1, Or.inl same.2, fun _ => Or.inl same⟩
  | finished same =>
      exact ⟨Or.inr same.1, Or.inr same.2, fun own => Or.inr ⟨same.1.symm.trans own, same.2⟩⟩
  | slot call hash lists => exact ⟨Or.inl call, Or.inr hash, fun _ => Or.inr ⟨lists, hash⟩⟩
  | reset call hash last =>
      refine ⟨Or.inr (call.trans last.symm), Or.inl hash, fun own => ?_⟩
      exact absurd (own.symm.trans call) (nr_ne_unset bound)

theorem part_of_critical (whole : (call.critical prior).1 = made ++ left) :
    Part call.nr (made.foldl SysTable.store prior) prior
      ((call.critical prior).1.foldl SysTable.store prior) := by
  rw [whole]
  cases call with
  | block uid proc nr =>
      simp only [Call.critical] at whole
      split at whole
      · rcases made with _ | ⟨first, made⟩
        · exact .untouched (.refl prior)
        · simp only [List.cons_append, List.cons.injEq, List.nil_eq, List.append_eq_nil_iff] at whole
          obtain ⟨rfl, rfl, rfl⟩ := whole
          exact .finished (.refl _)
      · rcases made with _ | ⟨first, _ | ⟨second, _ | ⟨third, made⟩⟩⟩
        · exact .untouched (.refl prior)
        · simp only [List.cons_append, List.nil_append, List.cons.injEq] at whole
          obtain ⟨rfl, rfl⟩ := whole
          exact .slot rfl rfl rfl
        · simp only [List.cons_append, List.nil_append, List.cons.injEq] at whole
          obtain ⟨rfl, rfl, rfl⟩ := whole
          exact .finished ⟨rfl, rfl⟩
        · simp only [List.cons_append, List.cons.injEq, List.nil_eq, List.append_eq_nil_iff] at whole
          obtain ⟨rfl, rfl, rfl, rfl, rfl⟩ := whole
          exact .finished ⟨rfl, rfl⟩
  | unblock uid proc nr =>
      simp only [Call.critical] at whole
      split at whole
      · rcases made with _ | ⟨first, _ | ⟨second, made⟩⟩
        · exact .untouched (.refl prior)
        · simp only [List.cons_append, List.nil_append, List.cons.injEq] at whole
          obtain ⟨rfl, rfl⟩ := whole
          exact .reset rfl rfl rfl
        · simp only [List.cons_append, List.cons.injEq, List.nil_eq, List.append_eq_nil_iff] at whole
          obtain ⟨rfl, rfl, rfl, rfl⟩ := whole
          exact .finished (.refl _)
      · obtain ⟨rfl, rfl⟩ := List.nil_eq_append_iff.mp whole
        exact .untouched (.refl prior)
  | count uid proc nr =>
      have none : made = [] ∧ left = [] := by
        simp only [Call.critical] at whole
        split at whole <;> exact List.nil_eq_append_iff.mp whole
      obtain ⟨rfl, rfl⟩ := none
      exact .untouched (.refl prior)
  | findder uid nr =>
      obtain ⟨rfl, rfl⟩ := List.nil_eq_append_iff.mp whole
      exact .untouched (.refl prior)

def Store.onSlot : Store → Bool
  | .hash _ _ => true
  | .call _ | .count _ => false

theorem critical_one_slot (call : Call) (row : SysTable) :
    (call.critical row).1.Pairwise (fun first second => first.onSlot = false ∨ second.onSlot = false) := by
  cases call with
  | block uid proc nr =>
      rw [Call.critical]
      split <;> simp [Store.onSlot]
  | unblock uid proc nr =>
      rw [Call.critical]
      split <;> simp [Store.onSlot]
  | count uid proc nr =>
      rw [Call.critical]
      split <;> exact .nil
  | findder uid nr => exact .nil

theorem foldl_hash (stores : List Store) (row : SysTable)
    (apart : ∀ store ∈ stores, store.onSlot = false) :
    (stores.foldl SysTable.store row).hash = row.hash := by
  induction stores generalizing row with
  | nil => rfl
  | cons store rest ih =>
      rw [List.foldl_cons, ih _ fun other member => apart other (List.mem_cons_of_mem store member)]
      cases store with
      | call value => rfl
      | count value => rfl
      | hash place key => cases apart (.hash place key) List.mem_cons_self

theorem hash_of_store {store : Store} {rest : List Store}
    (whole : (call.critical prior).1 = made ++ store :: rest)
    (same : row.Same (made.foldl SysTable.store prior)) :
    (row.store store).hash = row.hash ∨
      (row.store store).hash = ((call.critical prior).1.foldl SysTable.store prior).hash := by
  cases store with
  | call value => exact Or.inl rfl
  | count value => exact Or.inl rfl
  | hash place key =>
      have pairs := critical_one_slot call prior
      rw [whole, List.pairwise_append, List.pairwise_cons] at pairs
      have rested := foldl_hash rest ((made.foldl SysTable.store prior).store (.hash place key))
        fun other member => (pairs.2.1.1 other member).resolve_left (fun none => by cases none)
      rw [whole, List.foldl_append, List.foldl_cons, rested]
      exact Or.inr (same.store (.hash place key)).2

end Parts

section Sequential

variable {start last : State} {order : List Request} {answers : Log}

theorem ready_of_exec (initialised : start.started ≠ 0) (idle : Idle start)
    (ran : exec step start order = .ok (answers, last)) : Idle last ∧ last.started ≠ 0 := by
  refine invariant_exec (fun _ state => Idle state ∧ state.started ≠ 0) ⟨idle, initialised⟩ ?_ ran
  intro log state request answer next ready stepped
  exact (effect_of_step ready.1 stepped).initialised ready.2

theorem ready_of_started (initialised : start.started ≠ 0) (call : Call) :
    call.ready start = start := by
  cases call with
  | findder uid nr => rfl
  | block uid proc nr => exact startUp_of_started initialised
  | unblock uid proc nr => exact startUp_of_started initialised
  | count uid proc nr => exact startUp_of_started initialised

theorem step_ready (idle : Idle start) (initialised : start.started ≠ 0) (request : Request) :
    step request start = .ok ((request.1.onRow (start.row request.1.nr)).1,
      start.withRow request.1.nr (request.1.onRow (start.row request.1.nr)).2
        (request.1.lockAfter start.lockTable)) := by
  rw [step_eq request idle, Call.found, ready_of_started initialised]

end Sequential

/-! ### The order of the sections -/

section Orders

variable {Thread : Type}

/-- The calls that have taken the lock, in that order. -/
def taken (log : MoveLog Thread) : List Request :=
  log.filterMap fun entry =>
    match entry.2 with
    | some (.took request) => some request
    | _ => none

/-- What the blocks and unblocks have answered that have given the lock back. -/
def edited (log : MoveLog Thread) : Log :=
  log.filterMap fun entry =>
    match entry.2 with
    | some (.released request answer) => if request.1.edits then some (request, answer) else none
    | _ => none

def Stage.Holds : Stage → Prop
  | .holding _ | .storing _ _ _ => True
  | _ => False

/-- The section of the request is under way, on an entry that was `prior`. -/
inductive Within (request : Request) (prior row : SysTable) : Stage → Prop where
  | holding (same : row.Same prior) : Within request prior row (.holding request)
  | storing {made left : List Store} {answer : Int64}
      (whole : (request.1.critical prior).1 = made ++ left)
      (same : row.Same (made.foldl SysTable.store prior))
      (answers : request.1.edits = true → answer = (request.1.critical prior).2) :
      Within request prior row (.storing request left answer)

/-- The thread's section is under way on the table `prev`, which the sections of
`earlier` have left, and makes `last` of it. -/
structure Underway (start : State) (log : MoveLog Thread) (tasks : Tasks Thread) (thread : Thread)
    (request : Request) (prev last : State) : Prop where
  within : Within request (prev.row request.1.nr) (tasks.table.row request.1.nr)
    (tasks.stage thread)
  alone : ∀ other, (tasks.stage other).Holds → other = thread
  locks : request.1.Locks
  locked : tasks.table.lockTable.locked = true
  elsewhere : ∀ nr : UInt64, nr.toNat < entries → nr ≠ request.1.nr →
    (tasks.table.row nr).Same (prev.row nr)
  follows : ∃ earlier answers answer, taken log = earlier ++ [request] ∧
    exec step start earlier = .ok (answers, prev) ∧ step request prev = .ok (answer, last) ∧
    edited log = answers.filter (fun entry => entry.1.1.edits)

/-- The table stands between the sequential tables `prev` and `last`, the ones
before and after the section under way. Without one they are the same. -/
inductive Ordered (start : State) (log : MoveLog Thread) (tasks : Tasks Thread) :
    State → State → Prop where
  | free {answers : Log} {last : State} (none : ∀ thread, ¬ (tasks.stage thread).Holds)
      (idle : Idle tasks.table) (ran : exec step start (taken log) = .ok (answers, last))
      (same : SameTables tasks.table last)
      (answered : edited log = answers.filter (fun entry => entry.1.1.edits)) :
      Ordered start log tasks last last
  | held {thread : Thread} {request : Request} {prev last : State}
      (underway : Underway start log tasks thread request prev last) :
      Ordered start log tasks prev last

theorem ordered_start {start : State} (idle : Idle start) :
    Ordered start [] (tasksAt Thread start) start start :=
  .free (fun _ holds => holds) idle rfl (fun _ _ => SysTable.Same.refl _) rfl

theorem Within.holds {request : Request} {prior row : SysTable} {stage : Stage}
    (within : Within request prior row stage) : stage.Holds := by
  cases within with
  | holding same => exact trivial
  | storing whole same answers => exact trivial

theorem Within.same {request : Request} {prior row other : SysTable} {stage : Stage}
    (within : Within request prior row stage) (same : other.Same row) :
    Within request prior other stage := by
  cases within with
  | holding before => exact .holding (same.trans before)
  | storing whole before answers => exact .storing whole (same.trans before) answers

/-! ### What one step does to the order -/

section Steps

variable {start : State} {log : MoveLog Thread} {tasks : Tasks Thread} {prev last table : State}
  {thread : Thread} {move : Move Thread} {event : Option Event} {stage : Stage}

theorem taken_append (event : Option Event) :
    taken (log ++ [(move, event)]) = taken log ++
      match event with
      | some (.took request) => [request]
      | _ => [] := by
  rw [taken, List.filterMap_append]
  rcases event with _ | ⟨_ | _ | _⟩ <;> rfl

theorem edited_append (event : Option Event) :
    edited (log ++ [(move, event)]) = edited log ++
      match event with
      | some (.released request answer) => if request.1.edits then [(request, answer)] else []
      | _ => [] := by
  rw [edited, List.filterMap_append]
  rcases event with _ | ⟨_ | ⟨request, answer⟩ | _⟩
  · rfl
  · rfl
  · cases edits : request.1.edits <;> simp [edited, edits]
  · rfl

variable [DecidableEq Thread]

theorem stage_moved_of_ne {other : Thread} (apart : other ≠ thread) :
    (tasks.moved table thread stage).stage other = tasks.stage other :=
  Function.update_of_ne apart _ _

theorem Ordered.quiet (ordered : Ordered start log tasks prev last)
    (same : SameTables table tasks.table) (lock : table.lockTable = tasks.table.lockTable)
    (before : ¬ (tasks.stage thread).Holds) (after : ¬ stage.Holds)
    (took : taken (log ++ [(move, event)]) = taken log)
    (edits : edited (log ++ [(move, event)]) = edited log) :
    Ordered start (log ++ [(move, event)]) (tasks.moved table thread stage) prev last := by
  have holds {other : Thread} (holder : ((tasks.moved table thread stage).stage other).Holds) :
      (tasks.stage other).Holds := by
    by_cases own : other = thread
    · subst other
      rw [tasks_moved_stage] at holder
      exact absurd holder after
    · rwa [stage_moved_of_ne own] at holder
  cases ordered with
  | free none idle ran shown answered =>
      refine .free (fun other holder => none other (holds holder)) ?_ (took ▸ ran) ?_
        (edits.trans answered)
      · exact (congrArg Mutex.locked lock).trans idle
      · exact fun nr bound => (same nr bound).trans (shown nr bound)
  | @held holder request prev last underway =>
      have apart : holder ≠ thread := fun own => before (own ▸ underway.within.holds)
      obtain ⟨earlier, answers, answer, order, ran, stepped, answered⟩ := underway.follows
      have within : Within request (prev.row request.1.nr) (table.row request.1.nr)
          ((tasks.moved table thread stage).stage holder) := by
        rw [stage_moved_of_ne apart]
        exact underway.within.same (same _ request.2.2)
      exact .held {
        within := within
        alone := fun other held => underway.alone other (holds held)
        locks := underway.locks
        locked := (congrArg Mutex.locked lock).trans underway.locked
        elsewhere := fun nr bound other => (same nr bound).trans (underway.elsewhere nr bound other)
        follows := ⟨earlier, answers, answer, took.trans order, ran, stepped,
          edits.trans answered⟩ }

structure Completed (request : Request) (prev last : State) (answer : Int64) : Prop where
  answers : answer = (request.1.critical (prev.row request.1.nr)).2
  own : last.row request.1.nr = (request.1.critical (prev.row request.1.nr)).1.foldl
    SysTable.store (prev.row request.1.nr)
  other : ∀ nr : UInt64, nr.toNat < entries → nr ≠ request.1.nr → last.row nr = prev.row nr

omit [DecidableEq Thread] in
theorem completed_of_step {request : Request} {answer : Int64} (locks : request.1.Locks)
    (idle : Idle prev) (initialised : prev.started ≠ 0)
    (stepped : step request prev = .ok (answer, last)) : Completed request prev last answer := by
  rw [step_ready idle initialised, onRow_critical locks] at stepped
  obtain ⟨rfl, rfl⟩ := Prod.mk.inj (Except.ok.inj stepped)
  refine ⟨rfl, ?_, ?_⟩
  · rw [withRow_row request.2.2 request.2.2, if_pos rfl]
  · intro nr bound apart
    rw [withRow_row request.2.2 bound, if_neg apart]

/-- How one step moves on: a section starts, which changes no entry, or each
entry keeps its slots or gets the ones that the section under way leaves. -/
inductive Advances (table last next later : State) : Prop where
  | begins {request : Request} {answer : Int64} (stepped : step request last = .ok (answer, later))
      (same : SameTables next table)
  | goes (kept : later = last) (hash : ∀ nr : UInt64, nr.toNat < entries →
      (next.row nr).hash = (table.row nr).hash ∨ (next.row nr).hash = (last.row nr).hash)

omit [DecidableEq Thread] in
theorem Advances.of_same {next : State} (same : SameTables next table) :
    Advances table last next last :=
  .goes rfl (fun nr bound => Or.inl (same nr bound).2)

omit [DecidableEq Thread] in
theorem store_count_tables (table : State) (nr : UInt64) (bound : nr.toNat < entries) (value : UInt64) :
    SameTables (table.store nr (.count value)) table := by
  intro number within
  rw [State.store, withRow_row bound within]
  by_cases own : number = nr
  · rw [if_pos own, own]
    exact store_count_same _ value
  · rw [if_neg own]
    exact .refl _

omit [DecidableEq Thread] in
theorem Ordered.underway (ordered : Ordered start log tasks prev last)
    (holds : (tasks.stage thread).Holds) :
    ∃ request, Underway start log tasks thread request prev last := by
  cases ordered with
  | free none => exact absurd holds (none thread)
  | held underway =>
      cases underway.alone thread holds
      exact ⟨_, underway⟩

omit [DecidableEq Thread] in
theorem Ordered.free_of_idle (ordered : Ordered start log tasks prev last)
    (idle : Idle tasks.table) :
    prev = last ∧ (∀ thread, ¬ (tasks.stage thread).Holds) ∧ SameTables tasks.table last ∧
      ∃ answers, exec step start (taken log) = .ok (answers, last) ∧
        edited log = answers.filter (fun entry => entry.1.1.edits) := by
  cases ordered with
  | free none _ ran same answered => exact ⟨rfl, none, same, _, ran, answered⟩
  | held underway =>
      have locked := underway.locked
      rw [idle] at locked
      cases locked

omit [DecidableEq Thread] in
theorem follows_none {request : Request}
    (follows : ∃ earlier answers answer, taken log = earlier ++ [request] ∧
      exec step start earlier = .ok (answers, prev) ∧ step request prev = .ok (answer, last) ∧
      edited log = answers.filter (fun entry => entry.1.1.edits)) :
    ∃ earlier answers answer, taken (log ++ [(move, none)]) = earlier ++ [request] ∧
      exec step start earlier = .ok (answers, prev) ∧ step request prev = .ok (answer, last) ∧
      edited (log ++ [(move, none)]) = answers.filter (fun entry => entry.1.1.edits) := by
  obtain ⟨earlier, answers, answer, order, ran, stepped, answered⟩ := follows
  exact ⟨earlier, answers, answer, (taken_append none).trans ((List.append_nil _).trans order), ran,
    stepped, (edited_append none).trans ((List.append_nil _).trans answered)⟩

theorem alone_moved (alone : ∀ other, (tasks.stage other).Holds → other = thread) :
    ∀ other, ((tasks.moved table thread stage).stage other).Holds → other = thread := by
  intro other holds
  by_contra apart
  rw [stage_moved_of_ne apart] at holds
  exact apart (alone other holds)

theorem ordered_tests {request : Request} (ordered : Ordered start log tasks prev last)
    (stands : tasks.stage thread = .holding request) :
    Ordered start (log ++ [(move, none)]) (tasks.moved tasks.table thread
      (.storing request (request.1.critical (tasks.table.row request.1.nr)).1
        (request.1.critical (tasks.table.row request.1.nr)).2)) prev last := by
  have holds : (tasks.stage thread).Holds := by
    rw [stands]
    trivial
  obtain ⟨other, underway⟩ := ordered.underway holds
  have within := underway.within
  rw [stands] at within
  cases within with
  | holding same =>
      obtain ⟨stores, value⟩ := same.critical request.1
      have whole : (request.1.critical (prev.row request.1.nr)).1 =
          [] ++ (request.1.critical (tasks.table.row request.1.nr)).1 := stores.symm
      exact .held {
        within := by
          rw [tasks_moved_stage]
          exact .storing whole same value
        alone := alone_moved underway.alone
        locks := underway.locks
        locked := underway.locked
        elsewhere := underway.elsewhere
        follows := follows_none underway.follows }

section Sections

variable (initialised : start.started ≠ 0) (idle : Idle start)
include initialised idle

theorem ordered_takes {request : Request} (ordered : Ordered start log tasks prev last)
    (locks : request.1.Locks) (free : Idle tasks.table) :
    ∃ later, Ordered start (log ++ [(move, some (.took request))])
        (tasks.moved { tasks.table with lockTable := tasks.table.lockTable.take } thread
          (.holding request)) last later ∧
      Advances tasks.table last { tasks.table with lockTable := tasks.table.lockTable.take } later := by
  obtain ⟨_, none, same, answers, ran, answered⟩ := ordered.free_of_idle free
  have ready := ready_of_exec initialised idle ran
  have stepped := step_ready ready.1 ready.2 request
  have underway : Underway start (log ++ [(move, some (.took request))])
      (tasks.moved { tasks.table with lockTable := tasks.table.lockTable.take } thread
        (.holding request)) thread request last _ := {
    within := by
      rw [tasks_moved_stage]
      exact .holding (same _ request.2.2)
    alone := alone_moved fun other holds => absurd holds (none other)
    locks := locks
    locked := rfl
    elsewhere := fun nr bound _ => same nr bound
    follows := ⟨taken log, answers, _, taken_append _, ran, stepped,
      (edited_append _).trans ((List.append_nil _).trans answered)⟩ }
  exact ⟨_, .held underway, .begins stepped fun _ _ => .refl _⟩

omit [DecidableEq Thread] in
theorem Underway.completed {request : Request}
    (underway : Underway start log tasks thread request prev last) :
    ∃ answer, step request prev = .ok (answer, last) ∧ Completed request prev last answer := by
  obtain ⟨earlier, answers, answer, order, ran, stepped, answered⟩ := underway.follows
  have ready := ready_of_exec initialised idle ran
  exact ⟨answer, stepped, completed_of_step underway.locks ready.1 ready.2 stepped⟩

theorem ordered_stores {request : Request} {store : Store} {rest : List Store} {answer : Int64}
    (ordered : Ordered start log tasks prev last)
    (stands : tasks.stage thread = .storing request (store :: rest) answer) :
    Ordered start (log ++ [(move, none)]) (tasks.moved (tasks.table.store request.1.nr store) thread
        (.storing request rest answer)) prev last ∧
      Advances tasks.table last (tasks.table.store request.1.nr store) last := by
  have holds : (tasks.stage thread).Holds := by
    rw [stands]
    trivial
  obtain ⟨other, underway⟩ := ordered.underway holds
  obtain ⟨_, _, completed⟩ := underway.completed initialised idle
  have within := underway.within
  rw [stands] at within
  have own : (tasks.table.store request.1.nr store).row request.1.nr =
      (tasks.table.row request.1.nr).store store := by
    rw [State.store, withRow_row request.2.2 request.2.2, if_pos rfl]
  have others {nr : UInt64} (bound : nr.toNat < entries) (apart : nr ≠ request.1.nr) :
      (tasks.table.store request.1.nr store).row nr = tasks.table.row nr := by
    rw [State.store, withRow_row request.2.2 bound, if_neg apart]
  cases within with
  | @storing made _ _ whole same value =>
      have longer : (request.1.critical (prev.row request.1.nr)).1 = (made ++ [store]) ++ rest := by
        rw [whole, List.append_assoc]
        rfl
      constructor
      · exact .held {
          within := by
            rw [tasks_moved_stage]
            refine .storing longer ?_ value
            rw [List.foldl_append]
            exact own ▸ same.store store
          alone := alone_moved underway.alone
          locks := underway.locks
          locked := underway.locked
          elsewhere := fun nr bound apart => by
            change ((tasks.table.store request.1.nr store).row nr).Same _
            rw [others bound apart]
            exact underway.elsewhere nr bound apart
          follows := follows_none underway.follows }
      · refine .goes rfl fun nr bound => ?_
        by_cases here : nr = request.1.nr
        · rw [here, own, completed.own]
          exact hash_of_store whole same
        · rw [others bound here]
          exact Or.inl rfl

theorem ordered_releases {request : Request} {answer : Int64}
    (ordered : Ordered start log tasks prev last)
    (stands : tasks.stage thread = .storing request [] answer) :
    Ordered start (log ++ [(move, some (.released request answer))])
        (tasks.moved (mutexUnlock tasks.table) thread .idle) last last ∧
      Advances tasks.table last (mutexUnlock tasks.table) last := by
  have holds : (tasks.stage thread).Holds := by
    rw [stands]
    trivial
  obtain ⟨other, underway⟩ := ordered.underway holds
  have within := underway.within
  rw [stands] at within
  refine ⟨?_, .goes rfl fun nr bound => Or.inl rfl⟩
  cases within with
  | storing whole same value =>
      obtain ⟨earlier, answers, given, order, ran, stepped, answered⟩ := underway.follows
      have ready := ready_of_exec initialised idle ran
      have completed := completed_of_step underway.locks ready.1 ready.2 stepped
      have order_kept : taken (log ++ [(move, some (.released request answer))]) =
          earlier ++ [request] := by
        rw [taken_append, order]
        exact List.append_nil _
      have later : exec step start (earlier ++ [request]) =
          .ok (answers ++ [(request, given)], last) :=
        exec_concat_ok.mpr ⟨answers, prev, given, ran, stepped, rfl⟩
      refine .free ?_ rfl (order_kept ▸ later) ?_ ?_
      · intro other held
        cases alone_moved underway.alone other held
        rw [tasks_moved_stage] at held
        exact held
      · intro nr bound
        by_cases here : nr = request.1.nr
        · subst nr
          rw [completed.own, whole, List.append_nil]
          exact same
        · rw [completed.other nr bound here]
          exact underway.elsewhere nr bound here
      · rw [edited_append, answered, List.filter_append]
        congr 1
        cases edits : request.1.edits with
        | false => simp [edits]
        | true => simp [edits, value edits, completed.answers]

theorem ordered_next {next : State} {later : Stage} (ordered : Ordered start log tasks prev last)
    (goes : Goes tasks.table (tasks.stage thread) event next later) :
    ∃ before after, Ordered start (log ++ [(move, event)]) (tasks.moved next thread later)
      before after ∧ Advances tasks.table last next after := by
  have same : SameTables tasks.table tasks.table := fun _ _ => .refl _
  have apart {stands : Stage} (stage : tasks.stage thread = stands) (free : ¬ stands.Holds) :
      ¬ (tasks.stage thread).Holds := stage ▸ free
  generalize stands : tasks.stage thread = stage at goes
  cases goes with
  | takes locks free =>
      obtain ⟨after, kept, advances⟩ := ordered_takes initialised idle ordered locks free
      exact ⟨last, after, kept, advances⟩
  | tests => exact ⟨prev, last, ordered_tests ordered stands, .of_same same⟩
  | stores =>
      obtain ⟨kept, advances⟩ := ordered_stores initialised idle ordered stands
      exact ⟨prev, last, kept, advances⟩
  | releases =>
      obtain ⟨kept, advances⟩ := ordered_releases initialised idle ordered stands
      exact ⟨last, last, kept, advances⟩
  | @counts uid nr valid count =>
      have counted := store_count_tables tasks.table nr valid.2 (count + 1)
      exact ⟨prev, last, ordered.quiet counted rfl (apart stands (fun holds => holds))
        (fun holds => holds) ((taken_append _).trans (List.append_nil _))
        ((edited_append _).trans (List.append_nil _)), .of_same counted⟩
  | _ =>
      exact ⟨prev, last, ordered.quiet same rfl (apart stands (fun holds => holds))
        (fun holds => holds) ((taken_append _).trans (List.append_nil _))
        ((edited_append _).trans (List.append_nil _)), .of_same same⟩

omit initialised idle [DecidableEq Thread] in
theorem goes_started {next : State} {later : Stage} (goes : Goes table stage event next later) :
    next.started = table.started := by
  cases goes <;> rfl

theorem ordered_act {next : Tasks Thread} (ordered : Ordered start log tasks prev last)
    (started : tasks.table.started ≠ 0) (acted : move.act tasks = .ok (event, next)) :
    next.table.started ≠ 0 ∧ ∃ before after, Ordered start (log ++ [(move, event)]) next before after ∧
      Advances tasks.table last next.table after := by
  cases move with
  | enter thread request =>
      obtain ⟨stands, rfl, rfl⟩ := act_enter_ok acted
      have same : SameTables tasks.table tasks.table := fun _ _ => .refl _
      have ready : request.1.ready tasks.table = tasks.table := ready_of_started started request.1
      rw [ready]
      have out : ¬ (tasks.stage thread).Holds := by
        rw [stands]
        exact fun holds => holds
      exact ⟨started, prev, last, ordered.quiet same rfl out (fun holds => holds)
        ((taken_append _).trans (List.append_nil _))
        ((edited_append _).trans (List.append_nil _)), .of_same same⟩
  | next thread =>
      obtain ⟨after, later, goes, rfl⟩ := act_next_ok acted
      refine ⟨?_, ordered_next initialised idle ordered goes⟩
      exact (goes_started goes).trans_ne started

theorem ordered_exec {moves : List (Move Thread)} {final : Tasks Thread}
    (ran : exec Move.act (tasksAt Thread start) moves = .ok (log, final)) :
    final.table.started ≠ 0 ∧ ∃ before after, Ordered start log final before after := by
  refine invariant_exec (fun log tasks => tasks.table.started ≠ 0 ∧
    ∃ before after, Ordered start log tasks before after)
    ⟨initialised, start, start, ordered_start idle⟩ ?_ ran
  rintro log tasks move event next ⟨started, prev, last, ordered⟩ acted
  obtain ⟨kept, before, after, later, _⟩ := ordered_act initialised idle ordered started acted
  exact ⟨kept, before, after, later⟩

end Sections

end Steps

end Orders

/-- However the steps of the calls are mixed, the blocks and unblocks answer what
they answer one after the other in the order in which they take the lock, and
when no section is under way the table lists the uids of that sequential run. -/
theorem sections_serial (Thread : Type) [DecidableEq Thread] {start : State}
    (initialised : start.started ≠ 0) (idle : Idle start) {moves : List (Move Thread)}
    {log : MoveLog Thread} {final : Tasks Thread}
    (ran : exec Move.act (tasksAt Thread start) moves = .ok (log, final)) :
    ∃ answers last, exec step start (taken log) = .ok (answers, last) ∧
      edited log <+: answers.filter (fun entry => entry.1.1.edits) ∧
      (Idle final.table → SameTables final.table last ∧
        edited log = answers.filter (fun entry => entry.1.1.edits)) := by
  obtain ⟨_, prev, last, ordered⟩ := ordered_exec initialised idle ran
  cases ordered with
  | free none free ran same answered =>
      exact ⟨_, _, ran, answered ▸ List.prefix_refl _, fun _ => ⟨same, answered⟩⟩
  | held underway =>
      obtain ⟨earlier, answers, answer, order, earlier_ran, stepped, answered⟩ := underway.follows
      refine ⟨_, last, order ▸ exec_concat_ok.mpr ⟨answers, prev, answer, earlier_ran, stepped, rfl⟩,
        ?_, fun free => ?_⟩
      · rw [answered, List.filter_append]
        exact List.prefix_append _ _
      · have locked := underway.locked
        rw [free] at locked
        cases locked

theorem startUp_boot_ready : (startUp boot).started ≠ 0 ∧ Idle (startUp boot) :=
  ⟨startUp_started boot, startUp_idle rfl⟩

def mixedBlocks (first second hook : Request) : List (Move (Fin 3)) :=
  [.enter 0 first, .enter 1 second, .next 0, .next 0, .next 0, .enter 2 hook, .next 2, .next 0,
    .next 0, .next 0, .next 1, .next 1, .next 1]

theorem mixedBlocks_serial :
    ∃ log final, exec Move.act (tasksAt (Fin 3) (startUp boot))
        (mixedBlocks ⟨.block 7 7 59, by decide⟩ ⟨.block 5 5 59, by decide⟩
          ⟨.findder 7 59, by decide⟩) = .ok (log, final) ∧
      ∃ answers last, exec step (startUp boot) (taken log) = .ok (answers, last) ∧
        edited log <+: answers.filter (fun entry => entry.1.1.edits) ∧
        (Idle final.table → SameTables final.table last ∧
          edited log = answers.filter (fun entry => entry.1.1.edits)) := by
  have ends : endsWith Move.act (tasksAt (Fin 3) (startUp boot))
      (mixedBlocks ⟨.block 7 7 59, by decide⟩ ⟨.block 5 5 59, by decide⟩
        ⟨.findder 7 59, by decide⟩) (fun _ _ => true) = true := by decide +kernel
  obtain ⟨log, final, ran, _⟩ := exec_of_endsWith ends
  exact ⟨log, final, ran,
    sections_serial (Fin 3) startUp_boot_ready.1 startUp_boot_ready.2 ran⟩

end CS421.Sandbox
