/-
What the hook counts while other calls run.

The hook reads `count`, adds one and stores it, without the lock. Two hooks that
run at the same time may lose one of their counts, and a hook may store over the
reset of a block. What they cannot do is count more answers than were given.
-/

import CS421.Sandbox.Readers

set_option autoImplicit false

namespace CS421.Sandbox

open Runs

variable {Thread : Type} {log : MoveLog Thread} {tasks : Tasks Thread} {nr : UInt64}

def hits (nr : UInt64) (log : MoveLog Thread) : Nat :=
  log.countP fun entry =>
    match entry.2 with
    | some (.answered ⟨.findder _ number, _⟩ answer) => number == nr && answer == 1
    | _ => false

theorem hits_append (entry : Move Thread × Option Event) :
    hits nr (log ++ [entry]) = hits nr log + hits nr [entry] := by
  rw [hits, hits, hits, List.countP_append]

theorem hits_le_append (entry : Move Thread × Option Event) :
    hits nr log ≤ hits nr (log ++ [entry]) := by
  rw [hits_append]
  exact Nat.le_add_right _ _

theorem hits_counts {uid : Int32} {valid : (Call.findder uid nr).Valid} {move : Move Thread} :
    hits nr (log ++ [(move, some (.answered ⟨.findder uid nr, valid⟩ 1))]) = hits nr log + 1 := by
  rw [hits_append]
  simp [hits]

/-- The stage has read no count above the bound and stores none but 0. -/
def Stage.Under (bound : UInt64 → Nat) : Stage → Prop
  | .storing _ stores _ => ∀ value, Store.count value ∈ stores → value = 0
  | .counting _ number _ count => count.toNat ≤ bound number
  | _ => True

theorem Stage.Under.mono {stage : Stage} {bound higher : UInt64 → Nat} (under : stage.Under bound)
    (le : ∀ number, bound number ≤ higher number) : stage.Under higher := by
  cases stage with
  | counting uid number valid count => exact under.trans (le number)
  | storing request stores answer => exact under
  | _ => trivial

theorem critical_count (call : Call) (row : SysTable) (value : UInt64)
    (member : Store.count value ∈ (call.critical row).1) : value = 0 := by
  cases call with
  | block uid proc number =>
      rw [Call.critical] at member
      split at member <;> simp_all
  | unblock uid proc number =>
      rw [Call.critical] at member
      split at member <;> simp_all
  | count uid proc number =>
      rw [Call.critical] at member
      split at member <;> simp_all
  | findder uid number => cases member

/-- The counts in the table and those that threads have read are no more than the
answers of 1, beyond what the table started with. -/
structure Counted (start : State) (log : MoveLog Thread) (tasks : Tasks Thread) : Prop where
  table : ∀ number : UInt64, number.toNat < entries →
    (tasks.table.row number).count.toNat ≤ (start.row number).count.toNat + hits number log
  stages : ∀ thread, (tasks.stage thread).Under
    fun number => (start.row number).count.toNat + hits number log

section Steps

variable [DecidableEq Thread] {start table : State} {move : Move Thread} {event : Option Event}
  {thread : Thread} {stage : Stage}

omit [DecidableEq Thread] in
theorem bound_mono (entry : Move Thread × Option Event) (number : UInt64) :
    (start.row number).count.toNat + hits number log ≤
      (start.row number).count.toNat + hits number (log ++ [entry]) :=
  Nat.add_le_add_left (hits_le_append entry) _

theorem Counted.moved (counted : Counted start log tasks)
    (rows : ∀ number : UInt64, number.toNat < entries → (table.row number).count.toNat ≤
      (start.row number).count.toNat + hits number (log ++ [(move, event)]))
    (under : stage.Under
      fun number => (start.row number).count.toNat + hits number (log ++ [(move, event)])) :
    Counted start (log ++ [(move, event)]) (tasks.moved table thread stage) := by
  refine ⟨rows, fun other => ?_⟩
  by_cases own : other = thread
  · subst other
    rw [tasks_moved_stage]
    exact under
  · have kept : (tasks.moved table thread stage).stage other = tasks.stage other :=
      Function.update_of_ne own _ _
    rw [kept]
    exact (counted.stages other).mono (bound_mono _)

theorem Counted.lower (counted : Counted start log tasks)
    (rows : ∀ number : UInt64, number.toNat < entries →
      (table.row number).count.toNat ≤ (tasks.table.row number).count.toNat)
    (under : stage.Under fun number => (start.row number).count.toNat + hits number log) :
    Counted start (log ++ [(move, event)]) (tasks.moved table thread stage) :=
  counted.moved
    (fun number bound => ((rows number bound).trans (counted.table number bound)).trans
      (bound_mono _ number))
    (under.mono (bound_mono _))

omit [DecidableEq Thread] in
theorem ready_count (call : Call) (table : State) (number : UInt64) :
    ((call.ready table).row number).count.toNat ≤ (table.row number).count.toNat := by
  have started : ((startUp table).row number).count.toNat ≤ (table.row number).count.toNat := by
    by_cases unset : table.started = 0
    · rw [startUp_row unset]
      exact Nat.zero_le _
    · rw [startUp_of_started unset]
  cases call with
  | findder uid nr => exact Nat.le_refl _
  | block uid proc nr => exact started
  | unblock uid proc nr => exact started
  | count uid proc nr => exact started

omit [DecidableEq Thread] in
theorem store_row (table : State) (store : Store) {number : UInt64} (written : nr.toNat < entries)
    (read : number.toNat < entries) :
    (table.store nr store).row number =
      if number = nr then (table.row nr).store store else table.row number :=
  withRow_row written read

omit [DecidableEq Thread] in
theorem store_count_le (table : State) {store : Store} (written : nr.toNat < entries)
    (zero : ∀ value, store = .count value → value = 0) {number : UInt64}
    (read : number.toNat < entries) :
    ((table.store nr store).row number).count.toNat ≤ (table.row number).count.toNat := by
  rw [store_row table store written read]
  split
  · rename_i own
    subst own
    cases store with
    | call value => exact Nat.le_refl _
    | hash place key => exact Nat.le_refl _
    | count value =>
        rw [zero value rfl]
        exact Nat.zero_le _
  · exact Nat.le_refl _

theorem Counted.next {after : State} {later : Stage} (counted : Counted start log tasks)
    (goes : Goes tasks.table (tasks.stage thread) event after later) :
    Counted start (log ++ [(move, event)]) (tasks.moved after thread later) := by
  have same : ∀ number : UInt64, number.toNat < entries →
      (tasks.table.row number).count.toNat ≤ (tasks.table.row number).count.toNat :=
    fun _ _ => Nat.le_refl _
  have under := counted.stages thread
  generalize tasks.stage thread = stage at goes under
  cases goes with
  | tests => exact counted.lower same fun value => critical_count _ _ value
  | @stores request store rest answer =>
      have first : ∀ value, store = .count value → value = 0 :=
        fun value own => under value (own ▸ List.mem_cons_self)
      refine counted.lower (fun number bound => store_count_le _ request.2.2 first bound) ?_
      exact fun value member => under value (List.mem_cons_of_mem store member)
  | @reads uid number valid => exact counted.lower same (counted.table number valid.2)
  | @counts uid number valid count =>
      have written : number.toNat < entries := valid.2
      refine counted.moved (fun other bound => ?_) trivial
      rw [store_row _ _ written bound]
      split
      · rename_i own
        subst own
        rw [hits_counts]
        have read : count.toNat ≤ (start.row other).count.toNat + hits other log := under
        have wraps : (count + 1).toNat ≤ count.toNat + 1 := by
          rw [UInt64.toNat_add]
          exact Nat.mod_le _ _
        exact wraps.trans (Nat.add_le_add_right read 1)
      · exact (counted.table other bound).trans (bound_mono _ other)
  | _ => exact counted.lower same trivial

end Steps

/-- However the steps of the calls are mixed, an entry counts no more than the
answers of 1 that the hook has given for its number, beyond what it started with. -/
theorem count_le_hits (Thread : Type) [DecidableEq Thread] {start : State}
    {moves : List (Move Thread)} {log : MoveLog Thread} {final : Tasks Thread}
    (ran : exec Move.act (tasksAt Thread start) moves = .ok (log, final)) {nr : UInt64}
    (bound : nr.toNat < entries) :
    (final.table.row nr).count.toNat ≤ (start.row nr).count.toNat + hits nr log := by
  have initial : Counted start [] (tasksAt Thread start) :=
    ⟨fun number _ => Nat.le_refl _, fun _ => trivial⟩
  refine (invariant_exec (Counted start) initial ?_ ran).table nr bound
  intro log tasks move event next counted acted
  cases move with
  | enter thread request =>
      obtain ⟨_, rfl, rfl⟩ := act_enter_ok acted
      exact counted.lower (fun number _ => ready_count _ _ number) trivial
  | next thread =>
      obtain ⟨after, later, goes, rfl⟩ := act_next_ok acted
      exact counted.next goes

theorem two_hooks_count_once :
    ∃ log final, exec Move.act (tasksAt (Fin 3) (startUp boot))
        (.enter 0 ⟨.block 7 7 59, by decide⟩ :: List.replicate 6 (.next 0) ++
          [.enter 1 ⟨.findder 7 59, by decide⟩, .enter 2 ⟨.findder 7 59, by decide⟩,
            .next 1, .next 1, .next 1, .next 2, .next 2, .next 2, .next 1, .next 2]) =
          .ok (log, final) ∧
      ((final.table.row 59).count.toNat = 1 ∧ hits 59 log = 2) ∧
      (final.table.row 59).count.toNat ≤ ((startUp boot).row 59).count.toNat + hits 59 log := by
  have ends : endsWith Move.act (tasksAt (Fin 3) (startUp boot))
      (.enter 0 ⟨.block 7 7 59, by decide⟩ :: List.replicate 6 (.next 0) ++
        [.enter 1 ⟨.findder 7 59, by decide⟩, .enter 2 ⟨.findder 7 59, by decide⟩,
          .next 1, .next 1, .next 1, .next 2, .next 2, .next 2, .next 1, .next 2])
      (fun log final => decide ((final.table.row 59).count.toNat = 1 ∧ hits 59 log = 2)) = true := by
    decide +kernel
  obtain ⟨log, final, ran, counts⟩ := exec_of_endsWith ends
  exact ⟨log, final, ran, of_decide_eq_true counts, count_le_hits (Fin 3) ran (by decide)⟩

end CS421.Sandbox
