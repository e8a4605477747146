/-
The answers that the hook gives while other calls run.

The hook reads `call` and then the slot, without the lock. For a uid other than
root, what it answers is what it would answer between two sections of the
sequential run, at some moment of its own call. An answer of 1 may rest on a
`call` that was read before an unblock and a slot that was read after a block;
then the block stored the slot first, and it lists the uid. Root is left out: an
unblock stores 0 to the slot, and that reads as the uid of root.
-/

import CS421.Sandbox.Serial

set_option autoImplicit false

namespace CS421.Sandbox

open Runs

variable {Thread : Type} {start : State} {log : MoveLog Thread} {tasks : Tasks Thread}
  {prev last : State} {uid : Int32} {nr : UInt64}

/-- The calls that have taken the lock so far, with or without the one whose
section is under way, and after them the request, answer so. -/
def CanFollow (start : State) (log : MoveLog Thread) (tasks : Tasks Thread) (request : Request)
    (answer : Int64) : Prop :=
  ∃ order answers table next,
    (order = taken log ∨ (¬ Idle tasks.table ∧ order = (taken log).dropLast)) ∧
    exec step start order = .ok (answers, table) ∧ step request table = .ok (answer, next)

def hookAnswer (uid : Int32) (nr : UInt64) (table : State) : Int64 :=
  if (table.row nr).Lists uid nr then 1 else 0

theorem step_hook {table : State} (idle : Idle table) (valid : (Call.findder uid nr).Valid) :
    ∃ next, step ⟨.findder uid nr, valid⟩ table = .ok (hookAnswer uid nr table, next) := by
  have value : ((Call.findder uid nr).onRow (table.row nr)).1 = hookAnswer uid nr table := by
    change (findderRow uid nr (table.row nr)).1 = _
    rw [findderRow, hookAnswer]
    split <;> rfl
  rw [step_eq _ idle, ← value]
  exact ⟨_, rfl⟩

section Orders

variable (initialised : start.started ≠ 0) (idle : Idle start)
include initialised idle

theorem Ordered.canFollow (ordered : Ordered start log tasks prev last)
    (valid : (Call.findder uid nr).Valid) :
    CanFollow start log tasks ⟨.findder uid nr, valid⟩ (hookAnswer uid nr prev) ∧
      CanFollow start log tasks ⟨.findder uid nr, valid⟩ (hookAnswer uid nr last) := by
  cases ordered with
  | free none free ran same answered =>
      obtain ⟨next, answers⟩ := step_hook (ready_of_exec initialised idle ran).1 valid
      have follows : CanFollow start log tasks ⟨.findder uid nr, valid⟩ (hookAnswer uid nr _) :=
        ⟨_, _, _, next, Or.inl rfl, ran, answers⟩
      exact ⟨follows, follows⟩
  | held underway =>
      obtain ⟨earlier, answers, answer, order, ran, stepped, answered⟩ := underway.follows
      have later := exec_concat_ok.mpr ⟨answers, prev, answer, ran, stepped, rfl⟩
      obtain ⟨next, before⟩ := step_hook (ready_of_exec initialised idle ran).1 valid
      obtain ⟨following, after⟩ := step_hook (ready_of_exec initialised idle later).1 valid
      have locked : ¬ Idle tasks.table := by
        rw [Idle, underway.locked]
        decide
      refine ⟨⟨earlier, _, _, next, Or.inr ⟨locked, ?_⟩, ran, before⟩,
        ⟨_, _, _, following, Or.inl order.symm, later, after⟩⟩
      rw [order, List.dropLast_concat]

end Orders

theorem lists_of_filed {request : Request} {answer : Int64} (idle : Idle prev)
    (initialised : prev.started ≠ 0) (stepped : step request prev = .ok (answer, last))
    (user : uid ≠ 0) (bound : nr.toNat < entries)
    (lacks : (prev.row nr).hash (slotOf uid) ≠ uid) (filed : (last.row nr).hash (slotOf uid) = uid) :
    (last.row nr).Lists uid nr := by
  have ready := startUp_of_started initialised
  have unchanged {number : UInt64} {row : SysTable} (writes : Writes prev number row last)
      (call : row.call = (prev.row number).call) (hash : row.hash = (prev.row number).hash) :
      (last.row nr).Lists uid nr := by
    rw [(writes.same call hash bound).2] at filed
    exact absurd filed lacks
  have effect := effect_of_step idle stepped
  cases effect with
  | @accepted caller proc number valid permitted accepts writes =>
      rw [ready] at writes
      by_cases own : nr = number
      · subst nr
        rw [writes.own] at filed ⊢
        by_cases place : slotOf uid = slotOf proc
        · have same : proc = uid := by
            rw [SysTable.accepted, place] at filed
            exact (Function.update_self _ _ _).symm.trans filed
          subst proc
          exact ⟨rfl, filed⟩
        · rw [SysTable.accepted] at filed
          exact absurd ((Function.update_of_ne place _ _).symm.trans filed) lacks
      · rw [writes.other nr bound own] at filed
        exact absurd filed lacks
  | @repeated caller proc number valid permitted refuses writes =>
      rw [ready] at writes
      by_cases own : nr = number
      · subst nr
        rw [writes.own] at filed
        exact absurd filed lacks
      · rw [writes.other nr bound own] at filed
        exact absurd filed lacks
  | @released caller proc number valid permitted lists writes =>
      rw [ready] at writes
      by_cases own : nr = number
      · subst nr
        rw [writes.own, SysTable.released] at filed
        by_cases place : slotOf uid = slotOf proc
        · rw [place] at filed
          exact absurd ((Function.update_self _ _ _).symm.trans filed).symm user
        · exact absurd ((Function.update_of_ne place _ _).symm.trans filed) lacks
      · rw [writes.other nr bound own] at filed
        exact absurd filed lacks
  | blockDenied valid denied writes => exact unchanged (ready ▸ writes) rfl rfl
  | absent valid permitted lacks writes => exact unchanged (ready ▸ writes) rfl rfl
  | unblockDenied valid denied writes => exact unchanged (ready ▸ writes) rfl rfl
  | asked valid writes => exact unchanged (ready ▸ writes) rfl rfl
  | hit valid lists writes => exact unchanged writes rfl rfl
  | miss valid lacks writes => exact unchanged writes rfl rfl

theorem Ordered.filed (initialised : start.started ≠ 0) (idle : Idle start)
    (ordered : Ordered start log tasks prev last) (user : uid ≠ 0) (bound : nr.toNat < entries)
    (lacks : (prev.row nr).hash (slotOf uid) ≠ uid) (filed : (last.row nr).hash (slotOf uid) = uid) :
    (last.row nr).Lists uid nr := by
  cases ordered with
  | free => exact absurd filed lacks
  | held underway =>
      obtain ⟨earlier, answers, answer, order, ran, stepped, answered⟩ := underway.follows
      have ready := ready_of_exec initialised idle ran
      exact lists_of_filed ready.1 ready.2 stepped user bound lacks filed

theorem Ordered.ready (initialised : start.started ≠ 0) (idle : Idle start)
    (ordered : Ordered start log tasks prev last) : Idle last ∧ last.started ≠ 0 := by
  cases ordered with
  | free none free ran same answered => exact ready_of_exec initialised idle ran
  | held underway =>
      obtain ⟨earlier, answers, answer, order, ran, stepped, answered⟩ := underway.follows
      exact ready_of_exec initialised idle
        (exec_concat_ok.mpr ⟨answers, prev, answer, ran, stepped, rfl⟩)

theorem Ordered.between (initialised : start.started ≠ 0) (idle : Idle start)
    (ordered : Ordered start log tasks prev last) (bound : nr.toNat < entries) :
    Between nr (tasks.table.row nr) (prev.row nr) (last.row nr) := by
  cases ordered with
  | free none free ran same answered => exact (Part.untouched (same nr bound)).between bound
  | @held holder request prev last underway =>
      obtain ⟨_, _, completed⟩ := underway.completed initialised idle
      by_cases own : nr = request.1.nr
      · subst nr
        rw [completed.own]
        have within := underway.within
        generalize tasks.stage holder = stage at within
        cases within with
        | holding same => exact (Part.untouched same).between bound
        | storing whole same answers => exact ((part_of_critical whole).between bound).same same
      · exact (Part.untouched (underway.elsewhere nr bound own)).between bound

section Reads

variable [DecidableEq Thread]

/-- At some moment of the moves from `opened`, the request could follow the
sections that have taken the lock, and answer so. -/
def Seen (start : State) (earlier : MoveLog Thread) (opened : Tasks Thread)
    (moves : List (Move Thread)) (request : Request) (answer : Int64) : Prop :=
  ∃ moment log tasks, moment <+: moves ∧ exec Move.act opened moment = .ok (log, tasks) ∧
    CanFollow start (earlier ++ log) tasks request answer

/-- What is known of the call from where its thread stands. After `call` has
been read as the number, either the uid has been listed since the call began or
the slot cannot be read as the uid before a section lists it. -/
inductive Reading (seen : Prop) (uid : Int32) (nr : UInt64) (table last : State) : Stage → Prop where
  | idle : Reading seen uid nr table last .idle
  | entered {valid : (Call.findder uid nr).Valid} :
      Reading seen uid nr table last (.entered ⟨.findder uid nr, valid⟩)
  | matched {valid : (Call.findder uid nr).Valid}
      (listed : seen ∨ (table.row nr).hash (slotOf uid) ≠ uid ∧
        (last.row nr).hash (slotOf uid) ≠ uid) :
      Reading seen uid nr table last (.matched uid nr valid)
  | found {valid : (Call.findder uid nr).Valid} (listed : seen) :
      Reading seen uid nr table last (.found uid nr valid)
  | counting {valid : (Call.findder uid nr).Valid} {count : UInt64} (listed : seen) :
      Reading seen uid nr table last (.counting uid nr valid count)

variable {earlier : MoveLog Thread} {opened : Tasks Thread} {moves during : List (Move Thread)}
  {request : Request} {answer : Int64} {move : Move Thread}

theorem Seen.mono (seen : Seen start earlier opened moves request answer)
    (before : moves <+: during) : Seen start earlier opened during request answer := by
  obtain ⟨moment, log, tasks, part, ran, follows⟩ := seen
  exact ⟨moment, log, tasks, part.trans before, ran, follows⟩

theorem seen_now (ran : exec Move.act opened moves = .ok (log, tasks))
    (follows : CanFollow start (earlier ++ log) tasks request answer) :
    Seen start earlier opened moves request answer :=
  ⟨moves, log, tasks, List.prefix_refl moves, ran, follows⟩

omit [DecidableEq Thread] in
theorem hookAnswer_of_lists {table : State} (lists : (table.row nr).Lists uid nr) :
    hookAnswer uid nr table = 1 := if_pos lists

omit [DecidableEq Thread] in
theorem hookAnswer_of_lacks {table : State} (lacks : ¬ (table.row nr).Lists uid nr) :
    hookAnswer uid nr table = 0 := if_neg lacks

section Window

variable (initialised : start.started ≠ 0) (idle : Idle start) (user : uid ≠ 0)
  (valid : (Call.findder uid nr).Valid)
include initialised idle user valid

theorem Reading.of_call (ran : exec Move.act opened moves = .ok (log, tasks))
    (ordered : Ordered start (earlier ++ log) tasks prev last)
    (call : (tasks.table.row nr).call = nr) :
    Seen start earlier opened moves ⟨.findder uid nr, valid⟩ 1 ∨
      (tasks.table.row nr).hash (slotOf uid) ≠ uid ∧ (last.row nr).hash (slotOf uid) ≠ uid := by
  obtain ⟨before, after⟩ := ordered.canFollow initialised idle valid
  have between := ordered.between initialised idle valid.2
  have seen_last (lists : (last.row nr).Lists uid nr) :
      Seen start earlier opened moves ⟨.findder uid nr, valid⟩ 1 :=
    seen_now ran (hookAnswer_of_lists lists ▸ after)
  by_cases slot : (tasks.table.row nr).hash (slotOf uid) = uid
  · rcases between.listed call with same | ⟨number, hash⟩
    · have lists : (prev.row nr).Lists uid nr := (same.lists uid nr).mp ⟨call, slot⟩
      exact Or.inl (seen_now ran (hookAnswer_of_lists lists ▸ before))
    · exact Or.inl (seen_last ⟨number, hash ▸ slot⟩)
  · by_cases filed : (last.row nr).hash (slotOf uid) = uid
    · have lacks : (prev.row nr).hash (slotOf uid) ≠ uid := by
        rcases between.hash with hash | hash
        · exact hash ▸ slot
        · exact absurd (hash ▸ filed) slot
      exact Or.inl (seen_last (ordered.filed initialised idle user valid.2 lacks filed))
    · exact Or.inr ⟨slot, filed⟩

theorem Reading.kept {next : Tasks Thread} {first after : State} {event : Option Event} {stage : Stage}
    (ran : exec Move.act opened (moves ++ [move]) = .ok (log ++ [(move, event)], next))
    (before : Ordered start (earlier ++ log) tasks prev last)
    (ordered : Ordered start (earlier ++ (log ++ [(move, event)])) next first after)
    (advances : Advances tasks.table last next.table after)
    (reading : Reading (Seen start earlier opened moves ⟨.findder uid nr, valid⟩ 1) uid nr
      tasks.table last stage) :
    Reading (Seen start earlier opened (moves ++ [move]) ⟨.findder uid nr, valid⟩ 1) uid nr
      next.table after stage := by
  have longer : moves <+: moves ++ [move] := List.prefix_append _ _
  cases reading with
  | idle => exact .idle
  | entered => exact .entered
  | found listed => exact .found (listed.mono longer)
  | counting listed => exact .counting (listed.mono longer)
  | matched listed =>
      refine .matched ?_
      rcases listed with seen | ⟨slot, filed⟩
      · exact Or.inl (seen.mono longer)
      · cases advances with
        | begins stepped same =>
            have ready := before.ready initialised idle
            by_cases files : (after.row nr).hash (slotOf uid) = uid
            · have lists := lists_of_filed ready.1 ready.2 stepped user valid.2 filed files
              have follows := (ordered.canFollow initialised idle valid).2
              exact Or.inl (seen_now ran (hookAnswer_of_lists lists ▸ follows))
            · exact Or.inr ⟨(same nr valid.2).2 ▸ slot, files⟩
        | goes kept hash =>
            subst kept
            rcases hash nr valid.2 with same | same
            · exact Or.inr ⟨same ▸ slot, filed⟩
            · exact Or.inr ⟨same ▸ filed, filed⟩

theorem Reading.own {after : State} {event : Option Event} {later : Stage}
    (ran : exec Move.act opened moves = .ok (log, tasks))
    (ordered : Ordered start (earlier ++ log) tasks prev last)
    {stage : Stage} (goes : Goes tasks.table stage event after later)
    (reading : Reading (Seen start earlier opened moves ⟨.findder uid nr, valid⟩ 1) uid nr
      tasks.table last stage) :
    Reading (Seen start earlier opened moves ⟨.findder uid nr, valid⟩ 1) uid nr
      tasks.table last later := by
  cases reading with
  | idle => cases goes
  | entered =>
      cases goes with
      | asks call => exact .matched (Reading.of_call initialised idle user valid ran ordered call)
      | passes call => exact .idle
      | refused unlocked refusal => exact .idle
      | takes locks free => exact locks.elim
  | matched listed =>
      cases goes with
      | finds slot => exact .found (listed.resolve_right fun apart => apart.1 slot)
      | misses slot => exact .idle
  | found listed =>
      cases goes with
      | reads => exact .counting listed
  | counting listed =>
      cases goes with
      | counts => exact .idle

omit user in
theorem Reading.ends {after : State} {later : Stage}
    (ran : exec Move.act opened moves = .ok (log, tasks))
    (ordered : Ordered start (earlier ++ log) tasks prev last) {stage : Stage}
    (goes : Goes tasks.table stage (some (.answered request answer)) after later)
    (reading : Reading (Seen start earlier opened moves ⟨.findder uid nr, valid⟩ 1) uid nr
      tasks.table last stage) :
    Seen start earlier opened moves ⟨.findder uid nr, valid⟩ answer := by
  obtain ⟨before, follows⟩ := ordered.canFollow initialised idle valid
  have between := ordered.between initialised idle valid.2
  cases reading with
  | idle => cases goes
  | entered =>
      cases goes with
      | passes call =>
          rcases between.call with same | same
          · have lacks : ¬ (prev.row nr).Lists uid nr := fun lists => call (same.trans lists.1)
            exact seen_now ran (hookAnswer_of_lacks lacks ▸ before)
          · have lacks : ¬ (last.row nr).Lists uid nr := fun lists => call (same.trans lists.1)
            exact seen_now ran (hookAnswer_of_lacks lacks ▸ follows)
      | refused unlocked refusal => cases refusal
  | matched listed =>
      cases goes with
      | misses slot =>
          rcases between.hash with same | same
          · have lacks : ¬ (prev.row nr).Lists uid nr := fun lists => slot (same ▸ lists.2)
            exact seen_now ran (hookAnswer_of_lacks lacks ▸ before)
          · have lacks : ¬ (last.row nr).Lists uid nr := fun lists => slot (same ▸ lists.2)
            exact seen_now ran (hookAnswer_of_lacks lacks ▸ follows)
  | found listed => cases goes
  | counting listed =>
      cases goes with
      | counts => exact listed

theorem reading_exec {thread : Thread} (started : opened.table.started ≠ 0)
    (ordered : Ordered start earlier opened prev last)
    (stands : opened.stage thread = .entered ⟨.findder uid nr, valid⟩)
    (once : ∀ other, .enter thread other ∉ moves)
    (ran : exec Move.act opened moves = .ok (log, tasks)) :
    tasks.table.started ≠ 0 ∧ ∃ before after, Ordered start (earlier ++ log) tasks before after ∧
      Reading (Seen start earlier opened moves ⟨.findder uid nr, valid⟩ 1) uid nr tasks.table after
        (tasks.stage thread) := by
  induction moves using List.reverseRecOn generalizing log tasks with
  | nil =>
      cases ran
      rw [List.append_nil]
      refine ⟨started, prev, last, ordered, ?_⟩
      rw [stands]
      exact .entered
  | append_singleton moves move ih =>
      obtain ⟨prior, state, event, before_ran, acted, rfl⟩ := exec_concat_ok.mp ran
      have earlier_once : ∀ other, .enter thread other ∉ moves :=
        fun other member => once other (List.mem_append_left [move] member)
      obtain ⟨ready, first, second, kept, reading⟩ := ih earlier_once before_ran
      obtain ⟨starts, third, fourth, later, advances⟩ := ordered_act initialised idle kept ready acted
      rw [List.append_assoc] at later
      refine ⟨starts, third, fourth, later, ?_⟩
      have follows {stage : Stage}
          (stays : Reading (Seen start earlier opened moves ⟨.findder uid nr, valid⟩ 1) uid nr
            state.table second stage) :
          Reading (Seen start earlier opened (moves ++ [move]) ⟨.findder uid nr, valid⟩ 1) uid nr
            tasks.table fourth stage :=
        Reading.kept initialised idle user valid ran kept later advances stays
      cases move with
      | enter other request =>
          obtain ⟨_, rfl, rfl⟩ := act_enter_ok acted
          by_cases own : thread = other
          · subst other
            exact absurd (List.mem_append_right moves List.mem_cons_self) (once request)
          · rw [stage_moved_of_ne own]
            exact follows reading
      | next other =>
          obtain ⟨table, stage, goes, rfl⟩ := act_next_ok acted
          by_cases own : thread = other
          · subst other
            rw [tasks_moved_stage]
            exact follows (Reading.own initialised idle user valid before_ran kept goes reading)
          · rw [stage_moved_of_ne own]
            exact follows reading

end Window

end Reads

/-- For a uid other than root, every answer of the hook is one that it gives
between two sections: it is the answer of a sequential run of the calls that have
taken the lock by some moment of the hook's own call, where the section under
way then counts or not. -/
theorem hook_answers_serial (Thread : Type) [DecidableEq Thread] {start : State}
    (initialised : start.started ≠ 0) (idle : Idle start) {uid : Int32} {nr : UInt64}
    (user : uid ≠ 0) (valid : (Call.findder uid nr).Valid) {thread : Thread}
    {before during : List (Move Thread)} {earlier log : MoveLog Thread}
    {opened final : Tasks Thread} {answer : Int64}
    (entered : exec Move.act (tasksAt Thread start)
      (before ++ [.enter thread ⟨.findder uid nr, valid⟩]) = .ok (earlier, opened))
    (once : ∀ other, .enter thread other ∉ during)
    (ended : exec Move.act opened (during ++ [.next thread]) =
      .ok (log ++ [(.next thread, some (.answered ⟨.findder uid nr, valid⟩ answer))], final)) :
    Seen start earlier opened during ⟨.findder uid nr, valid⟩ answer := by
  obtain ⟨started, prev, last, ordered⟩ := ordered_exec initialised idle entered
  obtain ⟨prior, state, event, first, acted, rfl⟩ := exec_concat_ok.mp entered
  obtain ⟨_, rfl, rfl⟩ := act_enter_ok acted
  obtain ⟨between, tasks, last_event, ran, stepped, same⟩ := exec_concat_ok.mp ended
  obtain ⟨rfl, events⟩ := List.append_inj' same rfl
  cases events
  obtain ⟨table, stage, goes, rfl⟩ := act_next_ok stepped
  obtain ⟨_, first_table, last_table, orders, reading⟩ :=
    reading_exec initialised idle user valid started ordered tasks_moved_stage once ran
  exact Reading.ends initialised idle valid ran orders goes reading

def afterBlock (block hook : Request) : List (Move Bool) :=
  .enter false block :: List.replicate 6 (.next false) ++ [.enter true hook]

/-- The hook reads `call`; then one thread completes an unblock and starts a
block, up to its first store. The hook reads the slot and `count`. -/
def aroundUnblock (unblock block : Request) : List (Move Bool) :=
  .next true :: .enter false unblock :: List.replicate 5 (.next false) ++
    .enter false block :: List.replicate 3 (.next false) ++ [.next true, .next true]

theorem hook_answers_one_serial :
    ∃ earlier opened log final,
      exec Move.act (tasksAt Bool (startUp boot))
        (afterBlock ⟨.block 7 7 59, by decide⟩ ⟨.findder 5 59, by decide⟩) =
          .ok (earlier, opened) ∧
      exec Move.act opened
        (aroundUnblock ⟨.unblock 7 7 59, by decide⟩ ⟨.block 5 5 59, by decide⟩ ++ [.next true]) =
          .ok (log ++ [(.next true, some (.answered ⟨.findder 5 59, by decide⟩ 1))], final) ∧
      Seen (startUp boot) earlier opened
        (aroundUnblock ⟨.unblock 7 7 59, by decide⟩ ⟨.block 5 5 59, by decide⟩)
        ⟨.findder 5 59, by decide⟩ 1 := by
  have ends : endsWith Move.act (tasksAt Bool (startUp boot))
      (afterBlock ⟨.block 7 7 59, by decide⟩ ⟨.findder 5 59, by decide⟩)
      (fun _ opened => endsWith Move.act opened
        (aroundUnblock ⟨.unblock 7 7 59, by decide⟩ ⟨.block 5 5 59, by decide⟩ ++ [.next true])
        (fun log _ => log.getLast?.map Prod.snd ==
          some (some (.answered ⟨.findder 5 59, by decide⟩ 1)))) = true := by decide +kernel
  obtain ⟨earlier, opened, entered, later⟩ := exec_of_endsWith ends
  obtain ⟨whole, final, ended, last⟩ := exec_of_endsWith later
  obtain ⟨log, state, event, ran, acted, rfl⟩ := exec_concat_ok.mp ended
  rw [List.getLast?_concat, Option.map_some, beq_iff_eq, Option.some.injEq] at last
  dsimp only at last
  subst last
  refine ⟨earlier, opened, log, final, entered, ended, ?_⟩
  exact hook_answers_serial Bool startUp_boot_ready.1 startUp_boot_ready.2 (by decide) (by decide)
    entered (fun other member => by simp [aroundUnblock] at member) ended

end CS421.Sandbox
