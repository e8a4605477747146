/-
Each entry of an initialised table lives by the calls of its own number.

The arguments are the raw ones, and a run counts when it does not fault. A call
is cut down to what it does to one entry, and a run to the calls of one number.
-/

import CS421.Sandbox.History

set_option autoImplicit false

namespace CS421.Sandbox

open Runs

def blockEntry (proc : Int32) (nr : UInt64) (row : SysTable) :
    Except Fault (Int64 × SysTable) := do
  let present ← row.holds (row.call != 999) (getHashs proc) proc
  if present then pure (-EEXIST, { row with call := row.call + 1 })
  else
    let row ← row.setHash (getHashs proc) proc
    pure (0, { row with call := nr, count := 0 })

def unblockEntry (proc : Int32) (nr : UInt64) (row : SysTable) :
    Except Fault (Int64 × SysTable) := do
  let present ← row.holds (row.call == nr) (getHashs proc) proc
  if present then
    let row ← { row with call := 999 }.setHash (getHashs proc) 0
    pure (0, row)
  else pure (-EEXIST, row)

def countEntry (proc : Int32) (nr : UInt64) (row : SysTable) :
    Except Fault (Int64 × SysTable) := do
  let present ← row.holds (row.call == nr) (getHashs proc) proc
  if present then pure (narrow row.count, row) else pure (-EEXIST, row)

def findderEntry (uid : Int32) (nr : UInt64) (row : SysTable) :
    Except Fault (Int64 × SysTable) := do
  let found ← row.holds (row.call == nr) (getHashs uid) uid
  if found then pure (1, { row with count := row.count + 1 }) else pure (0, row)

def Call.onEntry : Call → SysTable → Except Fault (Int64 × SysTable)
  | .block uid proc nr, row =>
      if Permitted uid proc then blockEntry proc nr row else .ok (-EPERM, row)
  | .unblock uid proc nr, row =>
      if Permitted uid proc then unblockEntry proc nr row else .ok (-EPERM, row)
  | .count uid proc nr, row =>
      if uid = 0 ∧ 0 < proc then countEntry proc nr row
      else .ok (if uid = 0 then -EINVAL else -EPERM, row)
  | .findder uid nr, row => findderEntry uid nr row

theorem bind_ok {Value Result : Type} {value : Except Fault Value}
    {next : Value → Except Fault Result} {result : Result} :
    value >>= next = .ok result ↔ ∃ produced, value = .ok produced ∧ next produced = .ok result := by
  cases value with
  | error fault => simp [bind, Except.bind]
  | ok produced => simp [bind, Except.bind]

structure Acted (nr : UInt64) (act : SysTable → Except Fault (Int64 × SysTable)) (state : State)
    (answer : Int64) (next : State) : Prop where
  own : nr.toNat < entries → act (state.row nr) = .ok (answer, next.row nr)
  other : ∀ number, number.toNat < entries → number ≠ nr → next.row number = state.row number
  started : next.started = state.started

/-- Only the lock may differ. -/
def SameTable (state next : State) : Prop :=
  next.permList = state.permList ∧ next.started = state.started

section Sections

variable {nr : UInt64} {proc uid : Int32} {state locked written next : State} {answer : Int64}
  {act : SysTable → Except Fault (Int64 × SysTable)} {row changed : SysTable}

theorem mutexLock_same (took : mutexLock state = .ok locked) : SameTable state locked := by
  unfold mutexLock at took
  split at took
  · cases took
  · cases took
    exact ⟨rfl, rfl⟩

theorem mutexUnlock_same (state : State) : SameTable state (mutexUnlock state) := ⟨rfl, rfl⟩

theorem setEntry_self (read : state.entry nr = .ok row) : state.setEntry nr row = .ok state := by
  unfold State.entry at read
  split at read
  · rename_i bound
    cases read
    rw [State.setEntry, dif_pos bound, Function.update_eq_self]
  · cases read

theorem acted_of_write (before : SameTable state locked) (read : locked.entry nr = .ok row)
    (acts : act row = .ok (answer, changed)) (wrote : locked.setEntry nr changed = .ok written)
    (after : SameTable written next) : Acted nr act state answer next := by
  have rows (number : UInt64) : locked.row number = state.row number ∧
      next.row number = written.row number := by
    unfold State.row
    rw [before.1, after.1]
    exact ⟨rfl, rfl⟩
  by_cases bound : nr.toNat < entries
  · rw [entry_valid bound] at read
    rw [setEntry_valid bound] at wrote
    cases read
    cases wrote
    refine ⟨fun _ => ?_, ?_, after.2.trans before.2⟩
    · rw [← (rows nr).1, (rows nr).2, withRow_row bound bound, if_pos rfl]
      exact acts
    · intro number within apart
      rw [(rows number).2, withRow_row bound within, if_neg apart, (rows number).1]
  · rw [State.entry, dif_neg bound] at read
    cases read

theorem acted_of_read (before : SameTable state locked) (read : locked.entry nr = .ok row)
    (acts : act row = .ok (answer, row)) (after : SameTable locked next) :
    Acted nr act state answer next :=
  acted_of_write before read acts (setEntry_self read) after

theorem blockLocked_acted (ran : blockLocked proc nr state = .ok (answer, next)) :
    Acted nr (blockEntry proc nr) state answer next := by
  obtain ⟨locked, took, ran⟩ := bind_ok.mp ran
  obtain ⟨row, read, ran⟩ := bind_ok.mp ran
  obtain ⟨present, held, ran⟩ := bind_ok.mp ran
  have before := mutexLock_same took
  cases present with
  | true =>
      obtain ⟨written, wrote, ran⟩ := bind_ok.mp ran
      cases ran
      exact acted_of_write before read (bind_ok.mpr ⟨true, held, rfl⟩) wrote
        (mutexUnlock_same written)
  | false =>
      obtain ⟨listed, set, ran⟩ := bind_ok.mp ran
      obtain ⟨written, wrote, ran⟩ := bind_ok.mp ran
      cases ran
      exact acted_of_write before read
        (bind_ok.mpr ⟨false, held, bind_ok.mpr ⟨listed, set, rfl⟩⟩) wrote (mutexUnlock_same written)

theorem unblockLocked_acted (ran : unblockLocked proc nr state = .ok (answer, next)) :
    Acted nr (unblockEntry proc nr) state answer next := by
  obtain ⟨locked, took, ran⟩ := bind_ok.mp ran
  obtain ⟨row, read, ran⟩ := bind_ok.mp ran
  obtain ⟨present, held, ran⟩ := bind_ok.mp ran
  have before := mutexLock_same took
  cases present with
  | true =>
      obtain ⟨cleared, set, ran⟩ := bind_ok.mp ran
      obtain ⟨written, wrote, ran⟩ := bind_ok.mp ran
      cases ran
      exact acted_of_write before read
        (bind_ok.mpr ⟨true, held, bind_ok.mpr ⟨cleared, set, rfl⟩⟩) wrote (mutexUnlock_same written)
  | false =>
      cases ran
      exact acted_of_read before read (bind_ok.mpr ⟨false, held, rfl⟩) (mutexUnlock_same locked)

theorem countLocked_acted (ran : countLocked proc nr state = .ok (answer, next)) :
    Acted nr (countEntry proc nr) state answer next := by
  obtain ⟨locked, took, ran⟩ := bind_ok.mp ran
  obtain ⟨row, read, ran⟩ := bind_ok.mp ran
  obtain ⟨present, held, ran⟩ := bind_ok.mp ran
  have before := mutexLock_same took
  cases present with
  | true =>
      cases ran
      exact acted_of_read before read (bind_ok.mpr ⟨true, held, rfl⟩) (mutexUnlock_same locked)
  | false =>
      cases ran
      exact acted_of_read before read (bind_ok.mpr ⟨false, held, rfl⟩) (mutexUnlock_same locked)

theorem findder_acted (ran : perform (.findder uid nr) state = .ok (answer, next)) :
    Acted nr (findderEntry uid nr) state answer next := by
  obtain ⟨⟨told, last⟩, ran, same⟩ := bind_ok.mp ran
  cases same
  obtain ⟨row, read, ran⟩ := bind_ok.mp ran
  obtain ⟨found, held, ran⟩ := bind_ok.mp ran
  have before : SameTable state state := ⟨rfl, rfl⟩
  cases found with
  | true =>
      obtain ⟨written, wrote, ran⟩ := bind_ok.mp ran
      cases ran
      exact acted_of_write before read (bind_ok.mpr ⟨true, held, rfl⟩) wrote ⟨rfl, rfl⟩
  | false =>
      cases ran
      exact acted_of_read before read (bind_ok.mpr ⟨false, held, rfl⟩) before

end Sections

theorem acted_guarded {nr : UInt64} {state next : State} {answer refusal : Int64} {guard : Prop}
    [Decidable guard] {locked : Outcome} {act : SysTable → Except Fault (Int64 × SysTable)}
    (ran : (if guard then locked else .ok (refusal, state)) = .ok (answer, next))
    (acted : locked = .ok (answer, next) → Acted nr act state answer next) :
    Acted nr (fun row => if guard then act row else .ok (refusal, row)) state answer next := by
  by_cases enters : guard
  · rw [if_pos enters] at ran
    simp only [if_pos enters]
    exact acted ran
  · rw [if_neg enters] at ran
    simp only [if_neg enters]
    cases ran
    exact ⟨fun _ => rfl, fun _ _ _ => rfl, rfl⟩

theorem acted_of_perform {call : Call} {state next : State} {answer : Int64}
    (initialised : state.started ≠ 0) (ran : perform call state = .ok (answer, next)) :
    Acted call.nr call.onEntry state answer next := by
  have ready := startUp_of_started initialised
  cases call with
  | block uid proc nr =>
      simp only [perform, sbx421Block, ite_permitted, ready] at ran
      exact acted_guarded ran blockLocked_acted
  | unblock uid proc nr =>
      simp only [perform, sbx421Unblock, ite_permitted, ready] at ran
      exact acted_guarded ran unblockLocked_acted
  | count uid proc nr =>
      rw [perform_count, ready] at ran
      exact acted_guarded ran countLocked_acted
  | findder uid nr => exact findder_acted ran

/-! ### Runs -/

def addressed (number : UInt64) (call : Call) : Bool := call.nr == number

def onEntry : Machine SysTable Call Int64 Fault := Call.onEntry

/-- A run on an initialised table, seen from one entry, is the run of the calls
of its number on that entry alone. -/
theorem exec_onEntry {start final : State} {calls : List Call} {log : History Call Int64}
    (initialised : start.started ≠ 0) {number : UInt64} (bound : number.toNat < entries)
    (ran : exec perform start calls = .ok (log, final)) :
    exec onEntry (start.row number) (calls.filter (addressed number)) =
      .ok (log.filter (fun event => addressed number event.1), final.row number) := by
  refine exec_project (fun state => state.row number) (addressed number)
    (fun state => state.started ≠ 0) ?_ ?_ ?_ initialised ran
  · intro state call answer next started stepped
    rw [(acted_of_perform started stepped).started]
    exact started
  · intro state call answer next started own stepped
    have same : call.nr = number := beq_iff_eq.mp own
    have acted := (acted_of_perform started stepped).own (same ▸ bound)
    rw [same] at acted
    exact acted
  · intro state call answer next started other stepped
    have apart : call.nr ≠ number := beq_eq_false_iff_ne.mp other
    exact (acted_of_perform started stepped).other number bound apart.symm

/-- Two runs with the same calls on the number give these calls the same answers
and leave the entry the same. -/
def LivesAlone (start : State) (number : UInt64) : Prop :=
  ∀ left right : List Call, left.filter (addressed number) = right.filter (addressed number) →
    ∀ leftLog leftFinal rightLog rightFinal,
      exec perform start left = .ok (leftLog, leftFinal) →
      exec perform start right = .ok (rightLog, rightFinal) →
        leftLog.filter (fun event => addressed number event.1) =
            rightLog.filter (fun event => addressed number event.1) ∧
          leftFinal.row number = rightFinal.row number

def Commute (start : State) (first second : Call) : Prop :=
  ∀ log final reordered last,
    exec perform start [first, second] = .ok (log, final) →
    exec perform start [second, first] = .ok (reordered, last) →
      log = reordered.reverse ∧
        ∀ number, number.toNat < entries → final.row number = last.row number

section Independence

variable {start : State} {number : UInt64}

theorem livesAlone (initialised : start.started ≠ 0) (bound : number.toNat < entries) :
    LivesAlone start number := by
  intro left right same leftLog leftFinal rightLog rightFinal leftRan rightRan
  have leftEntry := exec_onEntry initialised bound leftRan
  have rightEntry := exec_onEntry initialised bound rightRan
  rw [same, rightEntry] at leftEntry
  obtain ⟨logs, rows⟩ := Prod.mk.inj (Except.ok.inj leftEntry)
  exact ⟨logs.symm, rows.symm⟩

theorem exec_two {first second : Call} {log : History Call Int64} {final : State}
    (ran : exec perform start [first, second] = .ok (log, final)) :
    ∃ answer other, log = [(first, answer), (second, other)] := by
  obtain ⟨answer, next, tail, _, later, rfl⟩ := exec_cons_ok.mp ran
  obtain ⟨other, last, none, _, ended, rfl⟩ := exec_cons_ok.mp later
  cases ended
  exact ⟨answer, other, rfl⟩

theorem filter_swap {Event : Type} (chosen : Event → Bool) {first second : Event}
    (apart : ¬ (chosen first = true ∧ chosen second = true)) :
    [first, second].filter chosen = [second, first].filter chosen := by
  cases here : chosen first with
  | false => simp [List.filter_cons, here]
  | true =>
      have other : chosen second = false := Bool.eq_false_iff.mpr (fun there => apart ⟨here, there⟩)
      simp [here, other]

theorem commute {first second : Call} (initialised : start.started ≠ 0)
    (firstBound : first.nr.toNat < entries) (secondBound : second.nr.toNat < entries)
    (apart : first.nr ≠ second.nr) : Commute start first second := by
  intro log final reordered last ran reran
  have same (number : UInt64) :
      [first, second].filter (addressed number) = [second, first].filter (addressed number) := by
    apply filter_swap
    intro both
    exact apart ((beq_iff_eq.mp both.1).trans (beq_iff_eq.mp both.2).symm)
  obtain ⟨answer, other, rfl⟩ := exec_two ran
  obtain ⟨otherBefore, answerAfter, rfl⟩ := exec_two reran
  have own (call : Call) : addressed call.nr call = true := beq_self_eq_true call.nr
  have notSecond : addressed first.nr second = false := beq_eq_false_iff_ne.mpr apart.symm
  have notFirst : addressed second.nr first = false := beq_eq_false_iff_ne.mpr apart
  have firsts := (livesAlone initialised firstBound _ _ (same first.nr) _ _ _ _ ran reran).1
  have seconds := (livesAlone initialised secondBound _ _ (same second.nr) _ _ _ _ ran reran).1
  simp only [List.filter_cons, own, notSecond, if_true, Bool.false_eq_true, if_false,
    List.filter_nil, List.cons.injEq, Prod.mk.injEq, true_and, and_true] at firsts
  simp only [List.filter_cons, own, notFirst, if_true, Bool.false_eq_true, if_false,
    List.filter_nil, List.cons.injEq, Prod.mk.injEq, true_and, and_true] at seconds
  refine ⟨by rw [firsts, seconds]; rfl, ?_⟩
  intro number bound
  exact (livesAlone initialised bound _ _ (same number) _ _ _ _ ran reran).2

theorem valid_run (idle : Idle start) (calls : List Request) :
    ∃ log final, exec perform start (calls.map Subtype.val) = .ok (log, final) := by
  induction calls generalizing start with
  | nil => exact ⟨[], start, rfl⟩
  | cons request rest ih =>
      have stepped := step_eq request idle
      obtain ⟨log, final, later⟩ := ih (idle_of_step idle stepped)
      exact ⟨_, final, exec_cons_ok.mpr ⟨_, _, log, stepped, later, rfl⟩⟩

end Independence

/-- From an initialised table, each entry lives by the calls of its own number,
and calls on different numbers can change places. With the lock free, all runs
of valid calls are runs to which this applies. -/
theorem runs_independent (start : State) (initialised : start.started ≠ 0) :
    (∀ number, number.toNat < entries → LivesAlone start number) ∧
      (∀ first second : Call, first.nr.toNat < entries → second.nr.toNat < entries →
        first.nr ≠ second.nr → Commute start first second) ∧
      (Idle start → ∀ calls : List Request,
        ∃ log final, exec perform start (calls.map Subtype.val) = .ok (log, final)) := by
  refine ⟨?_, ?_, ?_⟩
  · intro number bound
    exact livesAlone initialised bound
  · intro first second firstBound secondBound apart
    exact commute initialised firstBound secondBound apart
  · intro idle calls
    exact valid_run idle calls

theorem runs_independent_started :
    (∀ number, number.toNat < entries → LivesAlone (startUp boot) number) ∧
      (∀ first second : Call, first.nr.toNat < entries → second.nr.toNat < entries →
        first.nr ≠ second.nr → Commute (startUp boot) first second) ∧
      (Idle (startUp boot) → ∀ calls : List Request,
        ∃ log final, exec perform (startUp boot) (calls.map Subtype.val) = .ok (log, final)) :=
  runs_independent (startUp boot) (startUp_started boot)

end CS421.Sandbox
