/-
What a refused call changes for the hook.

A block that is refused because the uid is there already moves the `call` field
of the entry, and the hook compares that field with the number it is asked
about. Every other refusal leaves the entry as it is.
-/

import CS421.Sandbox.Independence

set_option autoImplicit false

namespace CS421.Sandbox

open Runs

def SameDecisions (before after : State) : Prop :=
  ∀ uid nr, 0 ≤ uid → nr.toNat < entries → (Blocked after uid nr ↔ Blocked before uid nr)

def RefusalKeeps (request : Request) (state : State) : Prop :=
  ∀ answer next, step request state = .ok (answer, next) → answer < 0 → SameDecisions state next

def Removable (state : State) (unblock : Request) : Prop :=
  ∀ answer next, step unblock state = .ok (answer, next) → answer = 0

/-- The pair stays blocked, and one unblock removes it, after the block has been
made again so many times and answered with `-EEXIST` each time. -/
def RepeatsKeep (state : State) (block unblock : Request) (times : Nat) : Prop :=
  ∀ log final, exec step state (List.replicate times block) = .ok (log, final) →
    (∀ event ∈ log, event.2 = -EEXIST) →
      Blocked final block.1.key block.1.nr ∧ Removable final unblock

/-- A permitted block, with the lock free, of a uid that its slot holds already,
on an entry whose `call` is the number or comes to be it. -/
def Disturbs (state : State) : Call → Prop
  | .block uid proc nr =>
      Idle state ∧ Permitted uid proc ∧ (state.row nr).hash (slotOf proc) = proc ∧
        ((state.row nr).call = nr ∨ (state.row nr).call + 1 = nr)
  | .unblock _ _ _ | .count _ _ _ | .findder _ _ => False

theorem onEntry_valid {call : Call} (valid : call.Valid) (row : SysTable) :
    call.onEntry row = .ok (call.onRow row) := by
  cases call with
  | block uid proc nr =>
      have nonneg : 0 ≤ proc := valid.1
      by_cases permitted : Permitted uid proc
      · simp only [Call.onEntry, Call.onRow, if_pos permitted, blockEntry, blockRow]
        rw [holds_refuses nonneg, setHash_valid nonneg]
        by_cases refuses : row.Refuses proc
        · simp [refuses, bind, Except.bind, pure, Except.pure, SysTable.repeated]
        · simp [refuses, bind, Except.bind, pure, Except.pure, SysTable.accepted]
      · simp only [Call.onEntry, Call.onRow, if_neg permitted]
  | unblock uid proc nr =>
      have nonneg : 0 ≤ proc := valid.1
      by_cases permitted : Permitted uid proc
      · simp only [Call.onEntry, Call.onRow, if_pos permitted, unblockEntry, unblockRow]
        rw [holds_lists nonneg, setHash_valid nonneg]
        by_cases lists : row.Lists proc nr
        · simp [lists, bind, Except.bind, pure, Except.pure, SysTable.released]
        · simp [lists, bind, Except.bind, pure, Except.pure]
      · simp only [Call.onEntry, Call.onRow, if_neg permitted]
  | count uid proc nr =>
      have nonneg : 0 ≤ proc := valid.1
      simp only [Call.onEntry, Call.onRow, countEntry, countRow]
      rw [holds_lists nonneg]
      by_cases root : uid = 0
      · by_cases positive : 0 < proc
        · by_cases lists : row.Lists proc nr
          · simp [root, positive, lists, bind, Except.bind, pure, Except.pure]
          · simp [root, positive, lists, bind, Except.bind, pure, Except.pure]
        · simp [root, positive]
      · simp [root]
  | findder uid nr =>
      have nonneg : 0 ≤ uid := valid.1
      simp only [Call.onEntry, Call.onRow, findderEntry, findderRow]
      rw [holds_lists nonneg]
      by_cases lists : row.Lists uid nr
      · simp [lists, bind, Except.bind, pure, Except.pure, SysTable.reported]
      · simp [lists, bind, Except.bind, pure, Except.pure]

/-- Of the calls that are answered with an error, only a repeated block writes. -/
theorem onRow_refused {call : Call} {row : SysTable} (negative : (call.onRow row).1 < 0) :
    (call.onRow row).2 = row ∨
      ∃ uid proc nr, call = .block uid proc nr ∧ Permitted uid proc ∧ row.Refuses proc ∧
        (call.onRow row).2 = row.repeated := by
  cases call with
  | block uid proc nr =>
      by_cases permitted : Permitted uid proc
      · by_cases refuses : row.Refuses proc
        · refine Or.inr ⟨uid, proc, nr, rfl, permitted, refuses, ?_⟩
          rw [Call.onRow, if_pos permitted, blockRow, if_pos refuses]
        · rw [Call.onRow, if_pos permitted, blockRow, if_neg refuses] at negative
          exact absurd negative (by decide : ¬ (0 : Int64) < 0)
      · left
        rw [Call.onRow, if_neg permitted]
  | unblock uid proc nr =>
      by_cases permitted : Permitted uid proc
      · by_cases lists : row.Lists proc nr
        · rw [Call.onRow, if_pos permitted, unblockRow, if_pos lists] at negative
          exact absurd negative (by decide : ¬ (0 : Int64) < 0)
        · left
          rw [Call.onRow, if_pos permitted, unblockRow, if_neg lists]
      · left
        rw [Call.onRow, if_neg permitted]
  | count uid proc nr => exact Or.inl (onRow_count uid proc nr row)
  | findder uid nr =>
      by_cases lists : row.Lists uid nr
      · rw [Call.onRow, findderRow, if_pos lists] at negative
        exact absurd negative (by decide : ¬ (1 : Int64) < 0)
      · left
        rw [Call.onRow, findderRow, if_neg lists]

theorem repeated_lists_iff {row : SysTable} {proc : Int32} {nr : UInt64} (nonneg : 0 ≤ proc)
    (held : row.hash (slotOf proc) = proc) :
    (∀ uid, 0 ≤ uid → (row.repeated.Lists uid nr ↔ row.Lists uid nr)) ↔
      ¬ (row.call = nr ∨ row.call + 1 = nr) := by
  have moves : row.call + 1 ≠ row.call := row.repeated_call_ne
  constructor
  · intro same disturbed
    have here := same proc nonneg
    rcases disturbed with inUse | enters
    · exact moves ((here.mpr ⟨inUse, held⟩).1.trans inUse.symm)
    · exact moves (enters.trans (here.mp ⟨enters, held⟩).1.symm)
  · intro apart uid _
    constructor
    · intro ⟨enters, _⟩
      exact absurd (Or.inr enters) apart
    · intro ⟨inUse, _⟩
      exact absurd (Or.inl inUse) apart

section Table

variable {state next : State} {request : Request} {answer : Int64}

theorem sameDecisions_iff {nr : UInt64} {row : SysTable} (bound : nr.toNat < entries)
    (own : next.row nr = row)
    (other : ∀ number, number.toNat < entries → number ≠ nr → next.row number = state.row number) :
    SameDecisions state next ↔
      ∀ uid, 0 ≤ uid → (row.Lists uid nr ↔ (state.row nr).Lists uid nr) := by
  subst row
  constructor
  · intro same uid nonneg
    have here := same uid nr nonneg bound
    rw [blocked_iff nonneg bound, blocked_iff nonneg bound] at here
    exact here
  · intro own uid number nonneg within
    rw [blocked_iff nonneg within, blocked_iff nonneg within]
    by_cases here : number = nr
    · subst number
      exact own uid nonneg
    · rw [other number within here]

theorem idle_of_block {uid : UInt32} {proc : Int32} {nr : UInt64} (permitted : Permitted uid proc)
    (ran : perform (.block uid proc nr) state = .ok (answer, next)) : Idle state := by
  simp only [perform, sbx421Block, ite_permitted, if_pos permitted] at ran
  obtain ⟨locked, took, _⟩ := bind_ok.mp ran
  unfold mutexLock at took
  split at took
  · cases took
  · rename_i free
    rw [startUp_lockTable] at free
    exact Bool.eq_false_iff.mpr free

theorem onRow_of_step (initialised : state.started ≠ 0)
    (ran : step request state = .ok (answer, next)) :
    request.1.onRow (state.row request.1.nr) = (answer, next.row request.1.nr) ∧
      ∀ number, number.toNat < entries → number ≠ request.1.nr →
        next.row number = state.row number := by
  have acted := acted_of_perform initialised ran
  have own := acted.own request.2.2
  rw [onEntry_valid request.2] at own
  exact ⟨Except.ok.inj own, acted.other⟩

theorem repeats_of_disturbs {uid : UInt32} {proc : Int32} {nr : UInt64}
    (valid : (Call.block uid proc nr).Valid) (disturbs : Disturbs state (.block uid proc nr)) :
    (Call.block uid proc nr).onRow (state.row nr) = (-EEXIST, (state.row nr).repeated) := by
  obtain ⟨_, permitted, held, moved⟩ := disturbs
  have inUse : (state.row nr).call ≠ 999 := by
    intro reset
    rcases moved with same | same
    · exact nr_ne_unset valid.2 (same.symm.trans reset)
    · rw [reset] at same
      have bound : nr.toNat < entries := valid.2
      rw [← same] at bound
      exact absurd bound (by decide)
  have refuses : (state.row nr).Refuses proc := ⟨inUse, held⟩
  rw [Call.onRow, if_pos permitted, blockRow, if_pos refuses]

theorem refusalKeeps_iff (initialised : state.started ≠ 0) :
    RefusalKeeps request state ↔ ¬ Disturbs state request.1 := by
  rcases request with ⟨call, valid⟩
  constructor
  · intro keeps disturbs
    cases call with
    | unblock uid proc nr => exact disturbs
    | count uid proc nr => exact disturbs
    | findder uid nr => exact disturbs
    | block uid proc nr =>
        obtain ⟨answer, next, ran⟩ :
            ∃ answer next, step ⟨.block uid proc nr, valid⟩ state = .ok (answer, next) :=
          ⟨_, _, step_eq _ disturbs.1⟩
        obtain ⟨own, other⟩ := onRow_of_step initialised ran
        obtain ⟨rfl, row⟩ := Prod.mk.inj ((repeats_of_disturbs valid disturbs).symm.trans own)
        have same := (sameDecisions_iff valid.2 row.symm other).mp (keeps _ next ran (by decide))
        exact (repeated_lists_iff valid.1 disturbs.2.2.1).mp same disturbs.2.2.2
  · intro spared answer next ran negative
    obtain ⟨own, other⟩ := onRow_of_step initialised ran
    have told : (call.onRow (state.row call.nr)).1 = answer := congrArg Prod.fst own
    have row : (call.onRow (state.row call.nr)).2 = next.row call.nr := congrArg Prod.snd own
    rw [← told] at negative
    rcases onRow_refused negative with same | ⟨uid, proc, nr, rfl, permitted, refuses, same⟩
    · exact (sameDecisions_iff valid.2 (row.symm.trans same) other).mpr (fun _ _ => Iff.rfl)
    · refine (sameDecisions_iff valid.2 (row.symm.trans same) other).mpr ?_
      refine (repeated_lists_iff valid.1 refuses.2).mpr ?_
      intro moved
      exact spared ⟨idle_of_block permitted ran, permitted, refuses.2, moved⟩

end Table

/-! ### Repeated blocks -/

section Repeats

variable {state next : State} {uid caller : UInt32} {proc : Int32} {nr : UInt64} {answer : Int64}
  {times : Nat}

theorem repeated_of_refused (initialised : state.started ≠ 0) (permitted : Permitted uid proc)
    (valid : (Call.block uid proc nr).Valid)
    (ran : step ⟨.block uid proc nr, valid⟩ state = .ok (answer, next)) (refused : answer = -EEXIST) :
    (state.row nr).Refuses proc ∧ next.row nr = (state.row nr).repeated := by
  have own : (Call.block uid proc nr).onRow (state.row nr) = (answer, next.row nr) :=
    (onRow_of_step initialised ran).1
  rw [Call.onRow, if_pos permitted, blockRow] at own
  by_cases refuses : (state.row nr).Refuses proc
  · rw [if_pos refuses] at own
    exact ⟨refuses, (congrArg Prod.snd own).symm⟩
  · rw [if_neg refuses, refused] at own
    have accepted : (0 : Int64) = -EEXIST := congrArg Prod.fst own
    exact absurd accepted (by decide)

theorem call_moves {row : SysTable} (low : row.call.toNat ≤ 999) :
    row.repeated.call.toNat = row.call.toNat + 1 := by
  have sum : (row.call + 1).toNat = (row.call.toNat + 1) % 2 ^ 64 := UInt64.toNat_add row.call 1
  have small : (row.call.toNat + 1) % 2 ^ 64 = row.call.toNat + 1 := Nat.mod_eq_of_lt (by omega)
  exact sum.trans small

theorem repeated_run (initialised : state.started ≠ 0) (permitted : Permitted uid proc)
    (valid : (Call.block uid proc nr).Valid) (low : (state.row nr).call.toNat ≤ 999)
    {log : Log} {final : State}
    (ran : exec step state (List.replicate times ⟨.block uid proc nr, valid⟩) = .ok (log, final))
    (refused : ∀ event ∈ log, event.2 = -EEXIST) :
    (final.row nr).call.toNat = (state.row nr).call.toNat + times ∧
      (state.row nr).call.toNat + times ≤ 999 := by
  induction times generalizing state log with
  | zero =>
      cases ran
      exact ⟨rfl, low⟩
  | succ times ih =>
      rw [List.replicate_succ] at ran
      obtain ⟨answer, next, tail, stepped, later, rfl⟩ := exec_cons_ok.mp ran
      have first : answer = -EEXIST := refused _ List.mem_cons_self
      obtain ⟨refuses, moved⟩ := repeated_of_refused initialised permitted valid stepped first
      have below : (state.row nr).call.toNat ≠ 999 :=
        fun top => refuses.1 (UInt64.toNat_inj.mp top)
      have count : (next.row nr).call.toNat = (state.row nr).call.toNat + 1 := by
        rw [moved]
        exact call_moves low
      have started : next.started ≠ 0 := by
        rw [(acted_of_perform initialised stepped).started]
        exact initialised
      obtain ⟨ends, room⟩ := ih started (by omega) later
        (fun event member => refused event (List.mem_cons_of_mem _ member))
      omega

theorem refused_repeats (times : Nat) (initialised : state.started ≠ 0) (idle : Idle state)
    (permitted : Permitted uid proc) (valid : (Call.block uid proc nr).Valid)
    (held : (state.row nr).hash (slotOf proc) = proc)
    (room : (state.row nr).call.toNat + times ≤ 999) :
    ∃ log final,
      exec step state (List.replicate times ⟨.block uid proc nr, valid⟩) = .ok (log, final) ∧
        ∀ event ∈ log, event.2 = -EEXIST := by
  induction times generalizing state with
  | zero => exact ⟨[], state, rfl, fun _ member => absurd member List.not_mem_nil⟩
  | succ times ih =>
      have inUse : (state.row nr).call ≠ 999 := by
        intro reset
        have top : (state.row nr).call.toNat = 999 := congrArg UInt64.toNat reset
        omega
      obtain ⟨answer, next, ran⟩ :
          ∃ answer next, step ⟨.block uid proc nr, valid⟩ state = .ok (answer, next) :=
        ⟨_, _, step_eq _ idle⟩
      have own : (Call.block uid proc nr).onRow (state.row nr) = (answer, next.row nr) :=
        (onRow_of_step initialised ran).1
      have refuses : (state.row nr).Refuses proc := ⟨inUse, held⟩
      rw [Call.onRow, if_pos permitted, blockRow, if_pos refuses] at own
      obtain ⟨rfl, row⟩ := Prod.mk.inj own
      have started : next.started ≠ 0 := by
        rw [(acted_of_perform initialised ran).started]
        exact initialised
      have later : (next.row nr).hash (slotOf proc) = proc := by
        rw [← row]
        exact held
      have count : (next.row nr).call.toNat = (state.row nr).call.toNat + 1 := by
        rw [← row]
        exact call_moves (by omega)
      obtain ⟨log, final, ends, refused⟩ := ih started (idle_of_step idle ran) later (by omega)
      refine ⟨(⟨.block uid proc nr, valid⟩, -EEXIST) :: log, final, ?_, ?_⟩
      · rw [List.replicate_succ]
        exact exec_cons_ok.mpr ⟨-EEXIST, next, log, ran, ends, rfl⟩
      · intro event member
        rcases List.mem_cons.mp member with rfl | within
        · rfl
        · exact refused event within

theorem removable_of_lists (initialised : state.started ≠ 0) (permitted : Permitted caller proc)
    (valid : (Call.unblock caller proc nr).Valid) (lists : (state.row nr).Lists proc nr) :
    Removable state ⟨.unblock caller proc nr, valid⟩ := by
  intro answer next ran
  have own : (Call.unblock caller proc nr).onRow (state.row nr) = (answer, next.row nr) :=
    (onRow_of_step initialised ran).1
  rw [Call.onRow, if_pos permitted, unblockRow, if_pos lists] at own
  exact (congrArg Prod.fst own).symm

theorem repeatsKeep_iff (initialised : state.started ≠ 0) (permitted : Permitted uid proc)
    (unblocks : Permitted caller proc) (valid : 0 ≤ proc ∧ nr.toNat < entries)
    (blocked : Blocked state proc nr) :
    RepeatsKeep state ⟨.block uid proc nr, valid⟩ ⟨.unblock caller proc nr, valid⟩ times ↔
      ¬ (Idle state ∧ 0 < times ∧ nr.toNat + times ≤ 999) := by
  have lists := (blocked_iff valid.1 valid.2).mp blocked
  have bound : nr.toNat < 437 := valid.2
  have start : (state.row nr).call.toNat = nr.toNat := congrArg UInt64.toNat lists.1
  constructor
  · intro keeps ⟨idle, positive, room⟩
    obtain ⟨log, final, ran, refused⟩ :=
      refused_repeats times initialised idle permitted valid lists.2 (by omega)
    have still := (blocked_iff valid.1 valid.2).mp (keeps log final ran refused).1
    have moved := (repeated_run initialised permitted valid (by omega) ran refused).1
    have back : (final.row nr).call.toNat = nr.toNat := congrArg UInt64.toNat still.1
    omega
  · intro spared log final ran refused
    have reached := (repeated_run initialised permitted valid (by omega) ran refused).2
    cases times with
    | zero =>
        cases ran
        exact ⟨blocked, removable_of_lists initialised unblocks valid lists⟩
    | succ times =>
        rw [List.replicate_succ] at ran
        obtain ⟨answer, next, tail, stepped, _⟩ := exec_cons_ok.mp ran
        exact absurd ⟨idle_of_block permitted stepped, Nat.succ_pos times, by omega⟩ spared

end Repeats

/-- A call answered with an error changes no decision exactly when it is not a
block that disturbs its entry. Of a blocked pair, repeated blocks lose the block
from the first one on. -/
theorem refused_keeps_iff (state : State) (initialised : state.started ≠ 0) :
    (∀ request : Request, RefusalKeeps request state ↔ ¬ Disturbs state request.1) ∧
      ∀ (uid caller : UInt32) (proc : Int32) (nr : UInt64) (valid : 0 ≤ proc ∧ nr.toNat < entries)
        (times : Nat), Permitted uid proc → Permitted caller proc → Blocked state proc nr →
          (RepeatsKeep state ⟨.block uid proc nr, valid⟩ ⟨.unblock caller proc nr, valid⟩ times ↔
            ¬ (Idle state ∧ 0 < times ∧ nr.toNat + times ≤ 999)) := by
  constructor
  · intro request
    exact refusalKeeps_iff initialised
  · intro uid caller proc nr valid times permitted unblocks blocked
    exact repeatsKeep_iff initialised permitted unblocks valid blocked

def blockOnce : Request := ⟨.block 5 5 59, by decide⟩

def blockedOnce : State :=
  (startUp boot).withRow 59 (((startUp boot).row 59).accepted 5 59) { locked := false, taken := 1 }

theorem refused_keeps_iff_blockedOnce :
    (∀ request : Request, RefusalKeeps request blockedOnce ↔ ¬ Disturbs blockedOnce request.1) ∧
      ∀ (uid caller : UInt32) (proc : Int32) (nr : UInt64) (valid : 0 ≤ proc ∧ nr.toNat < entries)
        (times : Nat), Permitted uid proc → Permitted caller proc → Blocked blockedOnce proc nr →
          (RepeatsKeep blockedOnce ⟨.block uid proc nr, valid⟩ ⟨.unblock caller proc nr, valid⟩ times ↔
            ¬ (Idle blockedOnce ∧ 0 < times ∧ nr.toNat + times ≤ 999)) :=
  refused_keeps_iff blockedOnce (startUp_started boot)

/-- The second block of uid 5 is refused, and unblocks it. -/
theorem repeated_block_unblocks :
    ¬ ∀ state : State, state.started ≠ 0 → ∀ request : Request, RefusalKeeps request state := by
  intro keeps
  have initialised : blockedOnce.started ≠ 0 := startUp_started boot
  refine (refusalKeeps_iff initialised).mp (keeps blockedOnce initialised blockOnce) ?_
  have row : blockedOnce.row 59 = ((startUp boot).row 59).accepted 5 59 := by
    rw [blockedOnce, withRow_row (by decide) (by decide), if_pos rfl]
  refine ⟨rfl, Or.inl rfl, ?_, Or.inl ?_⟩
  · rw [row]
    rfl
  · rw [row]
    rfl

end CS421.Sandbox
