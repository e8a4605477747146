/-
Which blocks survive a run.

One `call` field serves all the uids of a system call, and 32 slots of one uid
each serve all uids. The condition below names the steps at which a standing
block keeps its entry; at every other step some standing block is lost.
-/

import CS421.Sandbox.History

set_option autoImplicit false

namespace CS421.Sandbox

open Runs

def NoBlockLost (log : Log) (state : State) : Prop :=
  ∀ key nr, Standing key nr log → Blocked state key nr

/-- The call takes no entry away from a standing block: no block is answered
with `-EEXIST`, none moves into the slot of another standing block, and none is
removed while another one stands in the same entry. -/
def Spares (log : Log) (state : State) (request : Request) : Prop :=
  match request.1 with
  | .block uid proc nr =>
      Permitted uid proc →
        ¬ ((startUp state).row nr).Refuses proc ∧
        ∀ other, Standing other nr log → other ≠ proc → slotOf other ≠ slotOf proc
  | .unblock uid proc nr =>
      Permitted uid proc → ((startUp state).row nr).Lists proc nr →
        ∀ other, Standing other nr log → other = proc
  | .count _ _ _ | .findder _ _ => True

structure Kept (log : Log) (state : State) : Prop where
  idle : Idle state
  fresh : state.started = 0 → ∀ key nr, ¬ Standing key nr log
  listed : ∀ key nr, Standing key nr log → (state.row nr).Lists key nr
  used : state.started ≠ 0 → ∀ nr, nr.toNat < entries →
    (state.row nr).call = 999 ∨ ((state.row nr).call = nr ∧ ∃ key, Standing key nr log)

theorem Kept.noBlockLost {log : Log} {state : State} (kept : Kept log state) :
    NoBlockLost log state := by
  intro key nr stands
  obtain ⟨nonneg, bound⟩ := stands.valid
  exact (blocked_iff nonneg bound).mpr (kept.listed key nr stands)

theorem kept_boot : Kept [] boot :=
  { idle := rfl
    fresh := fun _ => not_standing_nil
    listed := fun key nr stands => absurd stands (not_standing_nil key nr)
    used := fun initialised => absurd rfl initialised }

theorem Kept.startUp {log : Log} {state : State} (kept : Kept log state) :
    Kept log (startUp state) := by
  by_cases unset : state.started = 0
  · refine ⟨startUp_idle kept.idle, ?_, ?_, ?_⟩
    · intro absurdity
      exact absurd absurdity (startUp_started state)
    · intro key nr stands
      exact absurd stands (kept.fresh unset key nr)
    · intro _ nr _
      left
      rw [startUp_row unset]
      rfl
  · rw [startUp_of_started unset]
    exact kept

theorem Kept.quiet {log later : Log} {base next : State} {nr : UInt64} {row : SysTable}
    (kept : Kept log base) (writes : Writes base nr row next)
    (call : row.call = (base.row nr).call) (hash : row.hash = (base.row nr).hash)
    (stands : ∀ key number, Standing key number later ↔ Standing key number log) :
    Kept later next := by
  refine ⟨writes.idle, ?_, ?_, ?_⟩
  · intro unset key number stood
    exact kept.fresh (writes.started ▸ unset) key number ((stands key number).mp stood)
  · intro key number stood
    have earlier := (stands key number).mp stood
    obtain ⟨sameCall, sameHash⟩ := writes.same call hash earlier.valid.2
    obtain ⟨inUse, held⟩ := kept.listed key number earlier
    exact ⟨sameCall.trans inUse, (congrFun sameHash (slotOf key)).trans held⟩
  · intro initialised number bound
    rw [(writes.same call hash bound).1]
    rcases kept.used (writes.started ▸ initialised) number bound with reset | ⟨inUse, key, stood⟩
    · exact Or.inl reset
    · exact Or.inr ⟨inUse, key, (stands key number).mpr stood⟩

theorem kept_accepted {log : Log} {base next : State} {uid : UInt32} {proc : Int32} {nr : UInt64}
    (valid : (Call.block uid proc nr).Valid) (kept : Kept log base) (initialised : base.started ≠ 0)
    (apart : ∀ other, Standing other nr log → other ≠ proc → slotOf other ≠ slotOf proc)
    (writes : Writes base nr ((base.row nr).accepted proc nr) next) :
    Kept (log ++ [(⟨.block uid proc nr, valid⟩, 0)]) next := by
  refine ⟨writes.idle, ?_, ?_, ?_⟩
  · intro unset
    exact absurd (writes.started ▸ unset) initialised
  · intro key number stands
    by_cases own : number = nr
    · subst number
      rw [writes.own]
      refine ⟨rfl, ?_⟩
      by_cases same : key = proc
      · subst key
        exact Function.update_self (slotOf proc) proc (base.row nr).hash
      · have earlier : Standing key nr log :=
          (standing_block.mp stands).resolve_right (fun new => same new.1.symm)
        have held := (kept.listed key nr earlier).2
        exact (Function.update_of_ne (apart key earlier same) proc (base.row nr).hash).trans held
    · have earlier : Standing key number log :=
        (standing_block.mp stands).resolve_right (fun new => own new.2.1.symm)
      rw [writes.other number earlier.valid.2 own]
      exact kept.listed key number earlier
  · intro _ number bound
    by_cases own : number = nr
    · subst number
      rw [writes.own]
      exact Or.inr ⟨rfl, proc, standing_block.mpr (Or.inr ⟨rfl, rfl, rfl⟩)⟩
    · rw [writes.other number bound own]
      rcases kept.used initialised number bound with reset | ⟨inUse, key, stood⟩
      · exact Or.inl reset
      · exact Or.inr ⟨inUse, key, standing_block.mpr (Or.inl stood)⟩

theorem kept_released {log : Log} {base next : State} {uid : UInt32} {proc : Int32} {nr : UInt64}
    (valid : (Call.unblock uid proc nr).Valid) (kept : Kept log base)
    (initialised : base.started ≠ 0) (alone : ∀ other, Standing other nr log → other = proc)
    (writes : Writes base nr ((base.row nr).released proc) next) :
    Kept (log ++ [(⟨.unblock uid proc nr, valid⟩, 0)]) next := by
  refine ⟨writes.idle, ?_, ?_, ?_⟩
  · intro unset
    exact absurd (writes.started ▸ unset) initialised
  · intro key number stands
    obtain ⟨earlier, notThis⟩ := standing_unblock.mp stands
    have own : number ≠ nr := by
      intro same
      subst number
      exact notThis ⟨(alone key earlier).symm, rfl, rfl⟩
    rw [writes.other number earlier.valid.2 own]
    exact kept.listed key number earlier
  · intro _ number bound
    by_cases own : number = nr
    · subst number
      rw [writes.own]
      exact Or.inl rfl
    · rw [writes.other number bound own]
      rcases kept.used initialised number bound with reset | ⟨inUse, key, stood⟩
      · exact Or.inl reset
      · exact Or.inr ⟨inUse, key,
          standing_unblock.mpr ⟨stood, fun this => own this.2.1.symm⟩⟩

theorem kept_step {log : Log} {state next : State} {request : Request} {answer : Int64}
    (kept : Kept log state) (spares : Spares log state request)
    (effect : Effect state next request answer) :
    Kept (log ++ [(request, answer)]) next := by
  have ready := kept.startUp
  have initialised := startUp_started state
  cases effect.change log with
  | accepted valid permitted accepts writes =>
      exact kept_accepted valid ready initialised (spares permitted).2 writes
  | repeated valid permitted refuses writes =>
      exact absurd refuses (spares permitted).1
  | released valid permitted lists writes =>
      exact kept_released valid ready initialised (spares permitted lists) writes
  | quiet from_state writes call hash stands =>
      rcases from_state with rfl | rfl
      · exact kept.quiet writes call hash stands
      · exact ready.quiet writes call hash stands

theorem lost_step {log : Log} {state next : State} {request : Request} {answer : Int64}
    (kept : Kept log state) (strikes : ¬ Spares log state request)
    (effect : Effect state next request answer) :
    ¬ NoBlockLost (log ++ [(request, answer)]) next := by
  have ready := kept.startUp
  have initialised := startUp_started state
  have lists_of (lost : NoBlockLost (log ++ [(request, answer)]) next) (key : Int32) (nr : UInt64)
      (stands : Standing key nr (log ++ [(request, answer)])) : (next.row nr).Lists key nr :=
    (blocked_iff stands.valid.1 stands.valid.2).mp (lost key nr stands)
  intro lost
  cases effect with
  | @accepted uid proc nr valid permitted accepts writes =>
      obtain ⟨other, stands, apart, collide⟩ :
          ∃ other, Standing other nr log ∧ other ≠ proc ∧ slotOf other = slotOf proc := by
        by_contra none
        push Not at none
        exact strikes (fun _ => ⟨accepts, none⟩)
      have held := (lists_of lost other nr (standing_block.mpr (Or.inl stands))).2
      simp only [writes.own, SysTable.accepted, collide, Function.update_self] at held
      exact apart held.symm
  | @repeated uid proc nr valid permitted refuses writes =>
      obtain ⟨inUse, key, stands⟩ := (ready.used initialised nr valid.2).resolve_left refuses.1
      have moved := (lists_of lost key nr (standing_block.mpr (Or.inl stands))).1
      rw [writes.own] at moved
      exact ((startUp state).row nr).repeated_call_ne (moved.trans inUse.symm)
  | blockDenied valid denied writes =>
      exact strikes (fun permitted => absurd permitted denied)
  | @released uid proc nr valid permitted lists writes =>
      obtain ⟨other, stands, apart⟩ : ∃ other, Standing other nr log ∧ other ≠ proc := by
        by_contra none
        push Not at none
        exact strikes (fun _ _ => none)
      have inUse := (lists_of lost other nr
        (standing_unblock.mpr ⟨stands, fun this => apart this.1.symm⟩)).1
      rw [writes.own] at inUse
      exact nr_ne_unset valid.2 inUse.symm
  | absent valid permitted lacks writes =>
      exact strikes (fun _ lists => absurd lists lacks)
  | unblockDenied valid denied writes =>
      exact strikes (fun permitted => absurd permitted denied)
  | asked valid writes => exact strikes trivial
  | hit valid lists writes => exact strikes trivial
  | miss valid lacks writes => exact strikes trivial

/-- A run from boot enforces every standing block throughout exactly when each
of its calls spares the blocks that stand. -/
theorem noBlockLost_iff_spares (calls : List Request) :
    Always step boot calls NoBlockLost ↔ EveryStep step boot calls Spares :=
  always_iff_everyStep Kept kept_boot
    (fun _ _ _ _ _ kept spares ran => kept_step kept spares (effect_of_step kept.idle ran))
    (fun _ _ kept => kept.noBlockLost)
    (fun _ _ request kept strikes => by
      have ran := step_eq request kept.idle
      exact ⟨_, _, ran, lost_step kept strikes (effect_of_step kept.idle ran)⟩)
    calls

/-- Uid 33 shares slot 1 with uid 1: blocking itself, it lifts the block of uid 1. -/
theorem block_lost_to_neighbour :
    ¬ Always step boot
      [⟨.block 1 1 59, by decide⟩, ⟨.block 33 33 59, by decide⟩] NoBlockLost := by
  refine not_always_of_endsWith
    (fun log state => decide (Standing 1 59 log ∧ ¬ (state.row 59).Lists 1 59)) ?_ (by decide +kernel)
  intro log state check kept
  obtain ⟨stands, lacks⟩ := of_decide_eq_true check
  exact lacks ((blocked_iff stands.valid.1 stands.valid.2).mp (kept 1 59 stands))

end CS421.Sandbox
