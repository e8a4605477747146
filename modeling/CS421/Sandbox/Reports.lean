/-
Which reports of `findder` have a block behind them.

A slot holds the uid it was given last, so a report about any uid but 0 can be
traced to its block. A free slot is written as uid 0, so root appears to be
blocked whenever the entry is in use and slot 0 of it is free.
-/

import CS421.Sandbox.History

set_option autoImplicit false

namespace CS421.Sandbox

open Runs

/-- The call is an accepted block that puts the entry of `nr` in use while slot
0 of that entry is free and no block of root stands there: from then on the
free slot reads as uid 0. -/
def RevealsRoot (nr : UInt64) (log : Log) (state : State) (request : Request) : Prop :=
  match request.1 with
  | .block uid proc number =>
      number = nr ∧ Permitted uid proc ∧ ¬ ((startUp state).row nr).Refuses proc ∧
        slotOf proc ≠ slotOf 0 ∧ ((startUp state).row nr).hash (slotOf 0) = 0 ∧
        ¬ Standing 0 nr log
  | .unblock _ _ _ | .count _ _ _ | .findder _ _ => False

/-- What a slot shows of a uid other than root's was put there by a block. -/
structure Backed (key : Int32) (nr : UInt64) (log : Log) (state : State) : Prop where
  idle : Idle state
  held : (state.row nr).hash (slotOf key) = key → Standing key nr log

/-- The same of root, for which a free slot must not count. -/
structure RootBacked (nr : UInt64) (log : Log) (state : State) : Prop where
  idle : Idle state
  unused : state.started = 0 → (state.row nr).call = 0
  range : state.started ≠ 0 → nr ≤ (state.row nr).call ∧ (state.row nr).call ≤ 999
  listed : (state.row nr).Lists 0 nr → Standing 0 nr log

theorem startUp_hash (state : State) (nr : UInt64) :
    ((startUp state).row nr).hash = (state.row nr).hash := by
  by_cases unset : state.started = 0
  · rw [startUp_row unset]
    rfl
  · rw [startUp_of_started unset]

theorem backed_boot {key : Int32} (user : key ≠ 0) (nr : UInt64) : Backed key nr [] boot :=
  { idle := rfl
    held := fun same => absurd same.symm user }

theorem Backed.startUp {key : Int32} {nr : UInt64} {log : Log} {state : State}
    (backed : Backed key nr log state) : Backed key nr log (startUp state) := by
  refine ⟨startUp_idle backed.idle, ?_⟩
  rw [startUp_hash]
  exact backed.held

theorem Backed.write {key : Int32} {nr number : UInt64} {log later : Log} {base next : State}
    {row : SysTable} (backed : Backed key nr log base) (bound : nr.toNat < entries)
    (writes : Writes base number row next)
    (here : nr = number → row.hash (slotOf key) = key → Standing key nr later)
    (elsewhere : nr ≠ number → Standing key nr log → Standing key nr later) :
    Backed key nr later next := by
  refine ⟨writes.idle, fun held => ?_⟩
  by_cases own : nr = number
  · subst number
    rw [writes.own] at held
    exact here rfl held
  · rw [writes.other nr bound own] at held
    exact elsewhere own (backed.held held)

theorem backed_step {key : Int32} {nr : UInt64} {log : Log} {state next : State}
    {request : Request} {answer : Int64} (user : key ≠ 0) (bound : nr.toNat < entries)
    (backed : Backed key nr log state) (effect : Effect state next request answer) :
    Backed key nr (log ++ [(request, answer)]) next := by
  have ready := backed.startUp
  cases effect.change log with
  | @accepted uid proc number valid permitted accepts writes =>
      apply ready.write bound writes
      · intro own held
        subst number
        rw [standing_block]
        by_cases place : slotOf key = slotOf proc
        · simp only [SysTable.accepted, place, Function.update_self] at held
          exact Or.inr ⟨held, rfl, rfl⟩
        · simp only [SysTable.accepted, Function.update_of_ne place] at held
          exact Or.inl (ready.held held)
      · intro _ earlier
        exact standing_block.mpr (Or.inl earlier)
  | @repeated uid proc number valid permitted refuses writes =>
      apply ready.write bound writes
      · intro own held
        subst number
        exact standing_block.mpr (Or.inl (ready.held held))
      · intro _ earlier
        exact standing_block.mpr (Or.inl earlier)
  | @released uid proc number valid permitted lists writes =>
      apply ready.write bound writes
      · intro own held
        subst number
        rw [standing_unblock]
        by_cases place : slotOf key = slotOf proc
        · simp only [SysTable.released, place, Function.update_self] at held
          exact absurd held.symm user
        · simp only [SysTable.released, Function.update_of_ne place] at held
          exact ⟨ready.held held, fun this => place (congrArg slotOf this.1.symm)⟩
      · intro own earlier
        exact standing_unblock.mpr ⟨earlier, fun this => own this.2.1.symm⟩
  | quiet from_state writes call hash stands =>
      refine ⟨writes.idle, fun held => (stands key nr).mpr ?_⟩
      rw [(writes.same call hash bound).2] at held
      rcases from_state with rfl | rfl
      · exact backed.held held
      · exact ready.held held

theorem rootBacked_boot {nr : UInt64} (other : nr ≠ 0) : RootBacked nr [] boot :=
  { idle := rfl
    unused := fun _ => rfl
    range := fun initialised => absurd rfl initialised
    listed := fun lists => absurd lists.1.symm other }

theorem RootBacked.startUp {nr : UInt64} {log : Log} {state : State} (bound : nr.toNat < entries)
    (backed : RootBacked nr log state) : RootBacked nr log (startUp state) := by
  by_cases unset : state.started = 0
  · have call : ((CS421.Sandbox.startUp state).row nr).call = 999 := by
      rw [startUp_row unset]
      rfl
    refine ⟨startUp_idle backed.idle, ?_, ?_, ?_⟩
    · intro absurdity
      exact absurd absurdity (startUp_started state)
    · intro _
      rw [call, UInt64.le_iff_toNat_le]
      have top : (999 : UInt64).toNat = 999 := by decide
      unfold entries at bound
      exact ⟨by omega, UInt64.le_refl 999⟩
    · intro lists
      exact absurd (lists.1.symm.trans call) (nr_ne_unset bound)
  · rw [startUp_of_started unset]
    exact backed

theorem RootBacked.frame {nr : UInt64} {log later : Log} {base next : State}
    (backed : RootBacked nr log base) (idle : Idle next) (started : next.started = base.started)
    (call : (next.row nr).call = (base.row nr).call)
    (hash : (next.row nr).hash = (base.row nr).hash)
    (stands : Standing 0 nr later ↔ Standing 0 nr log) :
    RootBacked nr later next := by
  refine ⟨idle, ?_, ?_, ?_⟩
  · intro unset
    rw [call]
    exact backed.unused (started ▸ unset)
  · intro initialised
    rw [call]
    exact backed.range (started ▸ initialised)
  · intro lists
    exact stands.mpr (backed.listed ⟨call.symm.trans lists.1, (congrFun hash _).symm.trans lists.2⟩)

theorem RootBacked.write {nr number : UInt64} {log later : Log} {base next : State}
    {row : SysTable} (backed : RootBacked nr log base) (bound : nr.toNat < entries)
    (initialised : base.started ≠ 0) (writes : Writes base number row next)
    (range : nr = number → nr ≤ row.call ∧ row.call ≤ 999)
    (listed : nr = number → row.Lists 0 nr → Standing 0 nr later)
    (elsewhere : nr ≠ number → (Standing 0 nr later ↔ Standing 0 nr log)) :
    RootBacked nr later next := by
  by_cases own : nr = number
  · subst number
    refine ⟨writes.idle, ?_, ?_, ?_⟩
    · intro unset
      exact absurd (writes.started ▸ unset) initialised
    · intro _
      rw [writes.own]
      exact range rfl
    · intro lists
      rw [writes.own] at lists
      exact listed rfl lists
  · have same := writes.other nr bound own
    exact backed.frame writes.idle writes.started (congrArg _ same) (congrArg _ same) (elsewhere own)

private theorem call_succ_range {nr call : UInt64} (low : nr ≤ call) (high : call ≤ 999)
    (inUse : call ≠ 999) : nr ≤ call + 1 ∧ call + 1 ≤ 999 ∧ call + 1 ≠ nr := by
  have top : (999 : UInt64).toNat = 999 := by decide
  have apart : call.toNat ≠ 999 := fun same => inUse (UInt64.toNat_inj.mp (same.trans top.symm))
  have succ : (call + 1).toNat = (call.toNat + 1) % 2 ^ 64 := UInt64.toNat_add call 1
  rw [UInt64.le_iff_toNat_le] at low high ⊢
  rw [UInt64.le_iff_toNat_le, ne_eq, ← UInt64.toNat_inj]
  omega

theorem rootBacked_step {nr : UInt64} {log : Log} {state next : State}
    {request : Request} {answer : Int64} (bound : nr.toNat < entries)
    (backed : RootBacked nr log state) (hides : ¬ RevealsRoot nr log state request)
    (effect : Effect state next request answer) :
    RootBacked nr (log ++ [(request, answer)]) next := by
  have ready := backed.startUp bound
  have initialised := startUp_started state
  obtain ⟨low, high⟩ := ready.range initialised
  cases effect.change log with
  | @accepted uid proc number valid permitted accepts writes =>
      apply ready.write bound initialised writes
      · intro own
        subst number
        exact ⟨UInt64.le_refl nr, UInt64.le_trans low high⟩
      · intro own lists
        subst number
        have held := lists.2
        rw [standing_block]
        by_cases place : slotOf 0 = slotOf proc
        · simp only [SysTable.accepted, place, Function.update_self] at held
          exact Or.inr ⟨held, rfl, rfl⟩
        · simp only [SysTable.accepted, Function.update_of_ne place] at held
          left
          by_contra unbacked
          exact hides ⟨rfl, permitted, accepts, fun same => place same.symm, held, unbacked⟩
      · intro own
        rw [standing_block]
        exact or_iff_left (fun new => own new.2.1.symm)
  | @repeated uid proc number valid permitted refuses writes =>
      apply ready.write bound initialised writes
      · intro own
        subst number
        obtain ⟨above, below, _⟩ := call_succ_range low high refuses.1
        exact ⟨above, below⟩
      · intro own lists
        subst number
        obtain ⟨_, _, apart⟩ := call_succ_range low high refuses.1
        exact absurd lists.1 apart
      · intro _
        rw [standing_block]
        exact or_iff_left (fun new => absurd new.2.2 (by decide))
  | @released uid proc number valid permitted lists writes =>
      apply ready.write bound initialised writes
      · intro _
        exact ⟨UInt64.le_trans low high, UInt64.le_refl 999⟩
      · intro _ lists
        exact absurd lists.1.symm (nr_ne_unset bound)
      · intro own
        rw [standing_unblock]
        exact and_iff_left (fun this => own this.2.1.symm)
  | quiet from_state writes call hash stands =>
      obtain ⟨sameCall, sameHash⟩ := writes.same call hash bound
      rcases from_state with rfl | rfl
      · exact backed.frame writes.idle writes.started sameCall sameHash (stands 0 nr)
      · exact ready.frame writes.idle writes.started sameCall sameHash (stands 0 nr)

theorem revealed_step {nr : UInt64} {log : Log} {state next : State}
    {request : Request} {answer : Int64} (bound : nr.toNat < entries)
    (reveals : RevealsRoot nr log state request) (effect : Effect state next request answer) :
    Blocked next 0 nr ∧ ¬ Standing 0 nr (log ++ [(request, answer)]) := by
  cases effect with
  | @accepted uid proc number valid permitted accepts writes =>
      obtain ⟨rfl, _, _, place, held, unbacked⟩ := reveals
      constructor
      · have free :
            Function.update ((startUp state).row number).hash (slotOf proc) proc (slotOf 0) = 0 :=
          (Function.update_of_ne place.symm proc _).trans held
        rw [blocked_iff (by decide) bound, writes.own]
        exact ⟨rfl, free⟩
      · rw [standing_block]
        intro stands
        rcases stands with earlier | new
        · exact unbacked earlier
        · exact place (congrArg slotOf new.1)
  | @repeated uid proc number valid permitted refuses writes =>
      obtain ⟨rfl, _, accepts, _⟩ := reveals
      exact absurd refuses accepts
  | blockDenied valid denied writes => exact absurd reveals.2.1 denied
  | absent valid permitted lacks writes => exact reveals.elim
  | unblockDenied valid denied writes => exact reveals.elim
  | released valid permitted lists writes => exact reveals.elim
  | asked valid writes => exact reveals.elim
  | hit valid lists writes => exact reveals.elim
  | miss valid lacks writes => exact reveals.elim

def NoFalseReport (uid : Int32) (nr : UInt64) (log : Log) (state : State) : Prop :=
  Blocked state uid nr → Standing uid nr log

theorem user_reports (calls : List Request) {uid : Int32} {nr : UInt64} (nonneg : 0 ≤ uid)
    (bound : nr.toNat < entries) (user : uid ≠ 0) :
    Always step boot calls (NoFalseReport uid nr) := by
  intro prior _ log state ran blocked
  have backed : Backed uid nr log state :=
    invariant_exec (Backed uid nr) (backed_boot user nr)
      (fun _ _ _ _ _ backed ran =>
        backed_step user bound backed (effect_of_step backed.idle ran)) ran
  exact backed.held ((blocked_iff nonneg bound).mp blocked).2

theorem root_reports (calls : List Request) {nr : UInt64} (bound : nr.toNat < entries)
    (other : nr ≠ 0) :
    Always step boot calls (NoFalseReport 0 nr) ↔
      EveryStep step boot calls (fun log state request => ¬ RevealsRoot nr log state request) :=
  always_iff_everyStep (RootBacked nr) (rootBacked_boot other)
    (fun _ _ _ _ _ backed hides ran =>
      rootBacked_step bound backed hides (effect_of_step backed.idle ran))
    (fun _ _ backed blocked => backed.listed ((blocked_iff (by decide) bound).mp blocked))
    (fun _ _ request backed reveals => by
      have ran := step_eq request backed.idle
      obtain ⟨blocked, unbacked⟩ :=
        revealed_step bound (not_not.mp reveals) (effect_of_step backed.idle ran)
      exact ⟨_, _, ran, fun honest => unbacked (honest blocked)⟩)
    calls

/-- From boot on, the hook never reports a pair without a block behind the
report exactly when the pair is not root's, or when it is root's, its number is
not 0 and no call of the run reveals the free slot. -/
theorem noFalseReport_iff (calls : List Request) (uid : Int32) (nr : UInt64) (nonneg : 0 ≤ uid)
    (bound : nr.toNat < entries) :
    Always step boot calls (NoFalseReport uid nr) ↔
      uid ≠ 0 ∨ (nr ≠ 0 ∧
        EveryStep step boot calls (fun log state request => ¬ RevealsRoot nr log state request)) := by
  by_cases user : uid = 0
  · subst uid
    by_cases zero : nr = 0
    · subst nr
      refine iff_of_false ?_ (fun either => either.elim (· rfl) (·.1 rfl))
      intro always
      have reported : Blocked boot 0 0 := (blocked_iff nonneg bound).mpr ⟨rfl, rfl⟩
      exact not_standing_nil 0 0 (always [] (List.nil_prefix) [] boot rfl reported)
    · rw [root_reports calls bound zero]
      exact ⟨fun hides => Or.inr ⟨zero, hides⟩, fun either => (either.resolve_left (· rfl)).2⟩
  · exact iff_of_true (user_reports calls nonneg bound user) (Or.inl user)

/-- At boot, before any call, root is reported as blocked from `read`. -/
theorem root_reported_at_boot : ¬ Always step boot [] (NoFalseReport 0 0) := by
  intro always
  have reported : Blocked boot 0 0 := (blocked_iff (by decide) (by decide)).mpr ⟨rfl, rfl⟩
  exact not_standing_nil 0 0 (always [] (List.prefix_refl []) [] boot rfl reported)

theorem noFalseReport_iff_user :
    Always step boot [⟨.block 5 5 59, by decide⟩] (NoFalseReport 5 59) :=
  (noFalseReport_iff [⟨.block 5 5 59, by decide⟩] 5 59 (by decide) (by decide)).mpr
    (Or.inl (by decide))

end CS421.Sandbox
