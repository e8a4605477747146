/-
What the calls of one unprivileged user change for everybody else.

The permission test admits a user for calls about its own uid only, but the
entry it then writes carries the `call` field of all uids and slots shared by
uids that agree modulo 32. The condition below says, in terms of the entry the
call finds, when nobody else's answer depends on what is written.
-/

import CS421.Sandbox.History

set_option autoImplicit false

namespace CS421.Sandbox

open Runs

def Call.By (uid : UInt32) : Call → Prop
  | .block caller _ _ | .unblock caller _ _ | .count caller _ _ => caller = uid
  | .findder _ _ => False

instance (uid : UInt32) (call : Call) : Decidable (call.By uid) := by
  cases call <;> unfold Call.By <;> infer_instance

abbrev RequestOf (uid : UInt32) := { request : Request // request.1.By uid }

def stepOf (uid : UInt32) : Machine State (RequestOf uid) Int64 Fault :=
  fun request => step request.1

/-- Another uid that a slot of the entry holds, whether or not the entry is in
use. -/
def Bystander (uid : UInt32) (row : SysTable) (other : Int32) : Prop :=
  0 ≤ other ∧ other.toUInt32 ≠ uid ∧ row.hash (slotOf other) = other

/-- A block that is refused finds the entry out of use, before and after its
`call` is incremented; a block that is accepted finds the entry in use and takes
no bystander's slot, or finds it out of use and takes the slot of the only
bystander; an unblock finds no bystander. -/
def Harmless (uid : UInt32) (state : State) (call : Call) : Prop :=
  match call with
  | .block _ proc nr =>
      proc.toUInt32 = uid → ∀ other, Bystander uid (state.row nr) other →
        if (state.row nr).Refuses proc then
          (state.row nr).call ≠ nr ∧ (state.row nr).call + 1 ≠ nr
        else ((state.row nr).call = nr ↔ slotOf other ≠ slotOf proc)
  | .unblock _ proc nr =>
      proc.toUInt32 = uid → (state.row nr).Lists proc nr →
        ∀ other, ¬ Bystander uid (state.row nr) other
  | .count _ _ _ | .findder _ _ => True

def SameForOthers (uid : UInt32) (nr : UInt64) (before after : SysTable) : Prop :=
  ∀ other, 0 ≤ other → other.toUInt32 ≠ uid → (after.Lists other nr ↔ before.Lists other nr)

theorem accepted_lists_iff {row : SysTable} {proc other : Int32} {nr : UInt64}
    (apart : other ≠ proc) :
    (row.accepted proc nr).Lists other nr ↔
      slotOf other ≠ slotOf proc ∧ row.hash (slotOf other) = other := by
  unfold SysTable.Lists SysTable.accepted
  by_cases place : slotOf other = slotOf proc
  · simp [place, apart.symm]
  · simp [place]

theorem sameForOthers_accepted {uid : UInt32} {proc : Int32} {nr : UInt64} {row : SysTable}
    (self : proc.toUInt32 = uid) :
    SameForOthers uid nr row (row.accepted proc nr) ↔
      ∀ other, Bystander uid row other → (row.call = nr ↔ slotOf other ≠ slotOf proc) := by
  have lists_iff (other : Int32) (apart : other.toUInt32 ≠ uid) :
      (row.accepted proc nr).Lists other nr ↔
        slotOf other ≠ slotOf proc ∧ row.hash (slotOf other) = other :=
    accepted_lists_iff (fun same => apart (same ▸ self))
  constructor
  · intro same other ⟨nonneg, apart, held⟩
    have here := same other nonneg apart
    rw [lists_iff other apart] at here
    exact ⟨fun inUse => (here.mpr ⟨inUse, held⟩).1, fun place => (here.mp ⟨place, held⟩).1⟩
  · intro condition other nonneg apart
    rw [lists_iff other apart]
    constructor
    · intro ⟨place, held⟩
      exact ⟨(condition other ⟨nonneg, apart, held⟩).mpr place, held⟩
    · intro ⟨inUse, held⟩
      exact ⟨(condition other ⟨nonneg, apart, held⟩).mp inUse, held⟩

theorem sameForOthers_repeated {uid : UInt32} {nr : UInt64} {row : SysTable} :
    SameForOthers uid nr row row.repeated ↔
      ∀ other, Bystander uid row other → row.call ≠ nr ∧ row.call + 1 ≠ nr := by
  have moves : row.call + 1 ≠ row.call := row.repeated_call_ne
  constructor
  · intro same other ⟨nonneg, apart, held⟩
    have here := same other nonneg apart
    constructor
    · intro inUse
      exact moves ((here.mpr ⟨inUse, held⟩).1.trans inUse.symm)
    · intro enters
      exact moves (enters.trans (here.mp ⟨enters, held⟩).1.symm)
  · intro condition other nonneg apart
    constructor
    · intro ⟨enters, held⟩
      exact absurd enters (condition other ⟨nonneg, apart, held⟩).2
    · intro ⟨inUse, held⟩
      exact absurd inUse (condition other ⟨nonneg, apart, held⟩).1

theorem sameForOthers_released {uid : UInt32} {proc : Int32} {nr : UInt64} {row : SysTable}
    (bound : nr.toNat < entries) (inUse : row.call = nr) :
    SameForOthers uid nr row (row.released proc) ↔ ∀ other, ¬ Bystander uid row other := by
  constructor
  · intro same other ⟨nonneg, apart, held⟩
    exact nr_ne_unset bound ((same other nonneg apart).mpr ⟨inUse, held⟩).1.symm
  · intro alone other nonneg apart
    constructor
    · intro ⟨reset, _⟩
      exact absurd reset.symm (nr_ne_unset bound)
    · intro ⟨_, held⟩
      exact absurd ⟨nonneg, apart, held⟩ (alone other)

theorem sameForOthers_refl (uid : UInt32) (nr : UInt64) (row : SysTable) :
    SameForOthers uid nr row row :=
  fun _ _ _ => Iff.rfl

private theorem self_of_permitted {uid caller : UInt32} {proc : Int32} (user : uid ≠ 0)
    (own : caller = uid) (permitted : Permitted caller proc) : proc.toUInt32 = uid := by
  subst caller
  exact (permitted.resolve_right user).symm

private theorem everywhere_iff {uid : UInt32} {base next : State} {nr : UInt64} {row : SysTable}
    (bound : nr.toNat < entries) (writes : Writes base nr row next) :
    (∀ number, number.toNat < entries →
        SameForOthers uid number (base.row number) (next.row number)) ↔
      SameForOthers uid nr (base.row nr) row := by
  constructor
  · intro everywhere
    have here := everywhere nr bound
    rw [writes.own] at here
    exact here
  · intro here number within
    by_cases same : number = nr
    · subst number
      rw [writes.own]
      exact here
    · rw [writes.other number within same]
      exact sameForOthers_refl uid number (base.row number)

theorem harmless_iff {uid : UInt32} {state next : State} {request : Request} {answer : Int64}
    (user : uid ≠ 0) (initialised : state.started ≠ 0) (own : request.1.By uid)
    (effect : Effect state next request answer) :
    Harmless uid state request.1 ↔
      ∀ nr, nr.toNat < entries → SameForOthers uid nr (state.row nr) (next.row nr) := by
  have ready := startUp_of_started initialised
  cases effect with
  | @accepted caller proc nr valid permitted accepts writes =>
      have self := self_of_permitted user own permitted
      rw [ready] at accepts writes
      refine Iff.trans ?_ (everywhere_iff valid.2 writes).symm
      refine Iff.trans ?_ (sameForOthers_accepted self).symm
      simp only [Harmless, self, forall_const, if_neg accepts]
      exact Iff.rfl
  | @repeated caller proc nr valid permitted refuses writes =>
      have self := self_of_permitted user own permitted
      rw [ready] at refuses writes
      refine Iff.trans ?_ (everywhere_iff valid.2 writes).symm
      refine Iff.trans ?_ sameForOthers_repeated.symm
      simp only [Harmless, self, forall_const, if_pos refuses]
      exact Iff.rfl
  | @blockDenied caller proc nr valid denied writes =>
      rw [ready] at writes
      refine iff_of_true (fun self => ?_) ((everywhere_iff valid.2 writes).mpr ?_)
      · exact absurd (Or.inl (Eq.trans own self.symm)) denied
      · exact sameForOthers_refl uid nr (state.row nr)
  | @released caller proc nr valid permitted lists writes =>
      have self := self_of_permitted user own permitted
      rw [ready] at lists writes
      refine Iff.trans ?_ (everywhere_iff valid.2 writes).symm
      refine Iff.trans ?_ (sameForOthers_released valid.2 lists.1).symm
      exact ⟨fun harmless => harmless self lists, fun alone _ _ => alone⟩
  | @absent caller proc nr valid permitted lacks writes =>
      rw [ready] at lacks writes
      refine iff_of_true (fun _ lists => absurd lists lacks) ((everywhere_iff valid.2 writes).mpr ?_)
      exact sameForOthers_refl uid nr (state.row nr)
  | @unblockDenied caller proc nr valid denied writes =>
      rw [ready] at writes
      refine iff_of_true (fun self => ?_) ((everywhere_iff valid.2 writes).mpr ?_)
      · exact absurd (Or.inl (Eq.trans own self.symm)) denied
      · exact sameForOthers_refl uid nr (state.row nr)
  | @asked caller proc nr answer valid writes =>
      rw [ready] at writes
      refine iff_of_true trivial ((everywhere_iff valid.2 writes).mpr ?_)
      exact sameForOthers_refl uid nr (state.row nr)
  | hit valid lists writes => exact own.elim
  | miss valid lacks writes => exact own.elim

/-- The hook answers as it did at the start for every uid but the user's. -/
def Untouched (start : State) (uid : UInt32) (state : State) : Prop :=
  ∀ other nr, 0 ≤ other → nr.toNat < entries → other.toUInt32 ≠ uid →
    (Blocked state other nr ↔ Blocked start other nr)

theorem untouched_iff {start state : State} {uid : UInt32} :
    Untouched start uid state ↔
      ∀ nr, nr.toNat < entries → SameForOthers uid nr (start.row nr) (state.row nr) := by
  constructor
  · intro untouched nr bound other nonneg apart
    rw [← blocked_iff nonneg bound, ← blocked_iff nonneg bound]
    exact untouched other nr nonneg bound apart
  · intro same other nr nonneg bound apart
    rw [blocked_iff nonneg bound, blocked_iff nonneg bound]
    exact same nr bound other nonneg apart

structure Isolated (start : State) (uid : UInt32) (state : State) : Prop where
  idle : Idle state
  initialised : state.started ≠ 0
  untouched : Untouched start uid state

theorem untouched_step_iff {start state next : State} {uid : UInt32} {request : RequestOf uid}
    {answer : Int64} (user : uid ≠ 0) (isolated : Isolated start uid state)
    (effect : Effect state next request.1 answer) :
    Untouched start uid next ↔ Harmless uid state request.1.1 := by
  have before := untouched_iff.mp isolated.untouched
  rw [harmless_iff user isolated.initialised request.2 effect, untouched_iff]
  constructor
  · intro after nr bound other nonneg apart
    exact (after nr bound other nonneg apart).trans (before nr bound other nonneg apart).symm
  · intro same nr bound other nonneg apart
    exact (same nr bound other nonneg apart).trans (before nr bound other nonneg apart)

/-- The calls of one unprivileged user leave every answer about other uids as it
was, at every point of the run, exactly when each call is harmless. -/
theorem untouched_iff_harmless (start : State) (idle : Idle start)
    (initialised : start.started ≠ 0) (uid : UInt32) (user : uid ≠ 0)
    (calls : List (RequestOf uid)) :
    Always (stepOf uid) start calls (fun _ state => Untouched start uid state) ↔
      EveryStep (stepOf uid) start calls (fun _ state request => Harmless uid state request.1.1) :=
  always_iff_everyStep (fun _ state => Isolated start uid state)
    ⟨idle, initialised, fun _ _ _ _ _ => Iff.rfl⟩
    (fun _ _ _ _ _ isolated harmless ran => by
      have effect := effect_of_step isolated.idle ran
      obtain ⟨free, started⟩ := effect.initialised isolated.initialised
      exact ⟨free, started, (untouched_step_iff user isolated effect).mpr harmless⟩)
    (fun _ _ isolated => isolated.untouched)
    (fun _ _ request isolated harms => by
      have ran := step_eq request.1 isolated.idle
      have effect := effect_of_step isolated.idle ran
      exact ⟨_, _, ran, fun untouched => harms ((untouched_step_iff user isolated effect).mp untouched)⟩)
    calls

def guarded : State := (startUp boot).withRow 59 (((startUp boot).row 59).accepted 5 59)
  { locked := false, taken := 1 }

/-- Uid 37 blocks and unblocks itself, and uid 5 is no longer blocked. -/
theorem user_lifts_block :
    ¬ Always (stepOf 37) guarded
      [⟨⟨.block 37 37 59, by decide⟩, by decide⟩, ⟨⟨.unblock 37 37 59, by decide⟩, by decide⟩]
      (fun _ state => Untouched guarded 37 state) := by
  refine not_always_of_endsWith
    (fun _ state => decide (¬ (state.row 59).Lists 5 59 ∧ (guarded.row 59).Lists 5 59)) ?_
    (by decide +kernel)
  intro log state check untouched
  obtain ⟨lacks, lists⟩ := of_decide_eq_true check
  exact lacks (((untouched_iff.mp untouched) 59 (by decide) 5 (by decide) (by decide)).mpr lists)

theorem untouched_iff_harmless_guarded :
    Always (stepOf 37) guarded [⟨⟨.block 37 37 60, by decide⟩, by decide⟩]
        (fun _ state => Untouched guarded 37 state) ↔
      EveryStep (stepOf 37) guarded [⟨⟨.block 37 37 60, by decide⟩, by decide⟩]
        (fun _ state request => Harmless 37 state request.1.1) :=
  untouched_iff_harmless guarded rfl (startUp_started boot) 37 (by decide) _

end CS421.Sandbox
