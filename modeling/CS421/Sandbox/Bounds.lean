/-
Which accesses to the table stay inside its two arrays.

The arguments here are the raw ones: any process number, negative ones
included, and any system call number, since neither the system calls nor the
hook check them. The other modules assume valid arguments.
-/

import CS421.Runs
import CS421.Sandbox.Rows

set_option autoImplicit false

namespace CS421.Sandbox

open Runs

def InBounds (call : Call) (state : State) : Prop :=
  ∀ fault, perform call state = .error fault → fault = .deadlock

/-- A key whose remainder is a position in `hash`. The remainder of a negative
key is negative unless it is 0. -/
def Hashable (key : Int32) : Prop := 0 ≤ key.toInt ∨ 32 ∣ key.toInt

/-- The arguments of a call that reaches the table are inside it. Where the test
of the entry's `call` comes first and fails, the key is not used. -/
def Inside (call : Call) (state : State) : Prop :=
  match call with
  | .block uid proc nr => Permitted uid proc → nr.toNat < entries ∧ Hashable proc
  | .unblock uid proc nr =>
      Permitted uid proc →
        nr.toNat < entries ∧ (((startUp state).row nr).call = nr → Hashable proc)
  | .count uid proc nr => uid = 0 → 0 < proc → nr.toNat < entries
  | .findder uid nr => nr.toNat < entries ∧ ((state.row nr).call = nr → Hashable uid)

theorem entry_outside {state : State} {nr : UInt64} (outside : ¬ nr.toNat < entries) :
    state.entry nr = .error (.permList nr) := by
  rw [State.entry, dif_neg outside]

theorem getHashs_nonneg_iff (key : Int32) :
    0 ≤ (getHashs key).toInt ∧ (getHashs key).toInt.toNat < SIZE ↔ Hashable key := by
  rw [getHashs_tmod, Int.tmod_eq_emod]
  unfold Hashable SIZE
  split <;> omega

theorem slot_inside {key : Int32} (hashable : Hashable key) :
    ∃ place, slot (getHashs key) = .ok place :=
  ⟨_, dif_pos ((getHashs_nonneg_iff key).mpr hashable)⟩

theorem slot_outside {key : Int32} (negative : ¬ Hashable key) :
    slot (getHashs key) = .error (.hash (getHashs key)) :=
  dif_neg (mt (getHashs_nonneg_iff key).mp negative)

theorem hashable_of_pos {key : Int32} (positive : 0 < key) : Hashable key :=
  Or.inl (toInt_nonneg (Int32.le_of_lt positive))

theorem holds_inside {key : Int32} (hashable : Hashable key) (row : SysTable) (first : Bool) :
    ∃ present, row.holds first (getHashs key) key = .ok present := by
  obtain ⟨place, found⟩ := slot_inside hashable
  cases first with
  | false => exact ⟨false, rfl⟩
  | true =>
      refine ⟨row.hash place == key, ?_⟩
      rw [SysTable.holds, found]
      rfl

theorem holds_outside {key : Int32} (negative : ¬ Hashable key) (row : SysTable) :
    row.holds true (getHashs key) key = .error (.hash (getHashs key)) := by
  rw [SysTable.holds, slot_outside negative]
  rfl

theorem setHash_inside {key : Int32} (value : Int32) (hashable : Hashable key) (row : SysTable) :
    ∃ written, row.setHash (getHashs key) value = .ok written := by
  obtain ⟨place, found⟩ := slot_inside hashable
  rw [SysTable.setHash, found]
  exact ⟨_, rfl⟩

theorem setHash_outside {key value : Int32} (negative : ¬ Hashable key) (row : SysTable) :
    row.setHash (getHashs key) value = .error (.hash (getHashs key)) := by
  rw [SysTable.setHash, slot_outside negative]
  rfl

/-- The outcome is an answer that leaves the lock free when the arguments are
inside the table, and an access outside an array when they are not. -/
def Settles (outcome : Outcome) (inside : Prop) : Prop :=
  (inside ∧ ∃ answer next, outcome = .ok (answer, next) ∧ Idle next) ∨
    (¬ inside ∧ ∃ fault, outcome = .error fault ∧ fault ≠ .deadlock)

theorem settles_entry {outcome : Outcome} {nr : UInt64} {inside : Prop}
    (within : nr.toNat < entries → Settles outcome inside)
    (outside : ¬ nr.toNat < entries → outcome = .error (.permList nr)) :
    Settles outcome (nr.toNat < entries ∧ inside) := by
  by_cases bound : nr.toNat < entries
  · rcases within bound with ⟨holds, ran⟩ | ⟨fails, ran⟩
    · exact Or.inl ⟨⟨bound, holds⟩, ran⟩
    · exact Or.inr ⟨fun both => fails both.2, ran⟩
  · exact Or.inr ⟨fun both => bound both.1, .permList nr, outside bound, Fault.noConfusion⟩

section Locked

variable {proc : Int32} {nr : UInt64} {state : State}

theorem mutexLock_ok (idle : Idle state) :
    ∃ locked, mutexLock state = .ok locked ∧ ∀ number, locked.row number = state.row number :=
  ⟨_, mutexLock_idle idle, fun _ => rfl⟩

theorem settles_block (idle : Idle state) :
    Settles (blockLocked proc nr state) (nr.toNat < entries ∧ Hashable proc) := by
  obtain ⟨locked, taken, _⟩ := mutexLock_ok idle
  unfold blockLocked
  apply settles_entry
  · intro bound
    simp only [taken, entry_valid bound, setEntry_valid bound, bind, Except.bind, pure, Except.pure]
    by_cases hashable : Hashable proc
    · obtain ⟨present, held⟩ := holds_inside hashable (locked.row nr) ((locked.row nr).call != 999)
      obtain ⟨written, wrote⟩ := setHash_inside proc hashable (locked.row nr)
      refine Or.inl ⟨hashable, ?_⟩
      rw [held, wrote]
      cases present with
      | true => exact ⟨_, _, rfl, rfl⟩
      | false => exact ⟨_, _, rfl, rfl⟩
    · refine Or.inr ⟨hashable, .hash (getHashs proc), ?_, Fault.noConfusion⟩
      rw [setHash_outside hashable]
      cases (locked.row nr).call != 999 with
      | true => rw [holds_outside hashable]
      | false => rfl
  · intro outside
    simp only [taken, entry_outside outside, bind, Except.bind]

theorem settles_unblock (idle : Idle state) :
    Settles (unblockLocked proc nr state)
      (nr.toNat < entries ∧ ((state.row nr).call = nr → Hashable proc)) := by
  obtain ⟨locked, taken, same⟩ := mutexLock_ok idle
  unfold unblockLocked
  rw [← same]
  apply settles_entry
  · intro bound
    simp only [taken, entry_valid bound, setEntry_valid bound, bind, Except.bind, pure, Except.pure]
    by_cases inUse : (locked.row nr).call = nr
    · by_cases hashable : Hashable proc
      · obtain ⟨present, held⟩ := holds_inside hashable (locked.row nr) ((locked.row nr).call == nr)
        obtain ⟨written, wrote⟩ :=
          setHash_inside 0 hashable { locked.row nr with call := 999 }
        refine Or.inl ⟨fun _ => hashable, ?_⟩
        rw [held, wrote]
        cases present with
        | true => exact ⟨_, _, rfl, rfl⟩
        | false => exact ⟨_, _, rfl, rfl⟩
      · refine Or.inr ⟨fun inside => hashable (inside inUse), .hash (getHashs proc), ?_,
          Fault.noConfusion⟩
        rw [beq_iff_eq.mpr inUse, holds_outside hashable]
    · refine Or.inl ⟨fun used => absurd used inUse, ?_⟩
      rw [beq_eq_false_iff_ne.mpr inUse]
      exact ⟨_, _, rfl, rfl⟩
  · intro outside
    simp only [taken, entry_outside outside, bind, Except.bind]

theorem settles_count (idle : Idle state) (positive : 0 < proc) :
    Settles (countLocked proc nr state) (nr.toNat < entries) := by
  obtain ⟨locked, taken, _⟩ := mutexLock_ok idle
  unfold countLocked
  rw [← and_true (nr.toNat < entries)]
  apply settles_entry
  · intro bound
    obtain ⟨present, held⟩ :=
      holds_inside (hashable_of_pos positive) (locked.row nr) ((locked.row nr).call == nr)
    simp only [taken, entry_valid bound, held, bind, Except.bind, pure, Except.pure]
    refine Or.inl ⟨trivial, ?_⟩
    cases present with
    | true => exact ⟨_, _, rfl, rfl⟩
    | false => exact ⟨_, _, rfl, rfl⟩
  · intro outside
    simp only [taken, entry_outside outside, bind, Except.bind]

theorem settles_findder (idle : Idle state) {uid : Int32} :
    Settles (perform (.findder uid nr) state)
      (nr.toNat < entries ∧ ((state.row nr).call = nr → Hashable uid)) := by
  unfold perform findder
  apply settles_entry
  · intro bound
    simp only [entry_valid bound, setEntry_valid bound, bind, Except.bind, pure, Except.pure]
    by_cases inUse : (state.row nr).call = nr
    · by_cases hashable : Hashable uid
      · obtain ⟨present, held⟩ := holds_inside hashable (state.row nr) ((state.row nr).call == nr)
        refine Or.inl ⟨fun _ => hashable, ?_⟩
        rw [held]
        cases present with
        | true => exact ⟨_, _, rfl, idle⟩
        | false => exact ⟨_, _, rfl, idle⟩
      · refine Or.inr ⟨fun inside => hashable (inside inUse), .hash (getHashs uid), ?_,
          Fault.noConfusion⟩
        rw [beq_iff_eq.mpr inUse, holds_outside hashable]
    · refine Or.inl ⟨fun used => absurd used inUse, ?_⟩
      rw [beq_eq_false_iff_ne.mpr inUse]
      exact ⟨_, _, rfl, idle⟩
  · intro outside
    simp only [entry_outside outside, bind, Except.bind]

end Locked

theorem settles_guarded {act : Outcome} {guard inside : Prop} [Decidable guard] {answer : Int64}
    {state : State} (idle : Idle state) (settled : guard → Settles act inside) :
    Settles (if guard then act else .ok (answer, state)) (guard → inside) := by
  by_cases enters : guard
  · rw [if_pos enters]
    rcases settled enters with ⟨within, ran⟩ | ⟨outside, ran⟩
    · exact Or.inl ⟨fun _ => within, ran⟩
    · exact Or.inr ⟨fun within => outside (within enters), ran⟩
  · rw [if_neg enters]
    exact Or.inl ⟨fun entered => absurd entered enters, answer, state, rfl, idle⟩

theorem settles_perform (call : Call) {state : State} (idle : Idle state) :
    Settles (perform call state) (Inside call state) := by
  have ready := startUp_idle idle
  cases call with
  | block uid proc nr =>
      simp only [perform, sbx421Block, ite_permitted, Inside]
      exact settles_guarded ready (fun _ => settles_block ready)
  | unblock uid proc nr =>
      simp only [perform, sbx421Unblock, ite_permitted, Inside]
      exact settles_guarded ready (fun _ => settles_unblock ready)
  | count uid proc nr =>
      rw [perform_count]
      simp only [Inside, ← and_imp]
      exact settles_guarded ready (fun asks => settles_count ready asks.2)
  | findder uid nr => exact settles_findder idle

theorem idle_of_exec {calls : List Call} {log : History Call Int64} {state : State}
    (ran : exec perform boot calls = .ok (log, state)) : Idle state := by
  have free : Idle boot := rfl
  refine invariant_exec (fun _ state => Idle state) free ?_ ran
  intro _ before call answer next idle stepped
  rcases settles_perform call idle with ⟨_, _, _, same, free⟩ | ⟨_, _, faulted, _⟩
  · rw [stepped] at same
    cases same
    exact free
  · rw [stepped] at faulted
    cases faulted

/-- In every state that calls with arbitrary arguments reach from boot, a call
stays inside both arrays exactly when its arguments are inside the table. -/
theorem inBounds_iff_inside (prior : List Call) (log : History Call Int64) (state : State)
    (ran : exec perform boot prior = .ok (log, state)) (call : Call) :
    InBounds call state ↔ Inside call state := by
  rcases settles_perform call (idle_of_exec ran) with
    ⟨inside, _, _, answered, _⟩ | ⟨outside, fault, faulted, notLock⟩
  · refine iff_of_true ?_ inside
    intro fault faulted
    rw [answered] at faulted
    cases faulted
  · exact iff_of_false (fun within => notLock (within fault faulted)) outside

theorem inBounds_iff_inside_boot : InBounds (.findder (-1) 436) boot := by
  have unused : (boot.row 436).call ≠ 436 := (by decide : (0 : UInt64) ≠ 436)
  exact (inBounds_iff_inside [] [] boot rfl (.findder (-1) 436)).mpr
    ⟨by decide, fun used => absurd used unused⟩

/-- Before any sandbox call, the hook reads the table at the first system call
number past its end. -/
theorem hook_out_of_bounds :
    ¬ ∀ (prior : List Call) (log : History Call Int64) (state : State),
      exec perform boot prior = .ok (log, state) → ∀ call, InBounds call state := by
  intro within
  have faulted : perform (.findder 1000 437) boot = .error (.permList 437) := rfl
  exact absurd (within [] [] boot rfl _ _ faulted) (by decide)

end CS421.Sandbox
