/-
What `sbx421_count` answers for a standing block.

The tally of a pair starts at 0 with the block that was answered with 0 and
grows with every report of `findder` and every repeated block of that pair.
The table keeps one counter for all the uids of a system call, so the counter
equals the tally only while nobody else uses the entry.
-/

import CS421.Sandbox.History

set_option autoImplicit false

namespace CS421.Sandbox

open Runs

def tallyAfter (key : Int32) (nr : UInt64) (before : Nat) : Request × Int64 → Nat
  | (⟨.block _ proc number, _⟩, answer) =>
      if proc = key ∧ number = nr then
        if answer = 0 then 0 else if answer = -EEXIST then before + 1 else before
      else before
  | (⟨.findder uid number, _⟩, answer) =>
      if uid = key ∧ number = nr ∧ answer = 1 then before + 1 else before
  | _ => before

/-- Reports and repeated blocks of the pair since it was blocked last. -/
def tally (key : Int32) (nr : UInt64) (log : Log) : Nat :=
  log.foldl (tallyAfter key nr) 0

section Tally

variable {key proc : Int32} {nr number : UInt64} {log : Log} {uid : UInt32} {answer : Int64}

theorem tally_accepted {valid : (Call.block uid key nr).Valid} :
    tally key nr (log ++ [(⟨.block uid key nr, valid⟩, 0)]) = 0 := by
  simp [tally, tallyAfter]

theorem tally_block_denied {valid : (Call.block uid proc number).Valid} :
    tally key nr (log ++ [(⟨.block uid proc number, valid⟩, -EPERM)]) = tally key nr log := by
  simp [tally, tallyAfter, (by decide : -EPERM ≠ 0), (by decide : -EPERM ≠ -EEXIST)]

theorem tally_block_other {valid : (Call.block uid proc number).Valid}
    (apart : ¬ (proc = key ∧ number = nr)) :
    tally key nr (log ++ [(⟨.block uid proc number, valid⟩, answer)]) = tally key nr log := by
  simp [tally, tallyAfter, apart]

theorem tally_unblock {valid : (Call.unblock uid proc number).Valid} :
    tally key nr (log ++ [(⟨.unblock uid proc number, valid⟩, answer)]) = tally key nr log := by
  simp [tally, tallyAfter]

theorem tally_count {valid : (Call.count uid proc number).Valid} :
    tally key nr (log ++ [(⟨.count uid proc number, valid⟩, answer)]) = tally key nr log := by
  simp [tally, tallyAfter]

theorem tally_reported {valid : (Call.findder key nr).Valid} :
    tally key nr (log ++ [(⟨.findder key nr, valid⟩, 1)]) = tally key nr log + 1 := by
  simp [tally, tallyAfter]

theorem tally_findder_other {valid : (Call.findder proc number).Valid}
    (apart : ¬ (proc = key ∧ number = nr ∧ answer = 1)) :
    tally key nr (log ++ [(⟨.findder proc number, valid⟩, answer)]) = tally key nr log := by
  simp only [tally, List.foldl_append, List.foldl_cons, List.foldl_nil, tallyAfter, if_neg apart]

end Tally

def Accounted (key : Int32) (nr : UInt64) (log : Log) (state : State) : Prop :=
  Standing key nr log → ∃ answer next,
    sbx421Count 0 key nr state = .ok (answer, next) ∧ answer.toInt = tally key nr log

theorem narrow_toInt (count : UInt64) :
    (narrow count).toInt = (count.toNat : Int).bmod (2 ^ 32) := by
  have low : count.toUInt32.toNat = count.toNat % 2 ^ 32 := UInt64.toNat_toUInt32 count
  have read : count.toUInt32.toInt32.toInt = (count.toUInt32.toNat : Int).bmod (2 ^ 32) :=
    BitVec.toInt_eq_toNat_bmod count.toUInt32.toBitVec
  rw [narrow, Int32.toInt_toInt64, read, low, Int.natCast_emod]
  exact Int.emod_bmod _ _

theorem narrow_eq_iff {count : UInt64} (near : count.toNat ≤ 2 ^ 31) (total : Nat) :
    (narrow count).toInt = total ↔ count.toNat = total ∧ total < 2 ^ 31 := by
  rw [narrow_toInt, Int.bmod_def]
  omega

structure Tallied (key : Int32) (nr : UInt64) (row : SysTable) (total : Nat) : Prop where
  lists : row.Lists key nr
  counted : row.count.toNat = total
  small : total < 2 ^ 31

theorem counted_iff {state : State} {key : Int32} {nr : UInt64} {total : Nat}
    (idle : Idle state) (initialised : state.started ≠ 0) (user : 0 < key)
    (bound : nr.toNat < entries) (near : (state.row nr).count.toNat ≤ 2 ^ 31) :
    (∃ answer next, sbx421Count 0 key nr state = .ok (answer, next) ∧ answer.toInt = total) ↔
      Tallied key nr (state.row nr) total := by
  have valid : (Call.count 0 key nr).Valid := ⟨Int32.le_of_lt user, bound⟩
  obtain ⟨after, asked⟩ : ∃ after, sbx421Count 0 key nr state =
      .ok ((countRow key nr (state.row nr)).1, after) := by
    have answered := perform_valid valid idle
    simp only [Call.onRow, Call.ready, Call.nr, startUp_of_started initialised, if_pos user,
      if_true] at answered
    exact ⟨_, answered⟩
  rw [asked]
  unfold countRow
  by_cases lists : (state.row nr).Lists key nr
  · rw [if_pos lists]
    constructor
    · intro answered
      obtain ⟨answer, next, same, told⟩ := answered
      obtain ⟨rfl, _⟩ := Prod.mk.inj (Except.ok.inj same)
      obtain ⟨counted, small⟩ := (narrow_eq_iff near total).mp told
      exact ⟨lists, counted, small⟩
    · intro tallied
      exact ⟨_, _, rfl, (narrow_eq_iff near total).mpr ⟨tallied.counted, tallied.small⟩⟩
  · rw [if_neg lists]
    constructor
    · intro answered
      obtain ⟨answer, next, same, told⟩ := answered
      obtain ⟨rfl, _⟩ := Prod.mk.inj (Except.ok.inj same)
      have negative : (-EEXIST).toInt = -17 := by decide
      rw [negative] at told
      omega
    · intro tallied
      exact absurd tallied.lists lists

/-- While the pair is blocked, the call leaves its counter to it: no block of
the entry is answered with `-EEXIST`, none takes the slot of the pair or resets
a counter that has moved, no other uid of the entry is unblocked or reported,
and the counter stays below 2^31. -/
def Counts (key : Int32) (nr : UInt64) (log : Log) (state : State) (request : Request) : Prop :=
  Standing key nr log →
    match request.1 with
    | .block uid proc number =>
        number = nr → Permitted uid proc →
          ¬ (state.row nr).Refuses proc ∧ slotOf proc ≠ slotOf key ∧ tally key nr log = 0
    | .unblock uid proc number =>
        number = nr → Permitted uid proc → (state.row nr).Lists proc nr → proc = key
    | .findder uid number =>
        number = nr → (state.row nr).Lists uid nr → uid = key ∧ tally key nr log + 1 < 2 ^ 31
    | .count _ _ _ => True

theorem counts_elsewhere {key : Int32} {nr : UInt64} {log : Log} {state : State}
    {request : Request} (apart : request.1.nr ≠ nr) : Counts key nr log state request := by
  intro _
  rcases request with ⟨call, valid⟩
  cases call with
  | block uid proc number => exact fun own => absurd own apart
  | unblock uid proc number => exact fun own => absurd own apart
  | count uid proc number => exact trivial
  | findder uid number => exact fun own => absurd own apart

structure Accounts (key : Int32) (nr : UInt64) (log : Log) (state : State) : Prop where
  idle : Idle state
  initialised : state.started ≠ 0
  tallied : Standing key nr log → Tallied key nr (state.row nr) (tally key nr log)

theorem Accounts.accounted {key : Int32} {nr : UInt64} {log : Log} {state : State}
    (user : 0 < key) (bound : nr.toNat < entries) (accounts : Accounts key nr log state) :
    Accounted key nr log state := by
  intro stands
  have tallied := accounts.tallied stands
  have near : (state.row nr).count.toNat ≤ 2 ^ 31 := by
    have counted := tallied.counted
    have small := tallied.small
    omega
  exact (counted_iff accounts.idle accounts.initialised user bound near).mpr tallied

section Step

variable {key : Int32} {nr : UInt64} {log : Log} {state next : State}

def AccountedAfter (key : Int32) (nr : UInt64) (later : Log) (next : State) : Prop :=
  Standing key nr later → Tallied key nr (next.row nr) (tally key nr later)

private theorem after_same {later : Log} (tallied : Tallied key nr (state.row nr) (tally key nr log))
    (same : next.row nr = state.row nr) (total : tally key nr later = tally key nr log) :
    AccountedAfter key nr later next := by
  intro _
  rw [same, total]
  exact tallied

private theorem after_accepted {uid : UInt32} {proc : Int32}
    (valid : (Call.block uid proc nr).Valid) (bound : nr.toNat < entries)
    (permitted : Permitted uid proc) (stood : Standing key nr log)
    (tallied : Tallied key nr (state.row nr) (tally key nr log))
    (accepts : ¬ (state.row nr).Refuses proc)
    (own : next.row nr = (state.row nr).accepted proc nr) :
    AccountedAfter key nr (log ++ [(⟨.block uid proc nr, valid⟩, 0)]) next ↔
      Counts key nr log state ⟨.block uid proc nr, valid⟩ := by
  have apart : proc ≠ key := by
    intro same
    subst proc
    obtain ⟨inUse, held⟩ := tallied.lists
    exact accepts ⟨fun reset => nr_ne_unset bound (inUse.symm.trans reset), held⟩
  have total : tally key nr (log ++ [(⟨.block uid proc nr, valid⟩, 0)]) = tally key nr log :=
    tally_block_other (fun same => apart same.1)
  constructor
  · intro after _ _ _
    have later := after (standing_block.mpr (Or.inl stood))
    rw [own, total] at later
    refine ⟨accepts, ?_, later.counted.symm⟩
    intro place
    have held := later.lists.2
    simp only [SysTable.accepted, place, Function.update_self] at held
    exact apart held
  · intro counts _
    obtain ⟨_, place, zero⟩ := counts stood rfl permitted
    have kept : Function.update (state.row nr).hash (slotOf proc) proc (slotOf key) = key :=
      (Function.update_of_ne place.symm proc (state.row nr).hash).trans tallied.lists.2
    rw [own, total, zero]
    exact ⟨⟨rfl, kept⟩, rfl, by decide⟩

private theorem after_released {uid : UInt32} {proc : Int32}
    (valid : (Call.unblock uid proc nr).Valid) (bound : nr.toNat < entries)
    (permitted : Permitted uid proc) (stood : Standing key nr log)
    (lists : (state.row nr).Lists proc nr)
    (own : next.row nr = (state.row nr).released proc) :
    AccountedAfter key nr (log ++ [(⟨.unblock uid proc nr, valid⟩, 0)]) next ↔
      Counts key nr log state ⟨.unblock uid proc nr, valid⟩ := by
  constructor
  · intro after _ _ _ _
    by_contra apart
    have later := after (standing_unblock.mpr ⟨stood, fun this => apart this.1⟩)
    rw [own] at later
    exact nr_ne_unset bound later.lists.1.symm
  · intro counts stands
    have same : proc = key := counts stood rfl permitted lists
    exact absurd ⟨same, rfl, rfl⟩ (standing_unblock.mp stands).2

private theorem after_hit {uid : Int32} (valid : (Call.findder uid nr).Valid)
    (stood : Standing key nr log) (tallied : Tallied key nr (state.row nr) (tally key nr log))
    (lists : (state.row nr).Lists uid nr) (own : next.row nr = (state.row nr).reported) :
    AccountedAfter key nr (log ++ [(⟨.findder uid nr, valid⟩, 1)]) next ↔
      Counts key nr log state ⟨.findder uid nr, valid⟩ := by
  have counted := tallied.counted
  have small := tallied.small
  have moved : (state.row nr).reported.count.toNat = tally key nr log + 1 := by
    have sum : (state.row nr).reported.count.toNat = ((state.row nr).count.toNat + 1) % 2 ^ 64 :=
      UInt64.toNat_add (state.row nr).count 1
    omega
  constructor
  · intro after _ _ _
    have later := after (standing_findder.mpr stood)
    rw [own] at later
    by_cases same : uid = key
    · subst uid
      rw [tally_reported] at later
      exact ⟨rfl, later.small⟩
    · rw [tally_findder_other (fun this => same this.1)] at later
      have equal := later.counted
      omega
  · intro counts _
    obtain ⟨rfl, room⟩ := counts stood rfl lists
    rw [own, tally_reported]
    exact ⟨tallied.lists, moved, room⟩

theorem accountedAfter_iff {request : Request} {answer : Int64} (bound : nr.toNat < entries)
    (initialised : state.started ≠ 0) (stood : Standing key nr log)
    (tallied : Tallied key nr (state.row nr) (tally key nr log))
    (effect : Effect state next request answer) :
    AccountedAfter key nr (log ++ [(request, answer)]) next ↔ Counts key nr log state request := by
  have ready := startUp_of_started initialised
  cases effect with
  | @accepted uid proc number valid permitted accepts writes =>
      rw [ready] at accepts writes
      by_cases own : nr = number
      · subst number
        exact after_accepted valid bound permitted stood tallied accepts writes.own
      · have total : tally key nr (log ++ [(⟨.block uid proc number, valid⟩, 0)]) =
            tally key nr log := tally_block_other (fun same => own same.2.symm)
        exact iff_of_true (after_same tallied (writes.other nr bound own) total)
          (counts_elsewhere (Ne.symm own))
  | @repeated uid proc number valid permitted refuses writes =>
      rw [ready] at refuses writes
      by_cases own : nr = number
      · subst number
        refine iff_of_false ?_ (fun counts => (counts stood rfl permitted).1 refuses)
        intro after
        have moved := (after (standing_block.mpr (Or.inl stood))).lists.1
        rw [writes.own] at moved
        exact (state.row nr).repeated_call_ne (moved.trans tallied.lists.1.symm)
      · have total : tally key nr (log ++ [(⟨.block uid proc number, valid⟩, -EEXIST)]) =
            tally key nr log := tally_block_other (fun same => own same.2.symm)
        exact iff_of_true (after_same tallied (writes.other nr bound own) total)
          (counts_elsewhere (Ne.symm own))
  | @blockDenied uid proc number valid denied writes =>
      rw [ready] at writes
      exact iff_of_true (after_same tallied (writes.row_self bound) tally_block_denied)
        (fun _ _ permitted => absurd permitted denied)
  | @released uid proc number valid permitted lists writes =>
      rw [ready] at lists writes
      by_cases own : nr = number
      · subst number
        exact after_released valid bound permitted stood lists writes.own
      · exact iff_of_true (after_same tallied (writes.other nr bound own) tally_unblock)
          (counts_elsewhere (Ne.symm own))
  | absent valid permitted lacks writes =>
      rw [ready] at lacks writes
      exact iff_of_true (after_same tallied (writes.row_self bound) tally_unblock)
        (fun _ own _ lists => absurd (own ▸ lists) lacks)
  | unblockDenied valid denied writes =>
      rw [ready] at writes
      exact iff_of_true (after_same tallied (writes.row_self bound) tally_unblock)
        (fun _ _ permitted => absurd permitted denied)
  | asked valid writes =>
      rw [ready] at writes
      exact iff_of_true (after_same tallied (writes.row_self bound) tally_count) (fun _ => trivial)
  | @hit uid number valid lists writes =>
      by_cases own : nr = number
      · subst number
        exact after_hit valid stood tallied lists writes.own
      · have total : tally key nr (log ++ [(⟨.findder uid number, valid⟩, 1)]) =
            tally key nr log := tally_findder_other (fun same => own same.2.1.symm)
        exact iff_of_true (after_same tallied (writes.other nr bound own) total)
          (counts_elsewhere (Ne.symm own))
  | @miss uid number valid lacks writes =>
      have total : tally key nr (log ++ [(⟨.findder uid number, valid⟩, 0)]) = tally key nr log :=
        tally_findder_other (fun same => absurd same.2.2 (by decide))
      exact iff_of_true (after_same tallied (writes.row_self bound) total)
        (fun _ own lists => absurd (own ▸ lists) lacks)

theorem accountedAfter_of_not_standing {request : Request} {answer : Int64}
    (initialised : state.started ≠ 0) (free : ¬ Standing key nr log)
    (effect : Effect state next request answer) :
    AccountedAfter key nr (log ++ [(request, answer)]) next := by
  intro stands
  have ready := startUp_of_started initialised
  cases effect.change log with
  | accepted valid permitted accepts writes =>
      rw [ready] at writes
      obtain ⟨rfl, rfl, _⟩ := (standing_block.mp stands).resolve_left free
      rw [writes.own, tally_accepted]
      exact ⟨⟨rfl, Function.update_self _ _ _⟩, rfl, by decide⟩
  | repeated valid permitted refuses writes =>
      have answered := ((standing_block.mp stands).resolve_left free).2.2
      exact absurd answered (by decide)
  | released valid permitted lists writes =>
      exact absurd (standing_unblock.mp stands).1 free
  | quiet from_state writes call hash same =>
      exact absurd ((same key nr).mp stands) free

private theorem count_le_of_writes {base : State} {number : UInt64} {row : SysTable}
    (bound : nr.toNat < entries) (writes : Writes base number row next)
    (grows : row.count.toNat ≤ (base.row number).count.toNat + 1) :
    (next.row nr).count.toNat ≤ (base.row nr).count.toNat + 1 := by
  by_cases own : nr = number
  · subst number
    rw [writes.own]
    exact grows
  · rw [writes.other nr bound own]
    exact Nat.le_succ _

theorem count_step_le {request : Request} {answer : Int64} (bound : nr.toNat < entries)
    (initialised : state.started ≠ 0) (effect : Effect state next request answer) :
    (next.row nr).count.toNat ≤ (state.row nr).count.toNat + 1 := by
  rw [← congrArg (fun base => (State.row base nr).count.toNat) (startUp_of_started initialised)]
  cases effect with
  | accepted valid permitted accepts writes =>
      exact count_le_of_writes bound writes (Nat.zero_le _)
  | repeated valid permitted refuses writes =>
      exact count_le_of_writes bound writes (Nat.le_succ _)
  | blockDenied valid denied writes =>
      exact count_le_of_writes bound writes (Nat.le_succ _)
  | released valid permitted lists writes =>
      exact count_le_of_writes bound writes (Nat.le_succ _)
  | absent valid permitted lacks writes =>
      exact count_le_of_writes bound writes (Nat.le_succ _)
  | unblockDenied valid denied writes =>
      exact count_le_of_writes bound writes (Nat.le_succ _)
  | asked valid writes =>
      exact count_le_of_writes bound writes (Nat.le_succ _)
  | @hit uid number valid lists writes =>
      rw [startUp_of_started initialised]
      have sum : (state.row number).reported.count.toNat =
          ((state.row number).count.toNat + 1) % 2 ^ 64 :=
        UInt64.toNat_add (state.row number).count 1
      have grows : (state.row number).reported.count.toNat ≤
          (state.row number).count.toNat + 1 := by
        rw [sum]
        exact Nat.mod_le _ _
      exact count_le_of_writes bound writes grows
  | miss valid lacks writes =>
      rw [startUp_of_started initialised]
      exact count_le_of_writes bound writes (Nat.le_succ _)

theorem accounts_step {request : Request} {answer : Int64} (bound : nr.toNat < entries)
    (accounts : Accounts key nr log state) (counts : Counts key nr log state request)
    (effect : Effect state next request answer) :
    Accounts key nr (log ++ [(request, answer)]) next := by
  obtain ⟨idle, initialised⟩ := effect.initialised accounts.initialised
  refine ⟨idle, initialised, ?_⟩
  by_cases stood : Standing key nr log
  · have tallied := accounts.tallied stood
    exact (accountedAfter_iff bound accounts.initialised stood tallied effect).mpr counts
  · exact accountedAfter_of_not_standing accounts.initialised stood effect

theorem miscounted_step {request : Request} {answer : Int64} (user : 0 < key)
    (bound : nr.toNat < entries) (accounts : Accounts key nr log state)
    (disturbs : ¬ Counts key nr log state request) (effect : Effect state next request answer) :
    ¬ Accounted key nr (log ++ [(request, answer)]) next := by
  have stood : Standing key nr log := by
    by_contra free
    exact disturbs (fun stands => absurd stands free)
  have tallied := accounts.tallied stood
  have near : (next.row nr).count.toNat ≤ 2 ^ 31 := by
    have grows := count_step_le bound accounts.initialised effect
    have counted := tallied.counted
    have small := tallied.small
    omega
  obtain ⟨idle, initialised⟩ := effect.initialised accounts.initialised
  intro accounted
  apply disturbs
  apply (accountedAfter_iff bound accounts.initialised stood tallied effect).mp
  intro stands
  exact (counted_iff idle initialised user bound near).mp (accounted stands)

end Step

/-- From an initialised table on, root is told the tally of a pair at every
moment of a run at which the pair is blocked, exactly when each call of the run
leaves the counter to the pair while it is blocked. -/
theorem accounted_iff_counts (start : State) (idle : Idle start) (initialised : start.started ≠ 0)
    (key : Int32) (nr : UInt64) (user : 0 < key) (bound : nr.toNat < entries)
    (calls : List Request) :
    Always step start calls (Accounted key nr) ↔ EveryStep step start calls (Counts key nr) :=
  always_iff_everyStep (Accounts key nr)
    { idle := idle
      initialised := initialised
      tallied := fun stands => absurd stands (not_standing_nil key nr) }
    (fun _ _ _ _ _ accounts counts ran =>
      accounts_step bound accounts counts (effect_of_step accounts.idle ran))
    (fun _ _ accounts => accounts.accounted user bound)
    (fun _ _ request accounts disturbs => by
      have ran := step_eq request accounts.idle
      have effect := effect_of_step accounts.idle ran
      exact ⟨_, _, ran, miscounted_step user bound accounts disturbs effect⟩)
    calls

/-- The second block of a pair is answered with `-EEXIST` and should be counted;
it moves `call` instead, and count then answers `-EEXIST` as well. -/
theorem repeated_block_not_counted :
    ¬ Always step (startUp boot)
      [⟨.block 0 5 44, by decide⟩, ⟨.block 0 5 44, by decide⟩] (Accounted 5 44) := by
  refine not_always_of_endsWith
    (fun log state => decide (Standing 5 44 log) &&
      match sbx421Count 0 5 44 state with
      | .ok (answer, _) => answer == -EEXIST
      | .error _ => false) ?_ (by decide +kernel)
  intro log state check accounted
  obtain ⟨stands, answers⟩ := (Bool.and_eq_true _ _).mp check
  obtain ⟨answer, next, told, total⟩ := accounted (of_decide_eq_true stands)
  rw [told] at answers
  have negative : answer.toInt = -17 := by
    rw [beq_iff_eq.mp answers]
    decide
  omega

theorem accounted_iff_counts_reported :
    Always step (startUp boot)
        [⟨.block 0 5 44, by decide⟩, ⟨.findder 5 44, by decide⟩] (Accounted 5 44) ↔
      EveryStep step (startUp boot)
        [⟨.block 0 5 44, by decide⟩, ⟨.findder 5 44, by decide⟩] (Counts 5 44) :=
  accounted_iff_counts (startUp boot) (startUp_idle rfl) (startUp_started boot) 5 44 (by decide)
    (by decide) _

end CS421.Sandbox
