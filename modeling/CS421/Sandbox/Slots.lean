/-
The representation invariant of the table: a slot holds nothing, or a uid whose
remainder is the number of the slot. A lookup may then ask one slot only.

The hook is taken with any `getHash` here: it writes no slot, wherever it looks.
-/

import CS421.Sandbox.History

set_option autoImplicit false

namespace CS421.Sandbox

open Runs

/-- A call, with the `getHash` of the hook left open. -/
def performWith (getHash : Int32 → Int32) : Call → State → Outcome
  | .findder uid nr, state => do
      let (answer, state) ← findder getHash uid nr state
      pure (answer.toInt64, state)
  | call, state => perform call state

def stepWith (getHash : Int32 → Int32) : Machine State Request Int64 Fault :=
  fun request => performWith getHash request.1

def SysTable.Filed (row : SysTable) : Prop :=
  ∀ i : Fin SIZE, row.hash i = 0 ∨ (0 ≤ row.hash i ∧ (row.hash i % 32).toInt = i.val)

/-- The uid is in one slot of the entry at most, and the probe at its hash sees
it when it is in any. -/
def SysTable.FoundByProbe (row : SysTable) (uid : Int32) : Prop :=
  (∀ i j : Fin SIZE, row.hash i = uid → row.hash j = uid → i = j) ∧
    ∀ i : Fin SIZE, row.hash i = uid → slot (getHashs uid) = .ok i

theorem getHashs_eq (key : Int32) : getHashs key = key % 32 := by
  unfold getHashs
  rfl

theorem slotOf_eq_iff {key : Int32} (nonneg : 0 ≤ key) (i : Fin SIZE) :
    slotOf key = i ↔ (key % 32).toInt = i.val := by
  have place := getHashs_toInt nonneg
  have low := toInt_nonneg nonneg
  rw [getHashs_eq] at place
  rw [place, slotOf, Fin.ext_iff]
  dsimp only
  omega

theorem SysTable.Filed.foundByProbe {row : SysTable} (filed : row.Filed) {uid : Int32}
    (user : uid ≠ 0) : row.FoundByProbe uid := by
  have home : ∀ i : Fin SIZE, row.hash i = uid → 0 ≤ uid ∧ slotOf uid = i := by
    intro i stored
    rcases filed i with empty | ⟨nonneg, place⟩
    · exact absurd (stored.symm.trans empty) user
    · rw [stored] at nonneg place
      exact ⟨nonneg, (slotOf_eq_iff nonneg i).mpr place⟩
  constructor
  · intro i j first second
    exact (home i first).2.symm.trans (home j second).2
  · intro i stored
    obtain ⟨nonneg, place⟩ := home i stored
    rw [slot_getHashs nonneg, place]

theorem SysTable.Filed.of_hash {row other : SysTable} (filed : row.Filed)
    (same : other.hash = row.hash) : other.Filed := by
  unfold SysTable.Filed
  rw [same]
  exact filed

theorem SysTable.Filed.update {row other : SysTable} {key value : Int32} (filed : row.Filed)
    (fits : value = 0 ∨ (0 ≤ key ∧ value = key))
    (written : other.hash = Function.update row.hash (slotOf key) value) : other.Filed := by
  intro i
  rw [written]
  by_cases here : i = slotOf key
  · subst i
    rw [Function.update_self]
    rcases fits with empty | ⟨nonneg, rfl⟩
    · exact Or.inl empty
    · exact Or.inr ⟨nonneg, (slotOf_eq_iff nonneg _).mp rfl⟩
  · rw [Function.update_of_ne here]
    exact filed i

theorem SysTable.Filed.onRow {call : Call} {row : SysTable} (nonneg : 0 ≤ call.key)
    (filed : row.Filed) : (call.onRow row).2.Filed := by
  cases call with
  | block uid proc nr =>
      simp only [Call.onRow, blockRow]
      split
      · split
        · exact filed.of_hash rfl
        · exact filed.update (Or.inr ⟨nonneg, rfl⟩) rfl
      · exact filed
  | unblock uid proc nr =>
      simp only [Call.onRow, unblockRow]
      split
      · split
        · exact filed.update (Or.inl rfl) rfl
        · exact filed
      · exact filed
  | count uid proc nr =>
      rw [onRow_count]
      exact filed
  | findder uid nr =>
      simp only [Call.onRow, findderRow]
      split
      · exact filed.of_hash rfl
      · exact filed

def Filed (state : State) : Prop := ∀ n, (state.permList n).Filed

theorem filed_boot : Filed boot := fun _ _ => Or.inl rfl

theorem Filed.startUp {state : State} (filed : Filed state) : Filed (startUp state) := by
  intro n
  by_cases unset : state.started = 0
  · rw [Sandbox.startUp, if_pos (beq_iff_eq.mpr unset)]
    dsimp only
    rw [initalizeHash_permList]
    have same : (state.permList n).initalize.hash = (state.permList n).hash := rfl
    exact (filed n).of_hash same
  · rw [startUp_of_started unset]
    exact filed n

theorem Filed.withRow {state : State} (filed : Filed state) {nr : UInt64} {row : SysTable}
    (own : row.Filed) (lock : Mutex) : Filed (state.withRow nr row lock) := by
  intro n
  unfold State.withRow
  dsimp only
  by_cases here : n = entryOf nr
  · rw [here, Function.update_self]
    exact own
  · rw [Function.update_of_ne here]
    exact filed n

theorem Filed.ready {call : Call} {state : State} (filed : Filed state) :
    Filed (call.ready state) := by
  cases call with
  | findder uid nr => exact filed
  | block uid proc nr => exact filed.startUp
  | unblock uid proc nr => exact filed.startUp
  | count uid proc nr => exact filed.startUp

theorem Filed.perform {call : Call} {state next : State} {answer : Int64} (valid : call.Valid)
    (idle : Idle state) (filed : Filed state)
    (ran : perform call state = .ok (answer, next)) : Filed next := by
  rw [perform_valid valid idle] at ran
  obtain ⟨_, rfl⟩ := Prod.mk.inj (Except.ok.inj ran)
  have ready : Filed (call.ready state) := filed.ready
  exact ready.withRow ((ready (entryOf call.nr)).onRow valid.1) _

theorem findder_effect {getHash : Int32 → Int32} {uid answer : Int32} {nr : UInt64}
    {state next : State} (bound : nr.toNat < entries)
    (ran : findder getHash uid nr state = .ok (answer, next)) :
    (answer = 0 ∧ next = state) ∨
      (answer = 1 ∧ next = state.withRow nr (state.row nr).reported state.lockTable) := by
  unfold findder at ran
  simp only [entry_valid bound, setEntry_valid bound, bind, Except.bind, pure, Except.pure] at ran
  cases looked : (state.row nr).holds ((state.row nr).call == nr) (getHash uid) uid with
  | error fault =>
      rw [looked] at ran
      cases ran
  | ok found =>
      rw [looked] at ran
      cases found with
      | true =>
          cases ran
          exact Or.inr ⟨rfl, rfl⟩
      | false =>
          cases ran
          exact Or.inl ⟨rfl, rfl⟩

theorem Filed.stepWith {getHash : Int32 → Int32} {request : Request} {state next : State}
    {answer : Int64} (kept : Idle state ∧ Filed state)
    (ran : stepWith getHash request state = .ok (answer, next)) : Idle next ∧ Filed next := by
  obtain ⟨idle, filed⟩ := kept
  rcases request with ⟨call, valid⟩
  unfold Sandbox.stepWith at ran
  cases call with
  | findder uid nr =>
      simp only [performWith, bind, Except.bind, pure, Except.pure] at ran
      cases looked : findder getHash uid nr state with
      | error fault =>
          rw [looked] at ran
          cases ran
      | ok out =>
          rw [looked] at ran
          obtain ⟨_, rfl⟩ := Prod.mk.inj (Except.ok.inj ran)
          rcases findder_effect valid.2 looked with ⟨_, same⟩ | ⟨_, same⟩
          · rw [same]
            exact ⟨idle, filed⟩
          · rw [same]
            have reported : (state.row nr).reported.Filed := (filed (entryOf nr)).of_hash rfl
            exact ⟨idle, filed.withRow reported _⟩
  | block uid proc nr =>
      have moved : step ⟨.block uid proc nr, valid⟩ state = .ok (answer, next) := ran
      exact ⟨idle_of_step idle moved, filed.perform valid idle moved⟩
  | unblock uid proc nr =>
      have moved : step ⟨.unblock uid proc nr, valid⟩ state = .ok (answer, next) := ran
      exact ⟨idle_of_step idle moved, filed.perform valid idle moved⟩
  | count uid proc nr =>
      have moved : step ⟨.count uid proc nr, valid⟩ state = .ok (answer, next) := ran
      exact ⟨idle_of_step idle moved, filed.perform valid idle moved⟩

theorem filed_of_exec {getHash : Int32 → Int32} {calls : List Request} {log : Log} {state : State}
    (ran : exec (stepWith getHash) boot calls = .ok (log, state)) : Idle state ∧ Filed state := by
  have free : Idle boot := rfl
  exact invariant_exec (fun _ state => Idle state ∧ Filed state) ⟨free, filed_boot⟩
    (fun _ _ _ _ _ kept stepped => Filed.stepWith kept stepped) ran

/-- In every state that a run of valid calls reaches from boot, each slot holds
0 or a uid of its own remainder, so that one probe decides whether an entry
stores a uid. -/
theorem slots_filed (getHash : Int32 → Int32) (calls : List Request) :
    Always (stepWith getHash) boot calls (fun _ state =>
      ∀ n : Fin entries, (state.permList n).Filed ∧
        ∀ uid : Int32, uid ≠ 0 → (state.permList n).FoundByProbe uid) := by
  intro prior _ log state ran n
  have filed := (filed_of_exec ran).2 n
  exact ⟨filed, fun uid user => filed.foundByProbe user⟩

end CS421.Sandbox
