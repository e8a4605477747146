/-
Which calls store where they were given no memory.

Line 430 asks for the size of a pointer, so a send that succeeds stores past the
end of its block, unless the block is larger than was asked for. And a receive
that finds a count but no message unlinks and frees memory around the list head
itself. No other call does either.
-/

import CS421.Mail.Edits

set_option autoImplicit false

namespace CS421.Mail

open Runs

/-- The loop stores only where it was given memory. -/
def Body.Contained (store : Store) : Body → Prop
  | .send id _ _ memory => ∀ box, store.find id = some box → memory.Succeeds → memory.Fits
  | .recv id _ _ => ∀ box, store.find id = some box → box.messages = [] → box.count = 0

def Operation.Contained (store : Store) : Operation → Prop
  | .body call => call.Contained store
  | _ => True

/-- The loops of a send and a receive are entered when their tests have passed
and `mail` is a list. -/
def Syscall.Contained (uid : UInt64) (service : Service) : Syscall → Prop
  | .send id msg len memory =>
      ∀ nonneg, service.linked = true → sendChecks uid id len service.store = true →
        (Body.send id msg ⟨len, nonneg⟩ memory).Contained service.store
  | .recv id msg len =>
      service.linked = true → recvChecks uid id service.store = true →
        (Body.recv id msg len).Contained service.store
  | _ => True

/-- A walk that meets a poison pointer only reads through it. -/
def Trap.Damages : Trap → Prop
  | .poison => False
  | .fault reason => reason.Damages

def Spared {Answer : Type} (outcome : Except Fault Answer) : Prop :=
  ∀ fault, outcome = .error fault → ¬ fault.Damages

theorem spared_ok {Answer : Type} (answer : Answer) : Spared (.ok answer) := by
  intro fault ended
  cases ended

theorem spared_plain_iff {outcome : Outcome} : Spared (plain outcome) ↔ Spared outcome := by
  cases outcome with
  | error fault => simp [Spared, plain]
  | ok out => exact iff_of_true (spared_ok _) (spared_ok out)

theorem search_spared_iff {Answer : Type} {store : Store} {id : UInt64} {missing : Answer}
    {act : Mailbox → Except Fault (Answer × List Mailbox)} :
    Spared (store.search id missing act) ↔ ∀ box, store.find id = some box → Spared (act box) := by
  constructor
  · intro spared box looked fault acted
    exact spared fault (search_error_iff.mpr ⟨box, looked, acted⟩)
  · intro spared fault ended
    obtain ⟨box, looked, acted⟩ := search_error_iff.mp ended
    exact spared box looked fault acted

theorem sendFound_spared_iff {msg : UserMemory} {len : Len} {memory : Memory} {box : Mailbox} :
    Spared (sendFound msg len memory box) ↔ (memory.Succeeds → memory.Fits) := by
  by_cases succeeds : memory.Succeeds
  · by_cases fits : memory.Fits
    · rw [sendFound_sent succeeds fits]
      exact iff_of_true (spared_ok _) (fun _ => fits)
    · rw [sendFound_short succeeds fits]
      exact iff_of_false (fun spared => spared .wildWrite rfl trivial) (fun all => fits (all succeeds))
  · rw [sendFound_failed succeeds]
    exact iff_of_true (spared_ok _) (fun both => absurd both succeeds)

theorem recvFound_spared_iff {box : Mailbox} :
    Spared (recvFound box) ↔ (box.messages = [] → box.count = 0) := by
  unfold recvFound
  by_cases zero : box.count = 0
  · rw [if_pos (beq_iff_eq.mpr zero)]
    exact iff_of_true (spared_ok _) (fun _ => zero)
  · rw [if_neg (mt beq_iff_eq.mp zero)]
    cases box.messages with
    | nil =>
        exact iff_of_false (fun spared => spared .emptyList rfl trivial) (fun all => zero (all rfl))
    | cons msgR rest =>
        exact iff_of_true (spared_ok _) (fun empty => absurd empty (List.cons_ne_nil msgR rest))

theorem body_spared_iff (store : Store) (body : Body) :
    Spared (body.perform store) ↔ body.Contained store := by
  cases body with
  | send id msg len memory =>
      rw [Body.perform, spared_plain_iff, sendLoop, search_spared_iff, Body.Contained]
      exact forall_congr' fun box => forall_congr' fun _ => sendFound_spared_iff
  | recv id msg len =>
      rw [Body.perform, recvLoop, search_spared_iff, Body.Contained]
      exact forall_congr' fun box => forall_congr' fun _ => recvFound_spared_iff

section Operations

variable (uid id : UInt64) (pid : Int32) (store : Store)

theorem create_spared (memory : Option Bool) : Spared (mbx421Create uid id memory store) := by
  unfold mbx421Create
  split
  · exact spared_ok _
  split
  · exact spared_ok _
  split
  · exact spared_ok _
  split
  · exact spared_ok _
  split
  · exact spared_ok _
  cases memory with
  | none =>
      intro fault ended
      cases ended
      exact not_false
  | some aclC => exact spared_ok _

theorem destroy_spared : Spared (mbx421Destroy uid id store) := by
  unfold mbx421Destroy
  split
  · exact spared_ok _
  split
  · exact spared_ok _
  refine search_spared_iff.mpr (fun box _ => ?_)
  unfold destroyFound
  split
  · exact spared_ok _
  · exact spared_ok _

theorem count_spared : Spared (mbx421Count id store) :=
  search_spared_iff.mpr (fun _ _ => spared_ok _)

theorem aclAdd_spared (memory : Bool) : Spared (mbx421AclAdd uid id pid memory store) := by
  unfold mbx421AclAdd
  split
  · exact spared_ok _
  refine search_spared_iff.mpr (fun box _ => ?_)
  unfold aclAddFound
  split
  · exact spared_ok _
  dsimp only
  split
  · exact spared_ok _
  · exact spared_ok _

theorem aclRemove_spared : Spared (mbx421AclRemove uid id pid store) := by
  unfold mbx421AclRemove
  split
  · exact spared_ok _
  refine search_spared_iff.mpr (fun box _ => ?_)
  unfold aclRemoveFound
  split
  · exact spared_ok _
  · exact spared_ok _

end Operations

theorem operation_spared_iff (store : Store) (operation : Operation) :
    Spared (operation.perform store) ↔ operation.Contained store := by
  cases operation with
  | create uid id memory =>
      exact iff_of_true (spared_plain_iff.mpr (create_spared uid id store memory)) trivial
  | destroy uid id => exact iff_of_true (spared_plain_iff.mpr (destroy_spared uid id store)) trivial
  | count id => exact iff_of_true (spared_plain_iff.mpr (count_spared id store)) trivial
  | length id => exact iff_of_true (spared_ok _) trivial
  | aclAdd uid id pid memory =>
      exact iff_of_true (spared_plain_iff.mpr (aclAdd_spared uid id pid store memory)) trivial
  | aclRemove uid id pid =>
      exact iff_of_true (spared_plain_iff.mpr (aclRemove_spared uid id pid store)) trivial
  | body call => exact body_spared_iff store call

/-! ### The system calls -/

theorem send_spared_iff {uid id : UInt64} {msg : UserMemory} {len : Int64} {memory : Memory}
    {store : Store} :
    Spared (mbx421Send uid id msg len memory store) ↔
      ∀ nonneg, sendChecks uid id len store = true → Spared (sendLoop id msg ⟨len, nonneg⟩ memory store) := by
  unfold mbx421Send sendChecks
  by_cases started : store.mailboxC = 0
  · simp [started, spared_ok]
  by_cases range : (id == 0 || decide (id < MAXID)) = true
  · simp [started, range, spared_ok]
  by_cases owner : uid = id
  · by_cases nonneg : 0 ≤ len
    · simp [started, range, owner, nonneg]
    · simp [started, range, owner, nonneg, spared_ok]
  · simp [started, range, owner, spared_ok]

theorem recv_spared_iff {uid id : UInt64} {msg : UserMemory} {len : Int64} {store : Store} :
    Spared (mbx421Recv uid id msg len store) ↔
      (recvChecks uid id store = true → Spared (recvLoop id msg len store)) := by
  unfold mbx421Recv recvChecks
  by_cases started : store.mailboxC = 0
  · simp [started, spared_ok]
  by_cases range : (id == 0 || decide (id < MAXID)) = true
  · simp [started, range, spared_ok]
  by_cases owner : uid = id
  · simp [started, range, owner]
  · simp [started, range, owner, spared_ok]

theorem overMail_spared_iff {walks : Store → Bool} {act : Store → Except Fault (Reply × Store)}
    {service : Service} :
    (∀ trap, overMail walks act service = .error trap → ¬ trap.Damages) ↔
      ((walks service.store = true → service.linked = true) → Spared (act service.store)) := by
  unfold overMail
  by_cases poisoned : (walks service.store && !service.linked) = true
  · rw [if_pos poisoned]
    obtain ⟨walked, unlinked⟩ : walks service.store = true ∧ service.linked = false := by
      simpa using poisoned
    refine iff_of_true ?_ (fun linked => absurd (linked walked) (by simp [unlinked]))
    intro trap met
    cases met
    exact not_false
  · rw [if_neg poisoned]
    have linked : walks service.store = true → service.linked = true := by
      simpa using poisoned
    cases act service.store with
    | ok out =>
        refine iff_of_true ?_ (fun _ => spared_ok out)
        intro trap met
        cases met
    | error fault =>
        constructor
        · intro spared _ other ended
          cases ended
          exact spared (.fault fault) rfl
        · intro spared trap met
          cases met
          exact spared linked fault rfl

theorem overMail_spared {walks : Store → Bool} {act : Store → Except Fault (Reply × Store)}
    {service : Service} (spared : ∀ store, Spared (act store)) :
    ∀ trap, overMail walks act service = .error trap → ¬ trap.Damages :=
  overMail_spared_iff.mpr (fun _ => spared service.store)

theorem init_spared (uid : UInt64) (ptrs prob : UInt32) (store : Store) :
    Spared (plain (mbx421Init uid ptrs prob store)) := by
  obtain ⟨answer, refused, _⟩ := init_refused uid ptrs prob store
  rw [refused]
  exact spared_ok _

/-- Whoever calls it, shutdown ends in a read of a poison pointer if it does not
return. -/
theorem shutdown_spared (uid : UInt64) (service : Service) :
    ∀ trap, Syscall.perform uid .shutdown service = .error trap → ¬ trap.Damages := by
  intro trap met
  unfold Syscall.perform mbx421Shutdown at met
  dsimp only at met
  split at met
  · rename_i ended
    cases met
    split at ended
    · cases ended
    split at ended
    · cases ended
      exact not_false
    split at ended
    · cases ended
    · cases ended
      exact not_false
  · cases met

theorem syscall_spared_iff (uid : UInt64) (service : Service) (call : Syscall) :
    (∀ trap, call.perform uid service = .error trap → ¬ trap.Damages) ↔
      call.Contained uid service := by
  cases call with
  | init ptrs prob =>
      refine iff_of_true ?_ trivial
      unfold Syscall.perform
      exact overMail_spared (fun store => init_spared uid ptrs prob store)
  | shutdown => exact iff_of_true (shutdown_spared uid service) trivial
  | create id memory =>
      refine iff_of_true ?_ trivial
      unfold Syscall.perform
      exact overMail_spared (fun store => spared_plain_iff.mpr (create_spared uid id store memory))
  | destroy id =>
      refine iff_of_true ?_ trivial
      unfold Syscall.perform
      exact overMail_spared (fun store => spared_plain_iff.mpr (destroy_spared uid id store))
  | count id =>
      refine iff_of_true ?_ trivial
      unfold Syscall.perform
      exact overMail_spared (fun store => spared_plain_iff.mpr (count_spared id store))
  | length id =>
      refine iff_of_true ?_ trivial
      unfold Syscall.perform
      exact overMail_spared (fun store => spared_plain_iff.mpr (spared_ok (lengthLoop store.mail, store)))
  | aclAdd id pid memory =>
      refine iff_of_true ?_ trivial
      unfold Syscall.perform
      exact overMail_spared (fun store => spared_plain_iff.mpr (aclAdd_spared uid id pid store memory))
  | aclRemove id pid =>
      refine iff_of_true ?_ trivial
      unfold Syscall.perform
      exact overMail_spared (fun store => spared_plain_iff.mpr (aclRemove_spared uid id pid store))
  | send id msg len memory =>
      have looped (nonneg : 0 ≤ len) :
          Spared (sendLoop id msg ⟨len, nonneg⟩ memory service.store) ↔
            (Body.send id msg ⟨len, nonneg⟩ memory).Contained service.store :=
        spared_plain_iff.symm.trans (body_spared_iff service.store (.send id msg ⟨len, nonneg⟩ memory))
      unfold Syscall.perform Syscall.Contained
      rw [overMail_spared_iff, spared_plain_iff, send_spared_iff]
      simp only [looped]
      by_cases passed : sendChecks uid id len service.store = true
      · simp only [passed, true_imp_iff]
        exact forall_comm
      · simp [passed]
  | recv id msg len =>
      unfold Syscall.perform Syscall.Contained
      rw [overMail_spared_iff, recv_spared_iff]
      have looped := body_spared_iff service.store (.recv id msg len)
      by_cases passed : recvChecks uid id service.store = true
      · simp only [passed, true_imp_iff]
        exact imp_congr_right fun _ => looped
      · simp [passed]

end CS421.Mail
