/-
Who reaches a mailbox, and whose mailbox a caller can change.

The ids that create, send and receive admit start at `MAXID`, far above every
uid, so no user has a mailbox to use. What a caller other than root can change
is bounded by the tests of the ten calls, whatever the ids are.
-/

import CS421.Mail.Delivery
import CS421.Mail.Edits

set_option autoImplicit false

namespace CS421.Mail

open Runs

/-- After root has created the mailbox of a user, the user passes the tests of
send, and after a send that returned 0 those of receive. -/
def Usable (uid : UInt32) (store : Store) : Prop :=
  ∀ aclC answer created, mbx421Create 0 uid.toUInt64 (some aclC) store = .ok (answer, created) →
    (∀ len, 0 ≤ len → sendChecks uid.toUInt64 uid.toUInt64 len created = true) ∧
      ∀ msg len memory sent,
        mbx421Send uid.toUInt64 uid.toUInt64 msg len memory created = .ok (0, sent) →
          recvChecks uid.toUInt64 uid.toUInt64 sent = true

theorem sendChecks_iff {uid id : UInt64} {len : Int64} {store : Store} :
    sendChecks uid id len store = true ↔
      store.mailboxC ≠ 0 ∧ MAXID ≤ id ∧ uid = id ∧ 0 ≤ len := by
  have range : (!(id == 0 || decide (id < MAXID))) = true ↔ MAXID ≤ id := by
    rw [Bool.not_eq_true', Bool.or_eq_false_iff, beq_eq_false_iff_ne, decide_eq_false_iff_not,
      UInt64.not_lt]
    constructor
    · intro both
      exact both.2
    · intro above
      refine ⟨?_, above⟩
      intro zero
      rw [zero] at above
      exact absurd above (by decide)
  unfold sendChecks
  rw [Bool.and_eq_true, Bool.and_eq_true, Bool.and_eq_true, range, bne_iff_ne, beq_iff_eq,
    decide_eq_true_iff, and_assoc, and_assoc]

theorem mbx421Send_eq {uid id : UInt64} {msg : UserMemory} {len : Int64} {memory : Memory}
    {store : Store} (passes : sendChecks uid id len store = true) :
    ∃ nonneg, mbx421Send uid id msg len memory store =
      sendLoop id msg ⟨len, nonneg⟩ memory store := by
  obtain ⟨started, above, owner, nonneg⟩ := sendChecks_iff.mp passes
  have nonzero : id ≠ 0 := by
    intro zero
    rw [zero] at above
    exact absurd above (by decide)
  have high : ¬ id < MAXID := UInt64.not_lt.mpr above
  refine ⟨nonneg, ?_⟩
  simp [mbx421Send, started, nonzero, high, owner, nonneg]

theorem uid_below_range (uid : UInt32) : ¬ MAXID ≤ uid.toUInt64 := by
  have small : uid.toUInt64.toNat < 2 ^ 32 := by
    rw [UInt32.toNat_toUInt64]
    exact UInt32.toNat_lt uid
  have high : MAXID.toNat = 4611690000000000000 := by decide
  rw [UInt64.le_iff_toNat_le, high]
  omega

theorem create_returns (uid id : UInt64) (aclC : Bool) (store : Store) :
    ∃ answer created, mbx421Create uid id (some aclC) store = .ok (answer, created) := by
  unfold mbx421Create
  dsimp only
  split
  · exact ⟨_, _, rfl⟩
  split
  · exact ⟨_, _, rfl⟩
  split
  · exact ⟨_, _, rfl⟩
  split
  · exact ⟨_, _, rfl⟩
  split
  · exact ⟨_, _, rfl⟩
  · exact ⟨_, _, rfl⟩

theorem not_usable (uid : UInt32) (store : Store) : ¬ Usable uid store := by
  intro usable
  obtain ⟨answer, created, ran⟩ := create_returns 0 uid.toUInt64 false store
  have passes := (usable false answer created ran).1 0 (by decide)
  exact uid_below_range uid (sendChecks_iff.mp passes).2.1

theorem user_mailbox_unusable :
    ¬ ∀ (uid : UInt32) (store : Store), uid ≠ 0 → store.mailboxC = 1 → store.mail ≠ [] →
      (∀ box ∈ store.mail, box.id ≠ uid.toUInt64) → Usable uid store := by
  intro usable
  have passes := (usable 5 oneMailbox (by decide) rfl (by decide) (by decide) false (-EFAULT)
    oneMailbox rfl).1 0 (by decide)
  exact absurd passes (by decide)

def callsOf (uid : UInt64) : Machine Service Syscall Reply Trap :=
  fun call => call.perform uid

/-- What a mailbox shows of itself when its owner's messages are hidden. -/
structure Facade where
  id : UInt64
  aclC : Bool
  acl : List Int32
  content : Option (UInt64 × List Message)

def Mailbox.facade (uid : UInt64) (box : Mailbox) : Facade :=
  { id := box.id
    aclC := box.aclC
    acl := box.acl
    content := if box.id = uid then none else some (box.count, box.messages) }

/-- The service without the count and the messages of the mailboxes of `uid`. -/
structure View where
  linked : Bool
  mailboxC : Int32
  mail : List Facade

def Service.view (uid : UInt64) (service : Service) : View :=
  { linked := service.linked
    mailboxC := service.store.mailboxC
    mail := service.store.mail.map (Mailbox.facade uid) }

theorem BoxEdit.facade {uid : UInt64} (user : uid ≠ 0) {box changed : Mailbox}
    {operation : Operation} {answer : Int64} (edit : BoxEdit box changed operation answer)
    (made : operation.By uid) : changed.facade uid = box.facade uid := by
  have own (same : box.id = uid) (id : changed.id = box.id) (aclC : changed.aclC = box.aclC)
      (acl : changed.acl = box.acl) : changed.facade uid = box.facade uid := by
    rw [Mailbox.facade, Mailbox.facade, id, aclC, acl, if_pos same, if_pos same]
  cases edit with
  | granted pid fresh => exact absurd made.symm user
  | marked pid fresh => exact absurd made.symm user
  | revoked pid listed => exact absurd made.symm user
  | failed msg len memory fails => exact own made rfl rfl rfl
  | sent msg len memory succeeds fits => exact own made rfl rfl rfl
  | received msg len oldest => exact own made rfl rfl rfl

theorem Edit.view {uid : UInt64} (user : uid ≠ 0) {store next : Store} {operation : Operation}
    {answer : Int64} (edit : Edit store next operation answer) (made : operation.By uid) :
    next.mailboxC = store.mailboxC ∧
      next.mail.map (Mailbox.facade uid) = store.mail.map (Mailbox.facade uid) := by
  cases edit with
  | unchanged operation answer refused same =>
      subst next
      exact ⟨rfl, rfl⟩
  | created fresh added => exact absurd made.symm user
  | destroyed found zero removed => exact absurd made.symm user
  | edited found edit replaced =>
      subst next
      refine ⟨rfl, ?_⟩
      rw [found.split, List.map_append, List.map_append, List.map_cons, List.map_cons,
        edit.facade user made]

theorem Served.view {uid : UInt64} (user : uid ≠ 0) {service next : Service}
    (served : Served uid service next) : next.view uid = service.view uid := by
  cases served with
  | refused same => rw [same]
  | shut root empty unlinked => exact absurd root user
  | operated operation answer made edit linked =>
      obtain ⟨mailboxC, mail⟩ := edit.view user made
      rw [Service.view, Service.view, linked, mailboxC, mail]

structure Isolated (start : Service) (uid : UInt64) (calls : List Syscall) : Prop where
  unchanged : Always (callsOf uid) start calls (fun _ service => service.view uid = start.view uid)
  spared : Spares (callsOf uid) start calls Trap.Damages

/-- The calls of a caller other than root, in any order, change nothing of others
exactly when no send stores past the end of its block and no receive takes the
first entry of an empty list. -/
theorem isolated_iff (start : Service) (uid : UInt64) (user : uid ≠ 0) (calls : List Syscall) :
    Isolated start uid calls ↔
      EveryStep (callsOf uid) start calls (fun _ service call => call.Contained uid service) := by
  have spares : Spares (callsOf uid) start calls Trap.Damages ↔ _ :=
    spares_iff_everyStep (syscall_spared_iff uid) calls
  constructor
  · intro isolated
    exact spares.mp isolated.spared
  · intro contained
    refine ⟨?_, spares.mpr contained⟩
    intro prior _ history service ran
    refine invariant_exec (fun _ service => service.view uid = start.view uid) rfl ?_ ran
    intro _ before call reply next same stepped
    exact ((served_of_perform stepped).view user).trans same

theorem isolated_iff_whole :
    Isolated { store := oneMailbox, linked := true } MAXID
      [.send MAXID (fun _ => 7) 3
        { node := some .whole, buffer := true, copy := { copied := 3, rest := fun _ => 0 } },
       .recv MAXID (fun _ => 0) 3, .destroy MAXID, .aclAdd MAXID 5 true] := by
  refine (isolated_iff { store := oneMailbox, linked := true } MAXID (by decide) _).mpr ?_
  refine everyStep_cons.mpr ⟨fun _ _ _ _ _ _ => by decide, ?_⟩
  intro reply next sent
  cases sent
  refine everyStep_cons.mpr ⟨?_, ?_⟩
  · intro _ _ box looked none
    cases looked
    cases none
  intro reply next received
  apply everyStep_of_mem
  intro call member service
  simp only [List.mem_cons, List.not_mem_nil, or_false] at member
  rcases member with rfl | rfl
  · exact trivial
  · exact trivial

/-- The send stores past the end of its block, and what lies there may be a
message of another user. -/
theorem send_reaches_others :
    ¬ Isolated { store := oneMailbox, linked := true } MAXID
      [.send MAXID (fun _ => 7) 3 (.asked ⟨3, by decide⟩)] := by
  intro isolated
  exact isolated.spared (.fault .wildWrite) rfl trivial

end CS421.Mail
