/-
Everything the operations on the mailbox store can do to it.

`Edit` has one case for each way in which an operation can change the store,
with the place in the list that it changes, and one case for all the operations
that leave the store alone. `Served` says the same of the ten system calls.
-/

import CS421.Mail.Effects
import CS421.Mail.Service

set_option autoImplicit false

namespace CS421.Mail

open Runs Keyed

/-- What an operation does to the mailbox it finds. -/
inductive BoxEdit (box : Mailbox) : Mailbox → Operation → Int64 → Prop where
  | granted (pid : Int32) (fresh : pid ∉ box.acl) :
      BoxEdit box { box with aclC := true, acl := box.acl ++ [pid] }
        (.aclAdd 0 box.id pid true) 0
  | marked (pid : Int32) (fresh : pid ∉ box.acl) :
      BoxEdit box { box with aclC := true } (.aclAdd 0 box.id pid false) (-ENOMEM)
  | revoked (pid : Int32) (listed : pid ∈ box.acl) :
      BoxEdit box { box with acl := box.acl.erase pid } (.aclRemove 0 box.id pid) 0
  | failed (msg : UserMemory) (len : Len) (memory : Memory)
      (fails : ¬ memory.Succeeds) :
      BoxEdit box { box with count := box.count + 1 } (.body (.send box.id msg len memory))
        (-ENOMEM)
  | sent (msg : UserMemory) (len : Len) (memory : Memory)
      (succeeds : memory.Succeeds) (fits : memory.Fits) :
      BoxEdit box
        { box with
          count := box.count + 1
          messages := box.messages ++ [Message.sent memory.copy msg len] }
        (.body (.send box.id msg len memory)) 0
  | received (msg : UserMemory) (len : Int64) {msgR : Message} {rest : List Message}
      (oldest : box.messages = msgR :: rest) :
      BoxEdit box { box with messages := rest } (.body (.recv box.id msg len))
        msgR.length.toInt64

theorem BoxEdit.id {box changed : Mailbox} {operation : Operation} {answer : Int64}
    (edit : BoxEdit box changed operation answer) : changed.id = box.id := by
  cases edit <;> rfl

/-- What the answer says when an operation leaves the store alone. -/
def Refusal : Operation → Int64 → Prop
  | .create _ _ _, answer | .destroy _ _, answer => answer < 0
  | .body (.send _ _ _ _), answer => answer = -ENOENT
  | _, _ => True

inductive Edit (store next : Store) : Operation → Int64 → Prop where
  | unchanged (operation : Operation) (answer : Int64) (refused : Refusal operation answer)
      (same : next = store) : Edit store next operation answer
  | created {id : UInt64} {aclC : Bool} (fresh : ∀ box ∈ store.mail, box.id ≠ id)
      (added : next = { store with
        mail := store.mail ++ [{ aclC := aclC, id := id, count := 0, messages := [], acl := [] }] }) :
      Edit store next (.create 0 id (some aclC)) 0
  | destroyed {id : UInt64} {before after : List Mailbox} {box : Mailbox}
      (found : Found Mailbox.id id store.mail before box after) (zero : box.count = 0)
      (removed : next = { store with mail := before ++ after }) :
      Edit store next (.destroy 0 id) 0
  | edited {operation : Operation} {answer : Int64} {before after : List Mailbox}
      {box changed : Mailbox} (found : Found Mailbox.id box.id store.mail before box after)
      (edit : BoxEdit box changed operation answer)
      (replaced : next = { store with mail := before ++ changed :: after }) :
      Edit store next operation answer

private theorem edit_at {store next : Store} {operation : Operation} {answer : Int64}
    {before after : List Mailbox} {box changed : Mailbox}
    (found : Found Mailbox.id box.id store.mail before box after)
    (edit : BoxEdit box changed operation answer)
    (replaced : next = { store with mail := before ++ [changed] ++ after }) :
    Edit store next operation answer := by
  rw [List.append_assoc, List.singleton_append] at replaced
  exact .edited found edit replaced

section Operations

variable {store next : Store} {uid id : UInt64} {answer : Int64}

theorem edit_of_create {memory : Option Bool}
    (ran : mbx421Create uid id memory store = .ok (answer, next)) :
    Edit store next (.create uid id memory) answer := by
  have refused (errno : Int64) (negative : errno < 0)
      (same : Except.ok (errno, store) = (.ok (answer, next) : Outcome)) :
      Edit store next (.create uid id memory) answer := by
    cases same
    exact .unchanged _ answer negative rfl
  unfold mbx421Create at ran
  split at ran
  · exact refused (-ENOENT) (by decide) ran
  split at ran
  · exact refused (-EFAULT) (by decide) ran
  split at ran
  · exact refused (-EPERM) (by decide) ran
  rename_i root
  split at ran
  · exact refused (-EEXIST) (by decide) ran
  rename_i unknown
  split at ran
  · exact refused (-ENOMEM) (by decide) ran
  have caller : uid = 0 := by simpa using root
  subst uid
  cases memory with
  | none => cases ran
  | some aclC =>
      cases ran
      refine .created ?_ rfl
      intro box member same
      exact unknown (List.any_eq_true.mpr ⟨box, member, beq_iff_eq.mpr same⟩)

theorem edit_of_destroy (ran : mbx421Destroy uid id store = .ok (answer, next)) :
    Edit store next (.destroy uid id) answer := by
  unfold mbx421Destroy at ran
  split at ran
  · cases ran
    exact .unchanged _ _ (by decide : (-ENOENT : Int64) < 0) rfl
  split at ran
  · cases ran
    exact .unchanged _ _ (by decide : (-EPERM : Int64) < 0) rfl
  rename_i root
  have caller : uid = 0 := by simpa using root
  subst uid
  rcases search_ok ran with ⟨_, rfl, same⟩ | ⟨before, box, after, kept, found, acted, replaced⟩
  · exact .unchanged _ _ (by decide : (-ENOENT : Int64) < 0) same
  · unfold destroyFound at acted
    split at acted
    · cases acted
      refine .unchanged _ _ (by decide : (-EINVAL : Int64) < 0) ?_
      rw [replaced, found.rejoin]
    · rename_i drained
      cases acted
      have zero : box.count = 0 := by
        have small : ¬ 0 < box.count.toNat := drained
        exact UInt64.toNat_inj.mp (Nat.eq_zero_of_not_pos small)
      refine .destroyed found zero ?_
      rw [replaced, List.append_nil]

theorem edit_of_aclAdd {pid : Int32} {memory : Bool}
    (ran : mbx421AclAdd uid id pid memory store = .ok (answer, next)) :
    Edit store next (.aclAdd uid id pid memory) answer := by
  unfold mbx421AclAdd at ran
  split at ran
  · cases ran
    exact .unchanged _ _ trivial rfl
  rename_i root
  have caller : uid = 0 := by simpa using root
  subst uid
  rcases search_ok ran with ⟨_, _, same⟩ | ⟨before, box, after, kept, found, acted, replaced⟩
  · exact .unchanged _ _ trivial same
  have own : box.id = id := found.own
  subst id
  unfold aclAddFound at acted
  split at acted
  · cases acted
    rw [found.rejoin] at replaced
    exact .unchanged _ _ trivial replaced
  rename_i unlisted
  have fresh : pid ∉ box.acl := by simpa using unlisted
  cases memory with
  | false =>
      cases acted
      exact edit_at found (.marked pid fresh) replaced
  | true =>
      cases acted
      exact edit_at found (.granted pid fresh) replaced

theorem edit_of_aclRemove {pid : Int32}
    (ran : mbx421AclRemove uid id pid store = .ok (answer, next)) :
    Edit store next (.aclRemove uid id pid) answer := by
  unfold mbx421AclRemove at ran
  split at ran
  · cases ran
    exact .unchanged _ _ trivial rfl
  rename_i root
  have caller : uid = 0 := by simpa using root
  subst uid
  rcases search_ok ran with ⟨_, _, same⟩ | ⟨before, box, after, kept, found, acted, replaced⟩
  · exact .unchanged _ _ trivial same
  have own : box.id = id := found.own
  subst id
  unfold aclRemoveFound at acted
  split at acted
  · rename_i listed
    cases acted
    exact edit_at found (.revoked pid (by simpa using listed)) replaced
  · cases acted
    rw [found.rejoin] at replaced
    exact .unchanged _ _ trivial replaced

theorem edit_of_send {msg : UserMemory} {len : Len} {memory : Memory}
    (ran : sendLoop id msg len memory store = .ok (answer, next)) :
    Edit store next (.body (.send id msg len memory)) answer := by
  rcases search_ok ran with ⟨_, rfl, same⟩ | ⟨before, box, after, kept, found, acted, replaced⟩
  · exact .unchanged _ _ rfl same
  have own : box.id = id := found.own
  subst id
  rcases sendFound_ok acted with ⟨fails, rfl, rfl⟩ | ⟨succeeds, fits, rfl, rfl⟩
  · exact edit_at found (.failed msg len memory fails) replaced
  · exact edit_at found (.sent msg len memory succeeds fits) replaced

theorem edit_of_recv {msg : UserMemory} {len : Int64} {reply : Reply}
    (ran : recvLoop id msg len store = .ok (reply, next)) :
    Edit store next (.body (.recv id msg len)) reply.answer := by
  rcases search_ok ran with ⟨_, _, same⟩ | ⟨before, box, after, kept, found, acted, replaced⟩
  · exact .unchanged _ _ trivial same
  have own : box.id = id := found.own
  subst id
  unfold recvFound at acted
  split at acted
  · cases acted
    rw [found.rejoin] at replaced
    exact .unchanged _ _ trivial replaced
  · split at acted
    · cases acted
    · rename_i msgR rest oldest
      cases acted
      exact edit_at found (.received msg len oldest) replaced

theorem edit_of_count (ran : mbx421Count id store = .ok (answer, next)) :
    Edit store next (.count id) answer := by
  rcases search_ok ran with ⟨_, _, same⟩ | ⟨before, box, after, kept, found, acted, replaced⟩
  · exact .unchanged _ _ trivial same
  · cases acted
    rw [found.rejoin] at replaced
    exact .unchanged _ _ trivial replaced

theorem edit_of_length (ran : mbx421Length id store = .ok (answer, next)) :
    Edit store next (.length id) answer := by
  cases ran
  exact .unchanged _ _ trivial rfl

end Operations

theorem plain_ok {outcome : Outcome} {reply : Reply} {next : Store}
    (ran : plain outcome = .ok (reply, next)) : outcome = .ok (reply.answer, next) := by
  cases ended : outcome with
  | error fault =>
      rw [ended] at ran
      cases ran
  | ok out =>
      rw [ended] at ran
      cases ran
      rfl

theorem edit_of_perform {store next : Store} {operation : Operation} {reply : Reply}
    (ran : operation.perform store = .ok (reply, next)) : Edit store next operation reply.answer := by
  cases operation with
  | create uid id memory => exact edit_of_create (plain_ok ran)
  | destroy uid id => exact edit_of_destroy (plain_ok ran)
  | count id => exact edit_of_count (plain_ok ran)
  | length id => exact edit_of_length (plain_ok ran)
  | aclAdd uid id pid memory => exact edit_of_aclAdd (plain_ok ran)
  | aclRemove uid id pid => exact edit_of_aclRemove (plain_ok ran)
  | body call =>
      cases call with
      | send id msg len memory => exact edit_of_send (plain_ok ran)
      | recv id msg len => exact edit_of_recv ran

/-! ### The ten system calls -/

/-- Who an operation was made by. Past the tests of send and receive, the
caller's uid is the id of the mailbox. -/
def Operation.By (uid : UInt64) : Operation → Prop
  | .create caller _ _ | .destroy caller _ | .aclAdd caller _ _ _ | .aclRemove caller _ _ =>
      caller = uid
  | .body call => call.id = uid
  | .count _ | .length _ => True

inductive Served (uid : UInt64) (service next : Service) : Prop where
  | refused (same : next = service)
  | shut (root : uid = 0) (empty : service.store.mail = [])
      (unlinked : next = { store := { mailboxC := 0, mail := [] }, linked := false })
  | operated (operation : Operation) (answer : Int64) (made : operation.By uid)
      (edit : Edit service.store next.store operation answer)
      (linked : next.linked = service.linked)

theorem init_refused (uid : UInt64) (ptrs prob : UInt32) (store : Store) :
    ∃ answer, mbx421Init uid ptrs prob store = .ok (answer, store) ∧ answer < 0 := by
  have everyProb : (prob != 2 || prob != 4 || prob != 8 || prob != 16) = true := by
    by_cases two : prob = 2
    · subst prob
      rfl
    · simp [two]
  unfold mbx421Init
  rw [if_pos everyProb]
  split
  · exact ⟨-EEXIST, rfl, by decide⟩
  split
  · exact ⟨-EPERM, rfl, by decide⟩
  split
  · exact ⟨-EINVAL, rfl, by decide⟩
  · exact ⟨-EINVAL, rfl, by decide⟩

theorem init_refuses {uid : UInt64} {ptrs prob : UInt32} {store next : Store} {answer : Int64}
    (ran : mbx421Init uid ptrs prob store = .ok (answer, next)) : answer < 0 ∧ next = store := by
  obtain ⟨refusal, refused, negative⟩ := init_refused uid ptrs prob store
  rw [refused] at ran
  cases ran
  exact ⟨negative, rfl⟩

theorem send_ok {uid id : UInt64} {msg : UserMemory} {len : Int64} {memory : Memory}
    {store next : Store} {answer : Int64}
    (ran : mbx421Send uid id msg len memory store = .ok (answer, next)) :
    next = store ∨ ∃ nonneg, id = uid ∧
      sendLoop id msg ⟨len, nonneg⟩ memory store = .ok (answer, next) := by
  unfold mbx421Send at ran
  split at ran
  · cases ran
    exact Or.inl rfl
  split at ran
  · cases ran
    exact Or.inl rfl
  split at ran
  · cases ran
    exact Or.inl rfl
  rename_i owner
  split at ran
  · rename_i nonneg
    have caller : uid = id := by simpa using owner
    exact Or.inr ⟨nonneg, caller.symm, ran⟩
  · cases ran
    exact Or.inl rfl

theorem recv_ok {uid id : UInt64} {msg : UserMemory} {len : Int64} {store next : Store}
    {reply : Reply} (ran : mbx421Recv uid id msg len store = .ok (reply, next)) :
    next = store ∨ (id = uid ∧ recvLoop id msg len store = .ok (reply, next)) := by
  unfold mbx421Recv at ran
  dsimp only at ran
  split at ran
  · cases ran
    exact Or.inl rfl
  split at ran
  · cases ran
    exact Or.inl rfl
  split at ran
  · cases ran
    exact Or.inl rfl
  rename_i owner
  have caller : uid = id := by simpa using owner
  exact Or.inr ⟨caller.symm, ran⟩

theorem overMail_ok {walks : Store → Bool} {act : Store → Except Fault (Reply × Store)}
    {service next : Service} {reply : Reply}
    (ran : overMail walks act service = .ok (reply, next)) :
    act service.store = .ok (reply, next.store) ∧ next.linked = service.linked := by
  unfold overMail at ran
  split at ran
  · cases ran
  · cases acted : act service.store with
    | error fault =>
        rw [acted] at ran
        cases ran
    | ok out =>
        rw [acted] at ran
        cases ran
        exact ⟨rfl, rfl⟩

theorem shutdown_ok {uid : UInt64} {service next : Service} {answer : Int64}
    (ran : mbx421Shutdown uid service = .ok (answer, next)) :
    (answer = -EPERM ∧ uid ≠ 0 ∧ next = service) ∨
      (answer = 0 ∧ uid = 0 ∧ service.linked = true ∧ service.store.mail = [] ∧
        next = { store := { mailboxC := 0, mail := [] }, linked := false }) := by
  unfold mbx421Shutdown at ran
  split at ran
  · rename_i stranger
    cases ran
    exact Or.inl ⟨rfl, by simpa using stranger, rfl⟩
  rename_i root
  split at ran
  · cases ran
  rename_i whole
  split at ran
  · rename_i empty
    cases ran
    exact Or.inr ⟨rfl, by simpa using root, by simpa using whole, empty, rfl⟩
  · cases ran

theorem served_of_perform {uid : UInt64} {call : Syscall} {service next : Service} {reply : Reply}
    (ran : call.perform uid service = .ok (reply, next)) : Served uid service next := by
  have kept (same : next.store = service.store) (linked : next.linked = service.linked) :
      Served uid service next := by
    cases service
    cases next
    exact .refused (Service.mk.injEq .. ▸ ⟨same, linked⟩)
  unfold Syscall.perform at ran
  cases call with
  | init ptrs prob =>
      obtain ⟨acted, linked⟩ := overMail_ok ran
      exact kept (init_refuses (plain_ok acted)).2 linked
  | shutdown =>
      dsimp only at ran
      cases closed : mbx421Shutdown uid service with
      | error trap =>
          rw [closed] at ran
          cases ran
      | ok out =>
          rw [closed] at ran
          cases ran
          rcases shutdown_ok closed with ⟨_, _, same⟩ | ⟨_, root, _, empty, unlinked⟩
          · exact .refused same
          · exact .shut root empty unlinked
  | create id memory =>
      obtain ⟨acted, linked⟩ := overMail_ok ran
      exact .operated (.create uid id memory) reply.answer rfl (edit_of_create (plain_ok acted)) linked
  | destroy id =>
      obtain ⟨acted, linked⟩ := overMail_ok ran
      exact .operated (.destroy uid id) reply.answer rfl (edit_of_destroy (plain_ok acted)) linked
  | count id =>
      obtain ⟨acted, linked⟩ := overMail_ok ran
      exact .operated (.count id) reply.answer trivial (edit_of_count (plain_ok acted)) linked
  | length id =>
      obtain ⟨acted, linked⟩ := overMail_ok ran
      exact .operated (.length id) reply.answer trivial (edit_of_length (plain_ok acted)) linked
  | send id msg len memory =>
      obtain ⟨acted, linked⟩ := overMail_ok ran
      rcases send_ok (plain_ok acted) with same | ⟨nonneg, owner, looped⟩
      · exact kept same linked
      · exact .operated (.body (.send id msg ⟨len, nonneg⟩ memory)) reply.answer owner
          (edit_of_send looped) linked
  | recv id msg len =>
      obtain ⟨acted, linked⟩ := overMail_ok ran
      rcases recv_ok acted with same | ⟨owner, looped⟩
      · exact kept same linked
      · exact .operated (.body (.recv id msg len)) reply.answer owner (edit_of_recv looped) linked
  | aclAdd id pid memory =>
      obtain ⟨acted, linked⟩ := overMail_ok ran
      exact .operated (.aclAdd uid id pid memory) reply.answer rfl (edit_of_aclAdd (plain_ok acted))
        linked
  | aclRemove id pid =>
      obtain ⟨acted, linked⟩ := overMail_ok ran
      exact .operated (.aclRemove uid id pid) reply.answer rfl (edit_of_aclRemove (plain_ok acted))
        linked

end CS421.Mail
