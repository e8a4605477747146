/-
What a send or a receive does to the mailbox store.

`Effect` lists every case, so that laws about runs need not look at the loops
again.
-/

import CS421.Mail.Syscalls
import CS421.Runs

set_option autoImplicit false

namespace CS421.Mail

open Runs Keyed

def step : Machine Store Body Reply Fault := Body.perform

abbrev Log := History Body Reply

theorem search_ok {Answer : Type} {store next : Store} {id : UInt64} {missing answer : Answer}
    {act : Mailbox → Except Fault (Answer × List Mailbox)}
    (ran : store.search id missing act = .ok (answer, next)) :
    (store.find id = none ∧ answer = missing ∧ next = store) ∨
      ∃ before box after kept, Found Mailbox.id id store.mail before box after ∧
        act box = .ok (answer, kept) ∧
        next = { store with mail := before ++ kept ++ after } := by
  unfold Store.search at ran
  cases looped : onFirst Mailbox.id id missing act store.mail with
  | error fault =>
      rw [looped] at ran
      cases ran
  | ok out =>
      rw [looped] at ran
      cases ran
      rcases onFirst_ok looped with ⟨absent, same, mail⟩ | ⟨before, box, after, kept, found, acted, mail⟩
      · exact Or.inl ⟨absent, same, by rw [mail]⟩
      · exact Or.inr ⟨before, box, after, kept, found, acted, by rw [mail]⟩

theorem search_found {Answer : Type} {store : Store} {id : UInt64} {missing answer : Answer}
    {act : Mailbox → Except Fault (Answer × List Mailbox)} {before kept after : List Mailbox}
    {box : Mailbox} (found : Found Mailbox.id id store.mail before box after)
    (acted : act box = .ok (answer, kept)) :
    store.search id missing act = .ok (answer, { store with mail := before ++ kept ++ after }) := by
  rw [Store.search, onFirst_of_found found, acted]

theorem search_error_iff {Answer : Type} {store : Store} {id : UInt64} {missing : Answer}
    {act : Mailbox → Except Fault (Answer × List Mailbox)} {fault : Fault} :
    store.search id missing act = .error fault ↔
      ∃ box, store.find id = some box ∧ act box = .error fault := by
  have looped : onFirst Mailbox.id id missing act store.mail = .error fault ↔
      ∃ box, store.find id = some box ∧ act box = .error fault := onFirst_error_iff
  rw [← looped, Store.search]
  cases onFirst Mailbox.id id missing act store.mail with
  | error other => simp
  | ok out => simp

/-- The mailbox `box` has become `changed`, and nothing else has changed. -/
structure Replaced (store : Store) (box changed : Mailbox) (next : Store) : Prop where
  found : store.find changed.id = some box
  own : next.find changed.id = some changed
  other : ∀ id, id ≠ changed.id → next.find id = store.find id
  ids : next.mail.map Mailbox.id = store.mail.map Mailbox.id
  mailboxC : next.mailboxC = store.mailboxC

theorem Replaced.found_eq {store next : Store} {box changed other : Mailbox}
    (replaced : Replaced store box changed next) (looked : store.find changed.id = some other) :
    other = box :=
  Option.some.inj (looked.symm.trans replaced.found)

theorem replaced_of_found {store : Store} {before after : List Mailbox} {box changed : Mailbox}
    (found : Found Mailbox.id changed.id store.mail before box after) :
    Replaced store box changed { store with mail := before ++ [changed] ++ after } := by
  have mail : before ++ [changed] ++ after = before ++ changed :: after := List.append_cons _ _ _ |>.symm
  rw [mail]
  exact
    { found := found.first_eq
      own := found.first_replace rfl
      other := fun id apart => found.first_other rfl apart
      ids := found.map_key rfl
      mailboxC := rfl }

section Send

variable {msg : UserMemory} {len : Len} {memory : Memory} {box : Mailbox}

theorem sendFound_failed (fails : ¬ memory.Succeeds) :
    sendFound msg len memory box = .ok (-ENOMEM, [{ box with count := box.count + 1 }]) := by
  unfold sendFound
  cases node : memory.node with
  | none => rfl
  | some room =>
      have missing : memory.buffer = false := by
        simpa [Memory.Succeeds, node] using fails
      rw [missing]
      rfl

theorem fits_iff {room : Room} (node : memory.node = some room) :
    memory.Fits ↔ messageSize ≤ room.1 := by
  simp [Memory.Fits, node]

theorem sendFound_sent (succeeds : memory.Succeeds) (fits : memory.Fits) :
    sendFound msg len memory box =
      .ok (0, [{ box with
        count := box.count + 1
        messages := box.messages ++ [Message.sent memory.copy msg len] }]) := by
  obtain ⟨given, buffer⟩ := succeeds
  obtain ⟨room, node⟩ := Option.ne_none_iff_exists'.mp given
  have enough : ¬ room.1 < messageSize := Nat.not_lt.mpr ((fits_iff node).mp fits)
  simp only [sendFound, node, buffer, enough, Bool.not_true, Bool.false_eq_true, if_false]

theorem sendFound_short (succeeds : memory.Succeeds) (short : ¬ memory.Fits) :
    sendFound msg len memory box = .error .wildWrite := by
  obtain ⟨given, buffer⟩ := succeeds
  obtain ⟨room, node⟩ := Option.ne_none_iff_exists'.mp given
  have less : room.1 < messageSize := Nat.not_le.mp (mt (fits_iff node).mpr short)
  simp only [sendFound, node, buffer, less, Bool.not_true, Bool.false_eq_true, if_false, if_true]

theorem sendFound_ok {answer : Int64} {kept : List Mailbox}
    (acted : sendFound msg len memory box = .ok (answer, kept)) :
    (¬ memory.Succeeds ∧ answer = -ENOMEM ∧ kept = [{ box with count := box.count + 1 }]) ∨
      (memory.Succeeds ∧ memory.Fits ∧ answer = 0 ∧
        kept = [{ box with
          count := box.count + 1
          messages := box.messages ++ [Message.sent memory.copy msg len] }]) := by
  by_cases succeeds : memory.Succeeds
  · by_cases fits : memory.Fits
    · rw [sendFound_sent succeeds fits] at acted
      cases acted
      exact Or.inr ⟨succeeds, fits, rfl, rfl⟩
    · rw [sendFound_short succeeds fits] at acted
      cases acted
  · rw [sendFound_failed succeeds] at acted
    cases acted
    exact Or.inl ⟨succeeds, rfl, rfl⟩

end Send

inductive Effect (store next : Store) : Body → Reply → Prop where
  | absent (body : Body) (missing : store.find body.id = none) (same : next = store) :
      Effect store next body { answer := -ENOENT, written := [], taken := none }
  | failed {box : Mailbox} (msg : UserMemory) (len : Len) (memory : Memory)
      (fails : ¬ memory.Succeeds)
      (replaced : Replaced store box { box with count := box.count + 1 } next) :
      Effect store next (.send box.id msg len memory)
        { answer := -ENOMEM, written := [], taken := none }
  | sent {box : Mailbox} (msg : UserMemory) (len : Len) (memory : Memory)
      (succeeds : memory.Succeeds) (fits : memory.Fits)
      (replaced : Replaced store box
        { box with
          count := box.count + 1
          messages := box.messages ++ [Message.sent memory.copy msg len] } next) :
      Effect store next (.send box.id msg len memory)
        { answer := 0, written := [], taken := none }
  | empty {box : Mailbox} (msg : UserMemory) (len : Int64) (zero : box.count = 0)
      (replaced : Replaced store box box next) :
      Effect store next (.recv box.id msg len)
        { answer := -ESRCH, written := [], taken := none }
  | received {box : Mailbox} {msgR : Message} {rest : List Message} (msg : UserMemory)
      (len : Int64) (nonzero : box.count ≠ 0) (oldest : box.messages = msgR :: rest)
      (replaced : Replaced store box { box with messages := rest } next) :
      Effect store next (.recv box.id msg len)
        { answer := msgR.length.toInt64, written := [], taken := some msgR }

theorem effect_of_send {store next : Store} {id : UInt64} {msg : UserMemory} {len : Len}
    {memory : Memory} {answer : Int64}
    (ran : sendLoop id msg len memory store = .ok (answer, next)) :
    Effect store next (.send id msg len memory)
      { answer := answer, written := [], taken := none } := by
  rcases search_ok ran with ⟨absent, rfl, rfl⟩ | ⟨before, box, after, kept, found, acted, rfl⟩
  · exact .absent (.send id msg len memory) absent rfl
  · have own : box.id = id := found.own
    subst id
    rcases sendFound_ok acted with ⟨fails, rfl, rfl⟩ | ⟨succeeds, fits, rfl, rfl⟩
    · exact .failed msg len memory fails (replaced_of_found found)
    · exact .sent msg len memory succeeds fits (replaced_of_found found)

theorem effect_of_recv {store next : Store} {id : UInt64} {msg : UserMemory} {len : Int64}
    {reply : Reply} (ran : recvLoop id msg len store = .ok (reply, next)) :
    Effect store next (.recv id msg len) reply := by
  rcases search_ok ran with ⟨absent, rfl, rfl⟩ | ⟨before, box, after, kept, found, acted, rfl⟩
  · exact .absent (.recv id msg len) absent rfl
  · have own : box.id = id := found.own
    subst id
    unfold recvFound at acted
    by_cases zero : box.count = 0
    · rw [if_pos (beq_iff_eq.mpr zero)] at acted
      cases acted
      exact .empty msg len zero (replaced_of_found found)
    · rw [if_neg (mt beq_iff_eq.mp zero)] at acted
      cases queue : box.messages with
      | nil =>
          rw [queue] at acted
          cases acted
      | cons msgR rest =>
          rw [queue] at acted
          cases acted
          exact .received msg len zero queue (replaced_of_found found)

theorem effect_of_step {store next : Store} {body : Body} {reply : Reply}
    (ran : step body store = .ok (reply, next)) : Effect store next body reply := by
  cases body with
  | send id msg len memory =>
      cases looped : sendLoop id msg len memory store with
      | error fault =>
          simp only [step, Body.perform, plain, looped] at ran
          cases ran
      | ok out =>
          simp only [step, Body.perform, plain, looped] at ran
          cases ran
          exact effect_of_send looped
  | recv id msg len => exact effect_of_recv ran

end CS421.Mail
