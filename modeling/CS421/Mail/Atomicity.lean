/-
Which failures leave a trace in the store.

Send raises the count, and acl_add sets the flag of the access list, before the
allocations that can still fail. Every other error is found before anything has
been written.
-/

import CS421.Mail.Delivery
import CS421.Mail.Edits

set_option autoImplicit false

namespace CS421.Mail

open Runs Keyed

inductive Call where
  | init (uid : UInt64) (ptrs prob : UInt32)
  | operation (operation : Operation)

def Call.perform : Call → Store → Except Fault (Reply × Store)
  | .init uid ptrs prob, store => plain (mbx421Init uid ptrs prob store)
  | .operation call, store => call.perform store

def Call.Atomic (call : Call) (store : Store) : Prop :=
  ∀ reply next, call.perform store = .ok (reply, next) → reply.answer < 0 → next = store

/-- No allocation fails after a write that it does not undo. -/
def Call.FailsEarly : Call → Store → Prop
  | .operation (.body (.send id _ _ memory)), store =>
      ∀ box, store.find id = some box → memory.Succeeds
  | .operation (.aclAdd uid id pid memory), store =>
      uid = 0 → ∀ box, store.find id = some box → pid ∉ box.acl →
        memory = true ∨ box.aclC = true
  | _, _ => True

section Traces

variable {store : Store} {before after : List Mailbox} {box changed : Mailbox} {id : UInt64}

theorem same_of_found (found : Found Mailbox.id id store.mail before box after)
    (same : ({ store with mail := before ++ [changed] ++ after } : Store) = store) :
    changed = box := by
  have mail : before ++ [changed] ++ after = before ++ [box] ++ after := by
    rw [found.rejoin]
    exact congrArg Store.mail same
  have middle := List.append_cancel_left (List.append_cancel_right mail)
  exact (List.cons.inj middle).1

theorem count_moves (box : Mailbox) : { box with count := box.count + 1 } ≠ box := by
  intro same
  have count : box.count + 1 = box.count := congrArg Mailbox.count same
  have wrapped : (box.count + 1).toNat = (box.count.toNat + 1) % 2 ^ 64 :=
    UInt64.toNat_add box.count 1
  have below : box.count.toNat < 2 ^ 64 := UInt64.toNat_lt box.count
  rw [count] at wrapped
  omega

theorem send_traces {msg : UserMemory} {len : Len} {memory : Memory}
    (found : Found Mailbox.id id store.mail before box after)
    (fails : ¬ memory.Succeeds) :
    ¬ (Call.operation (.body (.send id msg len memory))).Atomic store := by
  intro atomic
  have same := atomic { answer := -ENOMEM, written := [], taken := none } _
    (congrArg plain (search_found found (sendFound_failed fails))) (by decide)
  exact count_moves box (same_of_found found same)

theorem aclAdd_traces {pid : Int32} (found : Found Mailbox.id id store.mail before box after)
    (unlisted : pid ∉ box.acl) (clear : box.aclC = false) :
    ¬ (Call.operation (.aclAdd 0 id pid false)).Atomic store := by
  intro atomic
  have absent : ¬ box.acl.contains pid = true := by simpa using unlisted
  have acted : aclAddFound pid false box = .ok (-ENOMEM, [{ box with aclC := true }]) := by
    rw [aclAddFound, if_neg absent]
    rfl
  have same := atomic { answer := -ENOMEM, written := [], taken := none } _
    (congrArg plain (search_found found acted)) (by decide)
  have set : true = box.aclC := congrArg Mailbox.aclC (same_of_found found same)
  rw [clear] at set
  cases set

end Traces

theorem length_nonneg (message : Message) : ¬ message.length.toInt64 < 0 := by
  have small := message.small
  have read : message.length.toInt64.toInt = (message.length.toNat : Int).bmod (2 ^ 64) :=
    BitVec.toInt_eq_toNat_bmod message.length.toBitVec
  have positive : message.length.toInt64.toInt = message.length.toNat := by
    rw [read, Int.bmod_def]
    omega
  rw [Int64.lt_iff_toInt_lt, positive]
  exact Int.not_lt.mpr (Int.natCast_nonneg _)

theorem BoxEdit.atomic {store : Store} {box changed : Mailbox} {operation : Operation}
    {answer : Int64} (edit : BoxEdit box changed operation answer)
    (looked : store.find box.id = some box) (early : (Call.operation operation).FailsEarly store)
    (negative : answer < 0) : changed = box := by
  cases edit with
  | granted pid fresh => exact absurd negative (by decide)
  | marked pid fresh =>
      rcases early rfl box looked fresh with allocated | set
      · cases allocated
      · rw [← set]
  | revoked pid listed => exact absurd negative (by decide)
  | failed msg len memory fails => exact absurd (early box looked) fails
  | sent msg len memory succeeds fits => exact absurd negative (by decide)
  | received msg len oldest => exact absurd negative (length_nonneg _)

theorem Edit.atomic {store next : Store} {operation : Operation} {answer : Int64}
    (edit : Edit store next operation answer)
    (early : (Call.operation operation).FailsEarly store) (negative : answer < 0) :
    next = store := by
  cases edit with
  | unchanged operation answer refused same => exact same
  | created fresh added => exact absurd negative (by decide)
  | destroyed found zero removed => exact absurd negative (by decide)
  | edited found edit replaced =>
      rw [replaced, edit.atomic found.first_eq early negative, ← found.split]

theorem atomic_of_failsEarly {call : Call} {store : Store} (early : call.FailsEarly store) :
    call.Atomic store := by
  intro reply next ran negative
  cases call with
  | init uid ptrs prob => exact (init_refuses (plain_ok ran)).2
  | operation operation => exact (edit_of_perform ran).atomic early negative

/-- In every state, for all arguments and all outcomes of the allocations: a
failed call leaves the store as it was exactly when no allocation fails late. -/
theorem atomic_iff_failsEarly (call : Call) (store : Store) :
    call.Atomic store ↔ call.FailsEarly store := by
  constructor
  · intro atomic
    cases call with
    | init uid ptrs prob => exact trivial
    | operation operation =>
        cases operation with
        | create uid id memory => exact trivial
        | destroy uid id => exact trivial
        | count id => exact trivial
        | length id => exact trivial
        | aclRemove uid id pid => exact trivial
        | aclAdd uid id pid memory =>
            intro root box looked unlisted
            obtain ⟨before, after, found⟩ := first_some_iff.mp looked
            subst uid
            by_contra neither
            obtain ⟨failed, clear⟩ := not_or.mp neither
            rw [Bool.not_eq_true] at failed clear
            subst memory
            exact aclAdd_traces found unlisted clear atomic
        | body call =>
            cases call with
            | recv id msg len => exact trivial
            | send id msg len memory =>
                intro box looked
                obtain ⟨before, after, found⟩ := first_some_iff.mp looked
                by_contra failed
                exact send_traces found failed atomic
  · exact atomic_of_failsEarly

theorem failed_send_counted :
    ¬ ∀ (call : Call) (store : Store), call.Atomic store := by
  intro atomic
  let memory : Memory := { node := none, buffer := true, copy := { copied := 0, rest := fun _ => 0 } }
  have kept := atomic (.operation (.body (.send MAXID (fun _ => 0) ⟨0, by decide⟩ memory))) oneMailbox
    { answer := -ENOMEM, written := [], taken := none }
    { mailboxC := 1
      mail := [{ aclC := false, id := MAXID, count := 1, messages := [], acl := [] }] } rfl (by decide)
  exact absurd kept (by decide)

end CS421.Mail
