/-
Why destroy never drops a message.

The count of a mailbox and the length of its queue drift apart, but in one
direction only: a send that fails raises the count alone, and a receive
shortens the queue alone. So a mailbox with count 0 has no message, as long as
the count has not wrapped and no send has stored past the end of its block.
-/

import CS421.Mail.Counts
import CS421.Mail.Identity

set_option autoImplicit false

namespace CS421.Mail

open Runs Keyed

abbrev Record := History Operation Reply

def attemptsAfter (id : UInt64) (before : Nat) : Operation × Reply → Nat
  | (.create _ number _, reply) => if number = id ∧ reply.answer = 0 then 0 else before
  | (.body (.send number _ _ _), reply) =>
      if number = id ∧ reply.answer ≠ -ENOENT then before + 1 else before
  | _ => before

def Store.countOf (store : Store) (id : UInt64) : Nat :=
  match store.find id with
  | none => 0
  | some box => box.count.toNat

/-- The sends to the mailbox since it was created. -/
def attempts (start : Store) (id : UInt64) (record : Record) : Nat :=
  record.foldl (attemptsAfter id) (start.countOf id)

section Attempts

variable {start : Store} {id : UInt64} {record : Record} {reply : Reply}

theorem attempts_created {uid : UInt64} {memory : Option Bool} (accepted : reply.answer = 0) :
    attempts start id (record ++ [(.create uid id memory, reply)]) = 0 := by
  simp [attempts, attemptsAfter, accepted]

theorem attempts_sent {msg : UserMemory} {len : Len} {memory : Memory}
    (found : reply.answer ≠ -ENOENT) :
    attempts start id (record ++ [(.body (.send id msg len memory), reply)]) =
      attempts start id record + 1 := by
  simp [attempts, attemptsAfter, found]

theorem attemptsAfter_le (id : UInt64) (before : Nat) (event : Operation × Reply) :
    attemptsAfter id before event ≤ before + 1 := by
  unfold attemptsAfter
  split
  · split <;> omega
  · split <;> omega
  · omega

theorem attempts_le (id : UInt64) (start : Store) (record : Record) :
    attempts start id record ≤ start.countOf id + record.length := by
  induction record using List.reverseRecOn with
  | nil => exact Nat.le_refl _
  | append_singleton record event ih =>
      have last := attemptsAfter_le id (attempts start id record) event
      unfold attempts at ih last ⊢
      rw [List.foldl_append, List.foldl_cons, List.foldl_nil, List.length_append, List.length_singleton]
      omega

theorem few_of_length {operations : List Operation}
    (small : start.countOf id + operations.length < 2 ^ 64) :
    Always Operation.perform start operations (fun record _ => attempts start id record < 2 ^ 64) := by
  intro prior before record store ran
  have length : record.length = prior.length := by
    rw [← exec_inputs ran, List.length_map]
  have shorter := before.length_le
  have bounded := attempts_le id start record
  omega

def Passes (id : UInt64) : Operation → Int64 → Prop
  | .create _ number _, answer => number = id → answer ≠ 0
  | .body (.send number _ _ _), answer => number = id → answer = -ENOENT
  | _, _ => True

theorem attempts_passed {operation : Operation} (passes : Passes id operation reply.answer) :
    attempts start id (record ++ [(operation, reply)]) = attempts start id record := by
  unfold attempts
  rw [List.foldl_append, List.foldl_cons, List.foldl_nil]
  cases operation with
  | create uid number memory =>
      have other : ¬ (number = id ∧ reply.answer = 0) := fun both => passes both.1 both.2
      exact if_neg other
  | body call =>
      cases call with
      | send number msg len memory =>
          have other : ¬ (number = id ∧ reply.answer ≠ -ENOENT) := fun both => both.2 (passes both.1)
          exact if_neg other
      | recv number msg len => rfl
  | destroy uid number => rfl
  | count number => rfl
  | length number => rfl
  | aclAdd uid number pid memory => rfl
  | aclRemove uid number pid => rfl

theorem passes_of_refusal {operation : Operation} {answer : Int64}
    (refused : Refusal operation answer) : Passes id operation answer := by
  cases operation with
  | create uid number memory =>
      have negative : answer < 0 := refused
      exact fun _ => Int64.ne_of_lt negative
  | body call =>
      cases call with
      | send number msg len memory => exact fun _ => refused
      | recv number msg len => exact trivial
  | destroy uid number => exact trivial
  | count number => exact trivial
  | length number => exact trivial
  | aclAdd uid number pid memory => exact trivial
  | aclRemove uid number pid => exact trivial

end Attempts

/-! ### The one-sided invariant -/

/-- The count has never fallen behind the queue. -/
def Mailbox.Covered (box : Mailbox) : Prop := box.messages.length ≤ box.count.toNat

instance (box : Mailbox) : Decidable box.Covered := inferInstanceAs (Decidable (_ ≤ _))

structure Tracked (start : Store) (record : Record) (store : Store) : Prop where
  distinct : store.Distinct
  covered : ∀ box ∈ store.mail, box.Covered
  counted : ∀ box ∈ store.mail, box.count.toNat = attempts start box.id record

theorem tracked_start {start : Store} (distinct : start.Distinct)
    (covered : ∀ box ∈ start.mail, box.Covered) : Tracked start [] start := by
  refine ⟨distinct, covered, ?_⟩
  intro box member
  have counted : start.countOf box.id = box.count.toNat := by
    rw [Store.countOf, distinct.findsEach box member]
  exact counted.symm

theorem apart_of_found {store : Store} {id : UInt64} {before after : List Mailbox}
    {box other : Mailbox} (found : Found Mailbox.id id store.mail before box after)
    (distinct : store.Distinct) (member : other ∈ before ++ after) :
    other ∈ store.mail ∧ other.id ≠ id := by
  unfold Store.Distinct at distinct
  rw [ids_found found, List.nodup_middle, ← List.map_append] at distinct
  constructor
  · rw [found.split]
    exact List.perm_middle.mem_iff.mpr (List.mem_cons_of_mem box member)
  · intro same
    exact (List.nodup_cons.mp distinct).1 (List.mem_map.mpr ⟨other, member, same⟩)

theorem BoxEdit.passes {box changed : Mailbox} {operation : Operation} {answer : Int64}
    (edit : BoxEdit box changed operation answer) {id : UInt64} (apart : id ≠ box.id) :
    Passes id operation answer := by
  cases edit with
  | granted pid fresh => exact trivial
  | marked pid fresh => exact trivial
  | revoked pid listed => exact trivial
  | failed msg len memory fails => exact fun same => absurd same.symm apart
  | sent msg len memory succeeds fits => exact fun same => absurd same.symm apart
  | received msg len oldest => exact trivial

theorem BoxEdit.tracked {start : Store} {record : Record} {box changed : Mailbox}
    {operation : Operation} {reply : Reply} (edit : BoxEdit box changed operation reply.answer)
    (covered : box.Covered) (counted : box.count.toNat = attempts start box.id record)
    (few : attempts start box.id (record ++ [(operation, reply)]) < 2 ^ 64) :
    changed.Covered ∧
      changed.count.toNat = attempts start box.id (record ++ [(operation, reply)]) := by
  have sum : (box.count + 1).toNat = (box.count.toNat + 1) % 2 ^ 64 := UInt64.toNat_add box.count 1
  have still (passes : Passes box.id operation reply.answer) :
      box.count.toNat = attempts start box.id (record ++ [(operation, reply)]) :=
    counted.trans (attempts_passed passes).symm
  rcases reply with ⟨answer, written, taken⟩
  unfold Mailbox.Covered at covered ⊢
  cases edit with
  | granted pid fresh => exact ⟨covered, still trivial⟩
  | marked pid fresh => exact ⟨covered, still trivial⟩
  | revoked pid listed => exact ⟨covered, still trivial⟩
  | failed msg len memory fails =>
      have reached : (-ENOMEM : Int64) ≠ -ENOENT := by decide
      rw [attempts_sent reached] at few ⊢
      dsimp only
      omega
  | sent msg len memory succeeds fits =>
      have reached : (0 : Int64) ≠ -ENOENT := by decide
      rw [attempts_sent reached] at few ⊢
      dsimp only
      rw [List.length_append, List.length_singleton]
      omega
  | received msg len oldest =>
      rw [oldest, List.length_cons] at covered
      refine ⟨?_, still trivial⟩
      dsimp only
      omega

theorem tracked_step {start store next : Store} {record : Record} {operation : Operation}
    {reply : Reply} (tracked : Tracked start record store)
    (edit : Edit store next operation reply.answer)
    (few : ∀ id, attempts start id (record ++ [(operation, reply)]) < 2 ^ 64) :
    Tracked start (record ++ [(operation, reply)]) next := by
  have distinct := edit.distinct tracked.distinct
  have still (box : Mailbox) (member : box ∈ store.mail)
      (passes : Passes box.id operation reply.answer) :
      box.count.toNat = attempts start box.id (record ++ [(operation, reply)]) :=
    (tracked.counted box member).trans (attempts_passed passes).symm
  rcases reply with ⟨answer, written, taken⟩
  cases edit with
  | unchanged operation answer refused same =>
      subst next
      refine ⟨distinct, tracked.covered, ?_⟩
      intro box member
      exact still box member (passes_of_refusal refused)
  | @created id aclC fresh added =>
      subst next
      refine ⟨distinct, ?_, ?_⟩
      · intro box member
        rcases List.mem_append.mp member with old | new
        · exact tracked.covered box old
        · rw [List.mem_singleton.mp new]
          exact Nat.zero_le _
      · intro box member
        rcases List.mem_append.mp member with old | new
        · have apart : id ≠ box.id := fun same => fresh box old same.symm
          exact still box old (fun same => absurd same apart)
        · rw [List.mem_singleton.mp new]
          exact (attempts_created rfl).symm
  | @destroyed id before after box found zero removed =>
      subst next
      have stays (other : Mailbox) (member : other ∈ before ++ after) : other ∈ store.mail :=
        (apart_of_found found tracked.distinct member).1
      refine ⟨distinct, fun other member => tracked.covered other (stays other member), ?_⟩
      intro other member
      exact still other (stays other member) trivial
  | @edited operation answer before after box changed found edit replaced =>
      subst next
      have present := found.mem
      obtain ⟨covered, counted⟩ := edit.tracked (tracked.covered box present)
        (tracked.counted box present) (few box.id)
      have each (other : Mailbox) (member : other ∈ before ++ changed :: after) :
          other = changed ∨ (other ∈ store.mail ∧ other.id ≠ box.id) := by
        rcases List.mem_append.mp member with front | back
        · exact Or.inr (apart_of_found found tracked.distinct (List.mem_append_left _ front))
        rcases List.mem_cons.mp back with same | back
        · exact Or.inl same
        · exact Or.inr (apart_of_found found tracked.distinct (List.mem_append_right _ back))
      refine ⟨distinct, ?_, ?_⟩
      · intro other member
        rcases each other member with rfl | ⟨old, apart⟩
        · exact covered
        · exact tracked.covered other old
      · intro other member
        rcases each other member with rfl | ⟨old, apart⟩
        · rw [edit.id]
          exact counted
        · exact still other old (edit.passes apart)

def DestroysEmpty (store : Store) : Operation → Prop
  | .destroy uid id =>
      ∀ reply next, (Operation.destroy uid id).perform store = .ok (reply, next) →
        (reply.answer = 0 → ∃ before box after, store.mail = before ++ box :: after ∧
          box.id = id ∧ box.messages = [] ∧ next = { store with mail := before ++ after }) ∧
        (reply.answer ≠ 0 → next = store)
  | _ => True

theorem Tracked.destroysEmpty {start store : Store} {record : Record}
    (tracked : Tracked start record store) (operation : Operation) :
    DestroysEmpty store operation := by
  cases operation with
  | create uid number memory => exact trivial
  | body call => exact trivial
  | count number => exact trivial
  | length number => exact trivial
  | aclAdd uid number pid memory => exact trivial
  | aclRemove uid number pid => exact trivial
  | destroy uid id =>
      intro reply next ran
      have edit := edit_of_perform ran
      rcases reply with ⟨answer, written, taken⟩
      cases edit with
      | unchanged operation answer refused same =>
          have negative : answer < 0 := refused
          exact ⟨fun accepted => absurd accepted (Int64.ne_of_lt negative), fun _ => same⟩
      | @destroyed id before after box found zero removed =>
          refine ⟨fun _ => ⟨before, box, after, found.split, found.own, ?_, removed⟩,
            fun nonzero => absurd rfl nonzero⟩
          -- The count covers the queue, so an empty count leaves no room for a message.
          have covered : box.messages.length ≤ box.count.toNat := tracked.covered box found.mem
          rw [zero] at covered
          exact List.eq_nil_of_length_eq_zero (Nat.le_zero.mp covered)
      | edited found edit replaced => cases edit

structure DropsNothing (start : Store) (operations : List Operation) : Prop where
  empty : EveryStep Operation.perform start operations
    (fun _ store operation => DestroysEmpty store operation)
  spared : Spares Operation.perform start operations Fault.Damages

theorem destroysEmpty_run {start : Store} (distinct : start.Distinct)
    (covered : ∀ box ∈ start.mail, box.Covered) {operations : List Operation}
    (few : ∀ id, Always Operation.perform start operations
      (fun record _ => attempts start id record < 2 ^ 64)) :
    EveryStep Operation.perform start operations
      (fun _ store operation => DestroysEmpty store operation) := by
  have small : Always Operation.perform start operations
      (fun record _ => ∀ id, attempts start id record < 2 ^ 64) := by
    intro prior before record store ran id
    exact few id prior before record store ran
  have tracked : Always Operation.perform start operations (Tracked start) := by
    refine always_of_always (Tracked start) (tracked_start distinct covered) ?_ small
    intro record before operation reply next tracked _ stepped few
    exact tracked_step tracked (edit_of_perform stepped) few
  intro prior operation before record store ran
  have within : prior <+: operations := (List.prefix_append prior [operation]).trans before
  exact (tracked prior within record store ran).destroysEmpty operation

/-! ### Stores without a mailbox -/

/-- Create tests its cursor, which is NULL when there is no mailbox to visit. -/
theorem create_of_empty {store next : Store} {uid id : UInt64} {memory : Option Bool}
    {answer : Int64} (empty : store.mail = [])
    (ran : mbx421Create uid id memory store = .ok (answer, next)) : next = store := by
  unfold mbx421Create at ran
  rw [empty] at ran
  split at ran
  · cases ran
    rfl
  split at ran
  · cases ran
    rfl
  split at ran
  · cases ran
    rfl
  · cases ran
    rfl

theorem empty_kept {store next : Store} {operation : Operation} {reply : Reply}
    (empty : store.mail = []) (ran : operation.perform store = .ok (reply, next)) :
    next.mail = [] := by
  have nothing (box : Mailbox) : box ∉ store.mail := by
    rw [empty]
    exact List.not_mem_nil
  have edit := edit_of_perform ran
  rcases reply with ⟨answer, written, taken⟩
  cases edit with
  | unchanged operation answer refused same =>
      rw [same]
      exact empty
  | created fresh added =>
      rw [create_of_empty empty (plain_ok ran)]
      exact empty
  | destroyed found zero removed => exact absurd found.mem (nothing _)
  | edited found edit replaced => exact absurd found.mem (nothing _)

theorem contained_of_empty {store : Store} (empty : store.mail = []) (operation : Operation) :
    operation.Contained store := by
  have missing (id : UInt64) (box : Mailbox) : store.find id ≠ some box := by
    rw [Store.find, empty]
    intro looked
    cases looked
  cases operation with
  | body call =>
      cases call with
      | send id msg len memory => exact fun box looked => absurd looked (missing id box)
      | recv id msg len => exact fun box looked => absurd looked (missing id box)
  | create uid id memory => exact trivial
  | destroy uid id => exact trivial
  | count id => exact trivial
  | length id => exact trivial
  | aclAdd uid id pid memory => exact trivial
  | aclRemove uid id pid => exact trivial

/-- Over every run with fewer than 2^64 sends to each mailbox, destroy drops
nothing exactly when no operation stores where it was given no memory. From a
store without a mailbox there is never one to send to, whatever the blocks. -/
theorem destroy_drops_nothing (start : Store) (distinct : start.Distinct)
    (covered : ∀ box ∈ start.mail, box.Covered) (operations : List Operation)
    (few : ∀ id, Always Operation.perform start operations
      (fun record _ => attempts start id record < 2 ^ 64)) :
    (DropsNothing start operations ↔
      EveryStep Operation.perform start operations
        (fun _ store operation => operation.Contained store)) ∧
      (start.mail = [] → DropsNothing start operations) := by
  have spares : Spares Operation.perform start operations Fault.Damages ↔ _ :=
    spares_iff_everyStep operation_spared_iff operations
  have empties := destroysEmpty_run distinct covered few
  refine ⟨⟨fun drops => spares.mp drops.spared, fun contained => ⟨empties, spares.mpr contained⟩⟩, ?_⟩
  intro empty
  refine ⟨empties, spares.mpr ?_⟩
  intro prior operation before record store ran
  have still : store.mail = [] :=
    invariant_exec (fun _ store => store.mail = []) empty
      (fun _ _ _ _ _ empty stepped => empty_kept empty stepped) ran
  exact contained_of_empty still operation

def busyAndEmpty : Store :=
  { oneMessage with
    mail := oneMessage.mail ++
      [{ aclC := false, id := MAXID + 1, count := 0, messages := [], acl := [] }] }

/-- A send that fails, a receive, the destroy of the other mailbox, and a destroy
that the count of the failed send still refuses. -/
def failedThenDestroyed : List Operation :=
  [.body (.send MAXID (fun _ => 7) ⟨3, by decide⟩
      { node := none, buffer := false, copy := { copied := 0, rest := fun _ => 0 } }),
    .body (.recv MAXID (fun _ => 0) 3), .destroy 0 (MAXID + 1), .destroy 0 MAXID]

theorem destroy_drops_nothing_failed : DropsNothing busyAndEmpty failedThenDestroyed := by
  have small (id : UInt64) : busyAndEmpty.countOf id ≤ 1 := by
    unfold Store.countOf
    cases looked : busyAndEmpty.find id with
    | none => exact Nat.zero_le 1
    | some box =>
        obtain ⟨before, after, found⟩ := first_some_iff.mp looked
        have counts : ∀ box ∈ busyAndEmpty.mail, box.count.toNat ≤ 1 := by decide
        exact counts box found.mem
  refine (destroy_drops_nothing busyAndEmpty (by decide) (by decide) failedThenDestroyed
    (fun id => few_of_length ?_)).1.mpr ?_
  · have length : failedThenDestroyed.length = 4 := rfl
    have few := small id
    omega
  · refine everyStep_cons.mpr ⟨fun _ _ succeeds => absurd rfl succeeds.1, ?_⟩
    intro reply next sent
    cases sent
    refine everyStep_cons.mpr ⟨?_, ?_⟩
    · intro box looked none
      cases looked
      cases none
    intro reply next received
    apply everyStep_of_mem
    intro operation member store
    simp only [List.mem_cons, List.not_mem_nil, or_false] at member
    rcases member with rfl | rfl
    · exact trivial
    · exact trivial

end CS421.Mail
