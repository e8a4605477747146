/-
Which calls keep the count of a mailbox equal to the length of its list.

The send increments the count before it knows whether there will be a message,
and the receive does not touch the count at all; the other calls change neither.
-/

import CS421.Mail.Effects

set_option autoImplicit false

namespace CS421.Mail

open Runs Keyed

def Mailbox.Counted (box : Mailbox) : Prop := box.count.toNat = box.messages.length

def Store.Counted (store : Store) : Prop := ∀ box ∈ store.mail, box.Counted

instance (store : Store) : Decidable store.Counted :=
  inferInstanceAs (Decidable (∀ box ∈ store.mail, box.count.toNat = box.messages.length))

/-- The call ends, and every mailbox of the store it leaves is counted. A
receive answers `-ESRCH` exactly when there is no message. -/
structure KeepsCounts (store : Store) (operation : Operation) : Prop where
  kept : ∃ reply next, operation.perform store = .ok (reply, next) ∧ next.Counted
  told : ∀ id msg len box, operation = .body (.recv id msg len) → store.find id = some box →
    ∃ reply next, recvLoop id msg len store = .ok (reply, next) ∧
      (reply.answer = -ESRCH ↔ box.messages = [])

/-- The call is not a send whose allocations fail, whose block has no room for a
message or whose count overflows, not a receive that finds a message, and not a
create that stores through a null pointer. -/
def Balanced (store : Store) (operation : Operation) : Prop :=
  match operation with
  | .create uid id memory =>
      store.mailboxC ≠ 0 → id ≠ 0 → ¬ id < MAXID → uid = 0 →
        (∀ box ∈ store.mail, box.id ≠ id) → store.mail ≠ [] → memory ≠ none
  | .body (.send id _ _ memory) =>
      ∀ box, store.find id = some box →
        memory.Succeeds ∧ memory.Fits ∧ box.count.toNat + 1 < 2 ^ 64
  | .body (.recv id _ _) => ∀ box, store.find id = some box → box.count = 0
  | .destroy _ _ | .count _ | .length _ | .aclAdd _ _ _ _ | .aclRemove _ _ _ => True

section Box

variable {box : Mailbox} {msgR : Message} {rest : List Message}

theorem not_counted_failed (own : box.Counted) :
    ¬ Mailbox.Counted { box with count := box.count + 1 } := by
  intro moved
  have sum : (box.count + 1).toNat = (box.count.toNat + 1) % 2 ^ 64 := UInt64.toNat_add box.count 1
  have limit : box.count.toNat < 2 ^ 64 := UInt64.toNat_lt box.count
  unfold Mailbox.Counted at own moved
  dsimp only at moved
  omega

theorem counted_sent_iff (own : box.Counted) :
    Mailbox.Counted { box with count := box.count + 1, messages := box.messages ++ [msgR] } ↔
      box.count.toNat + 1 < 2 ^ 64 := by
  have sum : (box.count + 1).toNat = (box.count.toNat + 1) % 2 ^ 64 := UInt64.toNat_add box.count 1
  have limit : box.count.toNat < 2 ^ 64 := UInt64.toNat_lt box.count
  unfold Mailbox.Counted at own ⊢
  dsimp only
  rw [List.length_append, List.length_singleton]
  omega

theorem not_counted_received (own : box.Counted) (oldest : box.messages = msgR :: rest) :
    ¬ Mailbox.Counted { box with messages := rest } := by
  intro shorter
  unfold Mailbox.Counted at own shorter
  dsimp only at shorter
  rw [oldest, List.length_cons] at own
  omega

end Box

theorem counted_of_find {store : Store} {id : UInt64} {box : Mailbox} (counted : store.Counted)
    (found : store.find id = some box) : box.Counted := by
  obtain ⟨before, after, here⟩ := first_some_iff.mp found
  exact counted box here.mem

theorem counted_replace {store : Store} {id : UInt64} {before kept after : List Mailbox}
    {box : Mailbox} (counted : store.Counted)
    (found : Found Mailbox.id id store.mail before box after) (fresh : ∀ new ∈ kept, new.Counted) :
    ({ store with mail := before ++ kept ++ after } : Store).Counted := by
  intro other member
  have old (within : other ∈ before ++ box :: after) : other.Counted :=
    counted other (found.split ▸ within)
  rcases List.mem_append.mp member with front | back
  · rcases List.mem_append.mp front with earlier | new
    · exact old (List.mem_append_left _ earlier)
    · exact fresh other new
  · exact old (List.mem_append_right _ (List.mem_cons_of_mem box back))

theorem search_counted {Answer : Type} {store : Store} {id : UInt64} {missing : Answer}
    {act : Mailbox → Except Fault (Answer × List Mailbox)} (counted : store.Counted)
    (keeps : ∀ box, store.find id = some box → box.Counted →
      ∃ answer kept, act box = .ok (answer, kept) ∧ ∀ new ∈ kept, new.Counted) :
    ∃ answer next, store.search id missing act = .ok (answer, next) ∧ next.Counted := by
  cases looked : store.find id with
  | none =>
      have searched : onFirst Mailbox.id id missing act store.mail = .ok (missing, store.mail) :=
        onFirst_of_none looked
      exact ⟨missing, store, by rw [Store.search, searched], counted⟩
  | some box =>
      obtain ⟨answer, kept, acted, fresh⟩ := keeps box looked (counted_of_find counted looked)
      obtain ⟨before, after, found⟩ := first_some_iff.mp looked
      exact ⟨answer, _, search_found found acted, counted_replace counted found fresh⟩

def Ends {Answer : Type} (outcome : Except Fault (Answer × Store)) : Prop :=
  ∃ answer next, outcome = .ok (answer, next) ∧ next.Counted

theorem ends_plain_iff {outcome : Outcome} : Ends (plain outcome) ↔ Ends outcome := by
  constructor
  · intro ends
    obtain ⟨reply, next, same, counted⟩ := ends
    cases ended : outcome with
    | error fault =>
        rw [ended, plain] at same
        cases same
    | ok out =>
        rw [ended, plain] at same
        cases same
        exact ⟨out.1, out.2, rfl, counted⟩
  · intro ends
    obtain ⟨answer, next, same, counted⟩ := ends
    exact ⟨_, next, by rw [same, plain], counted⟩

theorem ends_refused {Answer : Type} {store : Store} (counted : store.Counted) (answer : Answer) :
    Ends (.ok (answer, store)) :=
  ⟨answer, store, rfl, counted⟩

theorem ends_ite {Answer : Type} {test : Prop} [Decidable test]
    {left right : Except Fault (Answer × Store)} (yes : test → Ends left)
    (no : ¬ test → Ends right) : Ends (if test then left else right) := by
  by_cases holds : test
  · rw [if_pos holds]
    exact yes holds
  · rw [if_neg holds]
    exact no holds

private theorem counted_singleton {box : Mailbox} (own : box.Counted) :
    ∀ new ∈ [box], new.Counted := by
  intro new member
  rw [List.mem_singleton.mp member]
  exact own

section Operations

variable {store : Store}

theorem destroy_ends (counted : store.Counted) (uid id : UInt64) :
    Ends (mbx421Destroy uid id store) := by
  unfold mbx421Destroy
  apply ends_ite (fun _ => ends_refused counted _)
  intro _
  apply ends_ite (fun _ => ends_refused counted _)
  intro _
  apply search_counted counted
  intro box _ own
  unfold destroyFound
  by_cases full : box.count > 0
  · rw [if_pos full]
    exact ⟨_, _, rfl, counted_singleton own⟩
  · rw [if_neg full]
    exact ⟨_, _, rfl, fun new member => absurd member List.not_mem_nil⟩

theorem count_ends (counted : store.Counted) (id : UInt64) : Ends (mbx421Count id store) := by
  apply search_counted counted
  intro box _ own
  exact ⟨_, _, rfl, counted_singleton own⟩

theorem length_ends (counted : store.Counted) (id : UInt64) : Ends (mbx421Length id store) :=
  ends_refused counted _

theorem aclAdd_ends (counted : store.Counted) (uid id : UInt64) (pid : Int32) (memory : Bool) :
    Ends (mbx421AclAdd uid id pid memory store) := by
  unfold mbx421AclAdd
  apply ends_ite (fun _ => ends_refused counted _)
  intro _
  apply search_counted counted
  intro box _ own
  have marked : Mailbox.Counted { box with aclC := true } := own
  have extended : Mailbox.Counted { box with aclC := true, acl := box.acl ++ [pid] } := own
  unfold aclAddFound
  split
  · exact ⟨_, _, rfl, counted_singleton own⟩
  · dsimp only
    split
    · exact ⟨_, _, rfl, counted_singleton marked⟩
    · exact ⟨_, _, rfl, counted_singleton extended⟩

theorem aclRemove_ends (counted : store.Counted) (uid id : UInt64) (pid : Int32) :
    Ends (mbx421AclRemove uid id pid store) := by
  unfold mbx421AclRemove
  apply ends_ite (fun _ => ends_refused counted _)
  intro _
  apply search_counted counted
  intro box _ own
  have shortened : Mailbox.Counted { box with acl := box.acl.erase pid } := own
  unfold aclRemoveFound
  split
  · exact ⟨_, _, rfl, counted_singleton shortened⟩
  · exact ⟨_, _, rfl, counted_singleton own⟩

theorem create_ends_iff (counted : store.Counted) (uid id : UInt64) (memory : Option Bool) :
    Ends (mbx421Create uid id memory store) ↔ Balanced store (.create uid id memory) := by
  unfold mbx421Create Balanced
  by_cases started : store.mailboxC = 0
  · simp [started, ends_refused counted]
  by_cases zero : id = 0
  · simp [started, zero, ends_refused counted]
  by_cases low : id < MAXID
  · simp [started, low, ends_refused counted]
  by_cases root : uid = 0
  · by_cases known : ∃ box ∈ store.mail, box.id = id
    · refine iff_of_true ?_ ?_
      · simp [started, zero, low, root, known, ends_refused counted]
      · intro _ _ _ _ unknown
        obtain ⟨box, member, same⟩ := known
        exact absurd same (unknown box member)
    · by_cases empty : store.mail = []
      · simp [started, zero, low, root, empty, ends_refused counted]
      · have unknown : ∀ box ∈ store.mail, box.id ≠ id :=
          fun box member same => known ⟨box, member, same⟩
        cases memory with
        | none => simp [started, zero, low, root, empty, known, Ends]
        | some aclC =>
            have appended : Store.Counted { store with
                mail := store.mail ++ [{ aclC := aclC, id := id, count := 0, messages := [], acl := [] }] } := by
              intro box member
              rcases List.mem_append.mp member with old | new
              · exact counted box old
              · rw [List.mem_singleton.mp new]
                rfl
            simp [started, zero, low, root, empty, known, ends_refused appended]
  · simp [started, zero, low, root, ends_refused counted]

theorem send_ends_iff (counted : store.Counted) (id : UInt64) (msg : UserMemory) (len : Len)
    (memory : Memory) :
    Ends (step (.send id msg len memory) store) ↔
      Balanced store (.body (.send id msg len memory)) := by
  constructor
  · intro ⟨reply, next, ran, after⟩ box looked
    have own := counted_of_find counted looked
    cases effect_of_step ran with
    | absent body missing same => exact absurd (looked.symm.trans missing) (Option.some_ne_none box)
    | failed msg len memory fails replaced =>
        have same := replaced.found_eq looked
        subst same
        exact absurd (counted_of_find after replaced.own) (not_counted_failed own)
    | sent msg len memory succeeds fits replaced =>
        have same := replaced.found_eq looked
        subst same
        have below := (counted_sent_iff own).mp (counted_of_find after replaced.own)
        exact ⟨succeeds, fits, below⟩
  · intro balanced
    apply ends_plain_iff.mpr
    apply search_counted counted
    intro box looked own
    obtain ⟨succeeds, fits, below⟩ := balanced box looked
    exact ⟨0, _, sendFound_sent succeeds fits, counted_singleton ((counted_sent_iff own).mpr below)⟩

theorem recv_ends_iff (counted : store.Counted) (id : UInt64) (msg : UserMemory) (len : Int64) :
    Ends (step (.recv id msg len) store) ↔ Balanced store (.body (.recv id msg len)) := by
  constructor
  · intro ⟨reply, next, ran, after⟩ box looked
    have own := counted_of_find counted looked
    cases effect_of_step ran with
    | absent body missing same => exact absurd (looked.symm.trans missing) (Option.some_ne_none box)
    | empty msg len zero replaced =>
        rw [replaced.found_eq looked]
        exact zero
    | received msg len nonzero oldest replaced =>
        have same := replaced.found_eq looked
        subst same
        exact absurd (counted_of_find after replaced.own) (not_counted_received own oldest)
  · intro balanced
    apply search_counted counted
    intro box looked own
    refine ⟨{ answer := -ESRCH, written := [], taken := none }, _, ?_, counted_singleton own⟩
    rw [recvFound, if_pos (beq_iff_eq.mpr (balanced box looked))]

theorem recv_told (counted : store.Counted) {id : UInt64} {box : Mailbox}
    (looked : store.find id = some box) (msg : UserMemory) (len : Int64) :
    ∃ reply next, recvLoop id msg len store = .ok (reply, next) ∧
      (reply.answer = -ESRCH ↔ box.messages = []) := by
  have own := counted_of_find counted looked
  unfold Mailbox.Counted at own
  obtain ⟨before, after, found⟩ := first_some_iff.mp looked
  cases queue : box.messages with
  | nil =>
      have zero : box.count = 0 := by
        rw [queue] at own
        exact UInt64.toNat_inj.mp own
      have acted : recvFound box =
          .ok ({ answer := -ESRCH, written := [], taken := none }, [box]) := by
        rw [recvFound, if_pos (beq_iff_eq.mpr zero)]
      exact ⟨_, _, search_found found acted, iff_of_true rfl rfl⟩
  | cons msgR rest =>
      have nonzero : box.count ≠ 0 := by
        intro zero
        rw [queue, zero] at own
        cases own
      have acted : recvFound box =
          .ok ({ answer := msgR.length.toInt64, written := [], taken := some msgR },
            [{ box with messages := rest }]) := by
        rw [recvFound, if_neg (mt beq_iff_eq.mp nonzero), queue]
      refine ⟨_, _, search_found found acted, iff_of_false ?_ (List.cons_ne_nil msgR rest)⟩
      intro same
      have length : msgR.length = (-ESRCH).toUInt64 := congrArg Int64.toUInt64 same
      have small := msgR.small
      rw [length] at small
      exact absurd small (by decide)

theorem ends_iff_balanced (counted : store.Counted) (operation : Operation) :
    Ends (operation.perform store) ↔ Balanced store operation := by
  cases operation with
  | create uid id memory => exact ends_plain_iff.trans (create_ends_iff counted uid id memory)
  | destroy uid id => exact iff_of_true (ends_plain_iff.mpr (destroy_ends counted uid id)) trivial
  | count id => exact iff_of_true (ends_plain_iff.mpr (count_ends counted id)) trivial
  | length id => exact iff_of_true (ends_plain_iff.mpr (length_ends counted id)) trivial
  | aclAdd uid id pid memory =>
      exact iff_of_true (ends_plain_iff.mpr (aclAdd_ends counted uid id pid memory)) trivial
  | aclRemove uid id pid =>
      exact iff_of_true (ends_plain_iff.mpr (aclRemove_ends counted uid id pid)) trivial
  | body call =>
      cases call with
      | send id msg len memory => exact send_ends_iff counted id msg len memory
      | recv id msg len => exact recv_ends_iff counted id msg len

end Operations

theorem counted_run {start : Store} (counted : start.Counted) {calls : List Operation}
    (every : EveryStep Operation.perform start calls (fun _ store operation => Balanced store operation)) :
    Always Operation.perform start calls (fun _ store => store.Counted) := by
  intro prior before history store ran
  refine invariant_everyStep (fun _ store => store.Counted) counted ?_
    (fun first operation within => every first operation (within.trans before)) ran
  intro _ store operation reply next counted balanced stepped
  obtain ⟨other, reached, same, after⟩ := (ends_iff_balanced counted operation).mpr balanced
  rw [stepped] at same
  cases same
  exact after

theorem keepsCounts_iff_balanced (store : Store) (counted : store.Counted)
    (operation : Operation) : KeepsCounts store operation ↔ Balanced store operation := by
  rw [← ends_iff_balanced counted operation]
  constructor
  · intro keeps
    exact keeps.kept
  · intro ends
    exact ⟨ends, fun id msg len box _ looked => recv_told counted looked msg len⟩

def oneMessage : Store :=
  { mailboxC := 1
    mail := [{ aclC := false, id := MAXID, count := 1,
               messages := [{ msg := [7], length := 1, sized := rfl, small := by decide }],
               acl := [] }] }

theorem keepsCounts_iff_balanced_send :
    KeepsCounts oneMessage (.body (.send MAXID (fun _ => 9) ⟨3, by decide⟩
      { node := some .whole, buffer := true, copy := { copied := 3, rest := fun _ => 0 } })) := by
  refine (keepsCounts_iff_balanced oneMessage (by decide) _).mpr ?_
  intro box looked
  cases looked
  exact ⟨⟨by decide, rfl⟩, by decide, by decide⟩

/-- The receive takes the message and leaves the count at 1. -/
theorem count_left_behind :
    oneMessage.Counted ∧ ¬ KeepsCounts oneMessage (.body (.recv MAXID (fun _ => 0) 1)) := by
  have counted : oneMessage.Counted := by decide
  refine ⟨counted, ?_⟩
  intro keeps
  have zero := (recv_ends_iff counted MAXID (fun _ => 0) 1).mp keeps.kept _ rfl
  exact absurd zero (by decide)

end CS421.Mail
