/-
What count and length tell about a mailbox.

Count finds the mailbox and answers 0, and logs the number it is asked for.
Length never compares an id: it walks the whole list, and answers an error as
soon as one mailbox is empty, whichever it is.
-/

import CS421.Mail.Counts
import CS421.Mail.Identity

set_option autoImplicit false

namespace CS421.Mail

open Keyed

def Tells (query : Store → Outcome) (store : Store) (law : Int64 → Prop) : Prop :=
  ∃ answer, query store = .ok (answer, store) ∧ law answer

/-- Count answers the number of messages, and length what the next receive is
about to answer, or an error where that finds no message. Without the mailbox
both answer an error. -/
structure QueriesAgree (store : Store) (id : UInt64) : Prop where
  counts : ∀ box, store.find id = some box →
    Tells (mbx421Count id) store (fun answer => answer.toInt = box.messages.length)
  lengths : ∀ box, store.find id = some box → ∀ msg len,
    ∃ reply next, recvLoop id msg len store = .ok (reply, next) ∧
      Tells (mbx421Length id) store (fun answer =>
        (answer < 0 ↔ reply.answer = -ESRCH) ∧ (reply.answer ≠ -ESRCH → answer = reply.answer))
  missing : store.find id = none →
    Tells (mbx421Count id) store (fun answer => answer < 0) ∧
      Tells (mbx421Length id) store (fun answer => answer < 0)

section Walks

variable {store : Store} {id : UInt64} {box : Mailbox}

theorem mbx421Count_found (looked : store.find id = some box) :
    mbx421Count id store = .ok (0, store) := by
  obtain ⟨before, after, found⟩ := first_some_iff.mp looked
  have searched : mbx421Count id store =
      .ok (0, { store with mail := before ++ [box] ++ after }) := search_found found rfl
  rw [found.rejoin] at searched
  exact searched

theorem mbx421Count_missing (missing : store.find id = none) :
    mbx421Count id store = .ok (-EEXIST, store) := by
  unfold mbx421Count Store.search
  rw [onFirst_of_none missing]

theorem lengthLoop_eq {mail : List Mailbox} (counted : ∀ box ∈ mail, box.Counted) :
    lengthLoop mail = if ∃ box ∈ mail, box.messages = [] then -EINVAL else 0 := by
  induction mail with
  | nil => rfl
  | cons box rest ih =>
      have own : box.count.toNat = box.messages.length := counted box List.mem_cons_self
      have later := ih (fun other member => counted other (List.mem_cons_of_mem box member))
      by_cases empty : box.messages = []
      · have some : ∃ other ∈ box :: rest, other.messages = [] :=
          ⟨box, List.mem_cons_self, empty⟩
        rw [if_pos some, lengthLoop]
        split
        · rfl
        · rw [empty]
          rfl
      · have nonzero : ¬ (box.count == 0) = true := by
          intro zero
          rw [beq_iff_eq.mp zero] at own
          exact empty (List.eq_nil_of_length_eq_zero own.symm)
        have full : ¬ box.messages.isEmpty = true := by
          rw [List.isEmpty_iff]
          exact empty
        have same : (∃ other ∈ box :: rest, other.messages = []) ↔
            ∃ other ∈ rest, other.messages = [] := by
          simp [empty]
        rw [lengthLoop, if_neg nonzero, if_neg full, later]
        simp only [same]

theorem length_tells_iff (counted : store.Counted) (id : UInt64) :
    Tells (mbx421Length id) store (fun answer => answer < 0) ↔
      ∃ box ∈ store.mail, box.messages = [] := by
  have ran : mbx421Length id store =
      .ok (if ∃ box ∈ store.mail, box.messages = [] then -EINVAL else 0, store) :=
    congrArg (fun answer => Except.ok (answer, store)) (lengthLoop_eq counted)
  unfold Tells
  rw [ran]
  by_cases empty : ∃ box ∈ store.mail, box.messages = []
  · rw [if_pos empty]
    exact iff_of_true ⟨-EINVAL, rfl, by decide⟩ empty
  · rw [if_neg empty]
    refine iff_of_false ?_ empty
    intro ⟨answer, same, negative⟩
    cases same
    exact absurd negative (by decide)

end Walks

/-- On a counted store the queries agree with receive exactly when the mailbox
is empty, or is missing beside one that is empty. -/
theorem queriesAgree_iff (store : Store) (counted : store.Counted) (id : UInt64) :
    QueriesAgree store id ↔
      (∀ box, store.find id = some box → box.messages = []) ∧
        (store.find id = none → ∃ box ∈ store.mail, box.messages = []) := by
  constructor
  · intro agree
    constructor
    · intro box looked
      obtain ⟨answer, ran, told⟩ := agree.counts box looked
      rw [mbx421Count_found looked] at ran
      cases ran
      exact List.eq_nil_of_length_eq_zero (Int.ofNat.inj told).symm
    · intro missing
      exact (length_tells_iff counted id).mp (agree.missing missing).2
  · intro ⟨empty, beside⟩
    refine ⟨?_, ?_, ?_⟩
    · intro box looked
      refine ⟨0, mbx421Count_found looked, ?_⟩
      rw [empty box looked]
      rfl
    · intro box looked msg len
      obtain ⟨reply, next, ran, told⟩ := recv_told counted looked msg len
      have refused : reply.answer = -ESRCH := told.mpr (empty box looked)
      obtain ⟨before, after, found⟩ := first_some_iff.mp looked
      obtain ⟨answer, answered, negative⟩ :=
        (length_tells_iff counted id).mpr ⟨box, found.mem, empty box looked⟩
      exact ⟨reply, next, ran, answer, answered, iff_of_true negative refused,
        fun received => absurd refused received⟩
    · intro missing
      exact ⟨⟨-EEXIST, mbx421Count_missing missing, by decide⟩,
        (length_tells_iff counted id).mpr (beside missing)⟩

theorem queriesAgree_iff_oneMessage :
    QueriesAgree oneMessage MAXID ↔
      (∀ box, oneMessage.find MAXID = some box → box.messages = []) ∧
        (oneMessage.find MAXID = none → ∃ box ∈ oneMessage.mail, box.messages = []) :=
  queriesAgree_iff oneMessage (by decide) MAXID

theorem count_not_told :
    ¬ ∀ (store : Store) (id : UInt64), store.Distinct → store.Counted → QueriesAgree store id := by
  intro agree
  obtain ⟨answer, ran, told⟩ := (agree oneMessage MAXID (by decide) (by decide)).counts _ rfl
  rw [mbx421Count_found rfl] at ran
  cases ran
  exact absurd told (by decide)

end CS421.Mail
