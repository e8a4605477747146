/-
What create adds to the store.

After its allocation create tests the cursor of the scan for null, and not the
new mailbox. The cursor is null exactly when there was no mailbox to scan.
-/

import CS421.Mail.Identity

set_option autoImplicit false

namespace CS421.Mail

def Admitted (id : UInt64) : Prop := ¬ (id = 0 ∨ id < MAXID)

instance (id : UInt64) : Decidable (Admitted id) := inferInstanceAs (Decidable (¬ _))

/-- One mailbox with the id, which holds nothing, has come to the end of the
list. Its `aclC` is whatever the memory held. -/
def Store.AddedTo (store : Store) (id : UInt64) (next : Store) : Prop :=
  ∃ aclC, next = { store with
    mail := store.mail ++ [{ aclC := aclC, id := id, count := 0, messages := [], acl := [] }] }

def Creates (store : Store) (id : UInt64) (memory : Option Bool) : Prop :=
  if id ∈ store.ids then mbx421Create 0 id memory store = .ok (-EEXIST, store)
  else if memory = none then mbx421Create 0 id memory store = .ok (-ENOMEM, store)
  else ∃ next, mbx421Create 0 id memory store = .ok (0, next) ∧ store.AddedTo id next

section Create

variable {store : Store} {id : UInt64} {memory : Option Bool}

theorem mbx421Create_eq (started : store.mailboxC = 1) (admitted : Admitted id) :
    mbx421Create 0 id memory store =
      if id ∈ store.ids then .ok (-EEXIST, store)
      else if store.mail = [] then .ok (-ENOMEM, store)
      else
        match memory with
        | none => .error .nullDereference
        | some aclC =>
            .ok (0, { store with
              mail := store.mail ++
                [{ aclC := aclC, id := id, count := 0, messages := [], acl := [] }] }) := by
  have nonzero : id ≠ 0 := fun zero => admitted (Or.inl zero)
  have high : ¬ id < MAXID := fun low => admitted (Or.inr low)
  have scanned : (store.mail.any (fun box => box.id == id)) = decide (id ∈ store.ids) := by
    rw [Bool.eq_iff_iff, List.any_eq_true, decide_eq_true_iff, mem_ids]
    simp only [beq_iff_eq]
  have cursor : (store.mail.getLast? == none) = decide (store.mail = []) := by
    rw [Bool.eq_iff_iff, beq_iff_eq, List.getLast?_eq_none_iff, decide_eq_true_iff]
  cases memory with
  | none => simp [mbx421Create, started, nonzero, high, scanned, cursor]
  | some aclC => simp [mbx421Create, started, nonzero, high, scanned, cursor]

theorem creates_known (started : store.mailboxC = 1) (admitted : Admitted id)
    (known : id ∈ store.ids) : Creates store id memory := by
  rw [Creates, if_pos known, mbx421Create_eq started admitted, if_pos known]

/-- On an empty store the allocation that succeeded counts as failed. -/
theorem creates_first_iff (started : store.mailboxC = 1) (admitted : Admitted id)
    (empty : store.mail = []) : Creates store id memory ↔ memory = none := by
  have unknown : id ∉ store.ids := by
    rw [Store.ids, empty]
    exact List.not_mem_nil
  rw [Creates, if_neg unknown, mbx421Create_eq started admitted, if_neg unknown, if_pos empty]
  by_cases failed : memory = none
  · rw [if_pos failed]
    exact iff_of_true rfl failed
  · rw [if_neg failed]
    refine iff_of_false ?_ failed
    rintro ⟨next, same, _⟩
    have answers : (-ENOMEM : Int64) = 0 := congrArg Prod.fst (Except.ok.inj same)
    exact absurd answers (by decide)

/-- On any other store the allocation that failed counts as succeeded. -/
theorem creates_next_iff (started : store.mailboxC = 1) (admitted : Admitted id)
    (unknown : id ∉ store.ids) (others : store.mail ≠ []) :
    Creates store id memory ↔ memory ≠ none := by
  rw [Creates, if_neg unknown, mbx421Create_eq started admitted, if_neg unknown, if_neg others]
  cases memory with
  | none =>
      rw [if_pos rfl]
      refine iff_of_false ?_ (not_not_intro rfl)
      intro same
      cases same
  | some aclC =>
      rw [if_neg (Option.some_ne_none aclC)]
      exact iff_of_true ⟨_, rfl, aclC, rfl⟩ (Option.some_ne_none aclC)

end Create

/-- Create does what it is to do exactly when the id is known, or it has memory
on a store with a mailbox, or no memory on a store without one. -/
theorem creates_iff (store : Store) (id : UInt64) (memory : Option Bool)
    (started : store.mailboxC = 1) (admitted : Admitted id) :
    Creates store id memory ↔ id ∈ store.ids ∨ (memory ≠ none ↔ store.mail ≠ []) := by
  by_cases known : id ∈ store.ids
  · exact iff_of_true (creates_known started admitted known) (Or.inl known)
  by_cases empty : store.mail = []
  · rw [creates_first_iff started admitted empty]
    constructor
    · intro failed
      exact Or.inr (iff_of_false (not_not_intro failed) (not_not_intro empty))
    · intro condition
      by_contra allocated
      exact (condition.resolve_left known).mp allocated empty
  · rw [creates_next_iff started admitted known empty]
    constructor
    · intro allocated
      exact Or.inr (iff_of_true allocated empty)
    · intro condition
      exact (condition.resolve_left known).mpr empty

theorem creates_iff_oneMailbox :
    Creates oneMailbox (MAXID + 1) (some true) ↔
      MAXID + 1 ∈ oneMailbox.ids ∨ ((some true : Option Bool) ≠ none ↔ oneMailbox.mail ≠ []) :=
  creates_iff oneMailbox (MAXID + 1) (some true) rfl (by decide)

theorem first_mailbox_refused :
    ¬ ∀ (store : Store) (id : UInt64) (memory : Option Bool), store.mailboxC = 1 → Admitted id →
      Creates store id memory := by
  intro creates
  have first := creates { mailboxC := 1, mail := [] } MAXID (some false) rfl (by decide)
  exact absurd ((creates_first_iff rfl (by decide) rfl).mp first) (Option.some_ne_none false)

end CS421.Mail
