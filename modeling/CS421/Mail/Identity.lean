/-
The ids of the mailboxes in the list.

Only create adds an id, after a scan of the whole list, and only destroy takes
one away. So the ids stay distinct, and the mailboxes that stay keep their
order.
-/

import CS421.Mail.Delivery
import CS421.Mail.Edits
import Mathlib.Data.List.Nodup

set_option autoImplicit false

namespace CS421.Mail

open Runs Keyed

def Store.ids (store : Store) : List UInt64 := store.mail.map Mailbox.id

def Store.Distinct (store : Store) : Prop := store.ids.Nodup

instance (store : Store) : Decidable store.Distinct :=
  inferInstanceAs (Decidable (List.Nodup _))

def Store.FindsEach (store : Store) : Prop := ∀ box ∈ store.mail, store.find box.id = some box

theorem Store.Distinct.findsEach {store : Store} (distinct : store.Distinct) :
    store.FindsEach := by
  intro box member
  cases looked : store.find box.id with
  | none => exact absurd rfl (first_none_iff.mp looked box member)
  | some found =>
      obtain ⟨before, after, here⟩ := first_some_iff.mp looked
      rw [List.inj_on_of_nodup_map distinct here.mem member here.own]

theorem mem_ids {store : Store} {id : UInt64} :
    id ∈ store.ids ↔ ∃ box ∈ store.mail, box.id = id := List.mem_map

section Ids

variable {store : Store} {before after : List Mailbox} {box changed : Mailbox} {id : UInt64}

theorem ids_found (found : Found Mailbox.id id store.mail before box after) :
    store.ids = before.map Mailbox.id ++ id :: after.map Mailbox.id := by
  rw [Store.ids, found.split, List.map_append, List.map_cons, found.own]

theorem ids_removed :
    ({ store with mail := before ++ after } : Store).ids =
      before.map Mailbox.id ++ after.map Mailbox.id := by
  unfold Store.ids
  exact List.map_append

theorem ids_edited (found : Found Mailbox.id box.id store.mail before box after)
    (same : changed.id = box.id) :
    ({ store with mail := before ++ changed :: after } : Store).ids = store.ids :=
  found.map_key same

theorem ids_created :
    ({ store with mail := store.mail ++ [box] } : Store).ids = store.ids ++ [box.id] := by
  unfold Store.ids
  exact List.map_append

end Ids

theorem Edit.distinct {store next : Store} {operation : Operation} {answer : Int64}
    (distinct : store.Distinct) (edit : Edit store next operation answer) : next.Distinct := by
  unfold Store.Distinct at distinct ⊢
  cases edit with
  | unchanged operation answer refused same =>
      subst next
      exact distinct
  | @created id aclC fresh added =>
      subst next
      have unknown : id ∉ store.ids := by
        intro member
        obtain ⟨box, present, same⟩ := mem_ids.mp member
        exact fresh box present same
      rw [ids_created]
      exact distinct.append (List.nodup_singleton id) (List.disjoint_singleton.mpr unknown)
  | destroyed found zero removed =>
      subst next
      rw [ids_found found] at distinct
      rw [ids_removed]
      exact (List.nodup_middle.mp distinct).of_cons
  | edited found edit replaced =>
      subst next
      rw [ids_edited found edit.id]
      exact distinct

theorem Edit.order {store next : Store} {operation : Operation} {answer : Int64}
    (distinct : store.Distinct) (edit : Edit store next operation answer) (kept : UInt64 → Bool)
    (present : ∀ id, kept id = true → id ∈ store.ids)
    (remains : ∀ id, kept id = true → id ∈ next.ids) :
    next.ids.filter kept = store.ids.filter kept := by
  unfold Store.Distinct at distinct
  cases edit with
  | unchanged operation answer refused same =>
      subst next
      rfl
  | @created id aclC fresh added =>
      subst next
      have passed : ¬ kept id = true := by
        intro chosen
        obtain ⟨box, member, same⟩ := mem_ids.mp (present id chosen)
        exact fresh box member same
      rw [ids_created, List.filter_append, List.filter_cons_of_neg passed, List.filter_nil,
        List.append_nil]
  | @destroyed id before after box found zero removed =>
      subst next
      rw [ids_found found] at distinct ⊢
      have gone : id ∉ before.map Mailbox.id ++ after.map Mailbox.id :=
        (List.nodup_cons.mp (List.nodup_middle.mp distinct)).1
      have passed : ¬ kept id = true := by
        intro chosen
        have member := remains id chosen
        rw [ids_removed] at member
        exact gone member
      rw [ids_removed, List.filter_append, List.filter_append, List.filter_cons_of_neg passed]
  | edited found edit replaced =>
      subst next
      rw [ids_edited found edit.id]

/-- Calls of any callers. -/
def anyCall : Machine Service (UInt64 × Syscall) Reply Trap := fun call => call.2.perform call.1

def Present (kept : UInt64 → Bool) (service : Service) : Prop :=
  ∀ id, kept id = true → id ∈ service.store.ids

theorem Served.distinct {uid : UInt64} {service next : Service} (served : Served uid service next)
    (distinct : service.store.Distinct) : next.store.Distinct := by
  cases served with
  | refused same =>
      subst next
      exact distinct
  | shut root empty unlinked =>
      subst next
      exact List.nodup_nil
  | operated operation answer made edit linked => exact edit.distinct distinct

theorem Served.order {uid : UInt64} {service next : Service} (served : Served uid service next)
    (distinct : service.store.Distinct) (kept : UInt64 → Bool) (present : Present kept service)
    (remains : Present kept next) :
    next.store.ids.filter kept = service.store.ids.filter kept := by
  cases served with
  | refused same => rw [same]
  | shut root empty unlinked =>
      subst next
      rw [Store.ids, Store.ids, empty]
  | operated operation answer made edit linked => exact edit.order distinct kept present remains

theorem distinct_run (start : Service) (distinct : start.store.Distinct)
    (calls : List (UInt64 × Syscall)) :
    Always anyCall start calls (fun _ service => service.store.Distinct) := by
  intro prior _ history service ran
  refine invariant_exec (fun _ service => service.store.Distinct) distinct ?_ ran
  intro _ before call reply next distinct stepped
  exact (served_of_perform stepped).distinct distinct

theorem anyCall_spared_iff (service : Service) (call : UInt64 × Syscall) :
    (∀ trap, anyCall call service = .error trap → ¬ trap.Damages) ↔
      call.2.Contained call.1 service :=
  syscall_spared_iff call.1 service call.2

/-- The ids stay distinct, every search by id finds the only mailbox with that
id, the mailboxes that are there throughout a run keep their order, and no call
stores where a mailbox may lie. -/
structure IdsStayUnique (start : Service) (calls : List (UInt64 × Syscall)) : Prop where
  unique : Always anyCall start calls
    (fun _ service => service.store.Distinct ∧ service.store.FindsEach)
  ordered : ∀ kept, Always anyCall start calls (fun _ service => Present kept service) →
    Always anyCall start calls
      (fun _ service => service.store.ids.filter kept = start.store.ids.filter kept)
  spared : Spares anyCall start calls Trap.Damages

/-- From distinct ids, any calls of any callers keep the ids as they should
exactly when none of them stores where it was given no memory. -/
theorem idsStayUnique_iff (start : Service) (distinct : start.store.Distinct)
    (calls : List (UInt64 × Syscall)) :
    IdsStayUnique start calls ↔
      EveryStep anyCall start calls (fun _ service call => call.2.Contained call.1 service) := by
  have spares : Spares anyCall start calls Trap.Damages ↔ _ :=
    spares_iff_everyStep anyCall_spared_iff calls
  constructor
  · intro unique
    exact spares.mp unique.spared
  intro contained
  refine ⟨?_, ?_, spares.mpr contained⟩
  · intro prior before history service ran
    have unique := distinct_run start distinct calls prior before history service ran
    exact ⟨unique, unique.findsEach⟩
  · intro kept present
    have ordered : Always anyCall start calls (fun _ service => service.store.Distinct ∧
        service.store.ids.filter kept = start.store.ids.filter kept) := by
      refine always_of_always (fun _ service => service.store.Distinct ∧
        service.store.ids.filter kept = start.store.ids.filter kept) ⟨distinct, rfl⟩ ?_ present
      intro _ before call reply next both here stepped there
      have served := served_of_perform stepped
      exact ⟨served.distinct both.1, (served.order both.1 kept here there).trans both.2⟩
    intro prior before history service ran
    exact (ordered prior before history service ran).2

theorem idsStayUnique_iff_whole :
    IdsStayUnique { store := oneMailbox, linked := true }
      [(0, .create (MAXID + 1) (some false)),
       (MAXID, .send MAXID (fun _ => 7) 3
        { node := some .whole, buffer := true, copy := { copied := 3, rest := fun _ => 0 } }),
       (0, .destroy (MAXID + 1))] := by
  refine (idsStayUnique_iff { store := oneMailbox, linked := true }
    (by decide : oneMailbox.Distinct) _).mpr (everyStep_of_mem ?_)
  intro call member service
  simp only [List.mem_cons, List.not_mem_nil, or_false] at member
  rcases member with rfl | rfl | rfl
  · exact trivial
  · exact fun _ _ _ _ _ _ => by decide
  · exact trivial

/-- The send stores past the end of its block, and what lies there may be the id
of a mailbox. -/
theorem send_reaches_ids :
    oneMailbox.Distinct ∧
      ¬ IdsStayUnique { store := oneMailbox, linked := true }
        [(MAXID, .send MAXID (fun _ => 7) 3 (.asked ⟨3, by decide⟩))] := by
  refine ⟨by decide, ?_⟩
  intro unique
  exact unique.spared (.fault .wildWrite) rfl trivial

end CS421.Mail
