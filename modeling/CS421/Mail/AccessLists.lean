/-
The access lists as sets of pids.

Each list is compared with the history of the calls: a pid is in it when the
last call that changed anything about it was an add.
-/

import CS421.Mail.Identity
import CS421.Rosters

set_option autoImplicit false

namespace CS421.Mail

open Runs Keyed

/-- The calls on access lists, made by root. -/
inductive AclCall where
  | add (id : UInt64) (pid : Int32) (memory : Bool)
  | remove (id : UInt64) (pid : Int32)

def AclCall.perform : Machine Store AclCall Int64 Fault
  | .add id pid memory, store => mbx421AclAdd 0 id pid memory store
  | .remove id pid, store => mbx421AclRemove 0 id pid store

def AclCall.id : AclCall → UInt64
  | .add id _ _ | .remove id _ => id

def Store.acl (store : Store) (id : UInt64) : List Int32 :=
  match store.find id with
  | none => []
  | some box => box.acl

/-- What an answered call did to the lists, read off the call and its answer. -/
def aclChange : AclCall × Int64 → Rosters.Change UInt64 Int32
  | (.add id pid _, answer) => if answer = 0 then .enter id pid else .none
  | (.remove id pid, answer) => if answer = 0 then .leave id pid else .none

/-- Each list holds, once and in the order in which they came, the pids whose
last call that succeeded on this mailbox was an add. -/
def AclsAreSets (log : History AclCall Int64) (store : Store) : Prop :=
  ∀ box ∈ store.mail, box.acl.Nodup ∧
    box.acl = Rosters.members box.id (log.map aclChange) ∧
    ∀ pid, pid ∈ box.acl ↔ Rosters.LastEntered box.id pid (log.map aclChange)

def AclCall.Refused (store : Store) : AclCall → Prop
  | .add id pid _ => store.find id = none ∨ pid ∈ store.acl id
  | .remove id pid => store.find id = none ∨ pid ∉ store.acl id

structure AclCall.Lawful (store : Store) (call : AclCall) : Prop where
  answers : ∃ answer next, call.perform store = .ok (answer, next) ∧
    (answer = -EINVAL ↔ call.Refused store)
  others : ∀ answer next, call.perform store = .ok (answer, next) →
    ∀ id, id ≠ call.id → next.acl id = store.acl id
  restores : ∀ id pid memory next, call = .add id pid memory →
    call.perform store = .ok (0, next) →
      ∃ last, (AclCall.remove id pid).perform next = .ok (0, last) ∧ last.acl = store.acl

inductive AclEffect (store next : Store) : AclCall → Int64 → Prop where
  | missing (call : AclCall) (absent : store.find call.id = none) (same : next = store) :
      AclEffect store next call (-EINVAL)
  | listed {box : Mailbox} (pid : Int32) (memory : Bool) (member : pid ∈ box.acl)
      (replaced : Replaced store box box next) :
      AclEffect store next (.add box.id pid memory) (-EINVAL)
  | failed {box : Mailbox} (pid : Int32) (fresh : pid ∉ box.acl)
      (replaced : Replaced store box { box with aclC := true } next) :
      AclEffect store next (.add box.id pid false) (-ENOMEM)
  | granted {box : Mailbox} (pid : Int32) (fresh : pid ∉ box.acl)
      (replaced : Replaced store box { box with aclC := true, acl := box.acl ++ [pid] } next) :
      AclEffect store next (.add box.id pid true) 0
  | unlisted {box : Mailbox} (pid : Int32) (lacks : pid ∉ box.acl)
      (replaced : Replaced store box box next) :
      AclEffect store next (.remove box.id pid) (-EINVAL)
  | revoked {box : Mailbox} (pid : Int32) (member : pid ∈ box.acl)
      (replaced : Replaced store box { box with acl := box.acl.erase pid } next) :
      AclEffect store next (.remove box.id pid) 0

section Calls

variable {store next : Store} {call : AclCall} {answer : Int64}

theorem search_replaces {before after : List Mailbox} {box changed : Mailbox}
    {act : Mailbox → Except Fault (Int64 × List Mailbox)}
    (found : Found Mailbox.id box.id store.mail before box after)
    (acted : act box = .ok (answer, [changed])) (same : changed.id = box.id) :
    ∃ next, store.search box.id (-EINVAL) act = .ok (answer, next) ∧
      Replaced store box changed next := by
  rw [← same] at found
  have searched : store.search changed.id (-EINVAL) act =
      .ok (answer, { store with mail := before ++ [changed] ++ after }) := search_found found acted
  rw [same] at searched
  exact ⟨_, searched, replaced_of_found found⟩

theorem search_missing {id : UInt64} {act : Mailbox → Except Fault (Int64 × List Mailbox)}
    (absent : store.find id = none) : store.search id (-EINVAL) act = .ok (-EINVAL, store) := by
  unfold Store.search
  rw [onFirst_of_none absent]

theorem acl_step (call : AclCall) (store : Store) :
    ∃ answer next, call.perform store = .ok (answer, next) ∧ AclEffect store next call answer := by
  cases looked : store.find call.id with
  | none =>
      refine ⟨-EINVAL, store, ?_, .missing call looked rfl⟩
      cases call with
      | add id pid memory => exact search_missing looked
      | remove id pid => exact search_missing looked
  | some box =>
      obtain ⟨before, after, found⟩ := first_some_iff.mp looked
      have own : box.id = call.id := found.own
      rw [← own] at found
      cases call with
      | add id pid memory =>
          have same : box.id = id := own
          subst id
          by_cases member : pid ∈ box.acl
          · have acted : aclAddFound pid memory box = .ok (-EINVAL, [box]) :=
              if_pos (List.contains_iff_mem.mpr member)
            obtain ⟨next, ran, replaced⟩ := search_replaces found acted rfl
            exact ⟨-EINVAL, next, ran, .listed pid memory member replaced⟩
          · have unlisted : ¬ box.acl.contains pid = true := mt List.contains_iff_mem.mp member
            cases memory with
            | false =>
                have acted : aclAddFound pid false box =
                    .ok (-ENOMEM, [{ box with aclC := true }]) := if_neg unlisted
                obtain ⟨next, ran, replaced⟩ := search_replaces found acted rfl
                exact ⟨-ENOMEM, next, ran, .failed pid member replaced⟩
            | true =>
                have acted : aclAddFound pid true box =
                    .ok (0, [{ box with aclC := true, acl := box.acl ++ [pid] }]) :=
                  if_neg unlisted
                obtain ⟨next, ran, replaced⟩ := search_replaces found acted rfl
                exact ⟨0, next, ran, .granted pid member replaced⟩
      | remove id pid =>
          have same : box.id = id := own
          subst id
          by_cases member : pid ∈ box.acl
          · have acted : aclRemoveFound pid box =
                .ok (0, [{ box with acl := box.acl.erase pid }]) :=
              if_pos (List.contains_iff_mem.mpr member)
            obtain ⟨next, ran, replaced⟩ := search_replaces found acted rfl
            exact ⟨0, next, ran, .revoked pid member replaced⟩
          · have acted : aclRemoveFound pid box = .ok (-EINVAL, [box]) :=
              if_neg (mt List.contains_iff_mem.mp member)
            obtain ⟨next, ran, replaced⟩ := search_replaces found acted rfl
            exact ⟨-EINVAL, next, ran, .unlisted pid member replaced⟩

theorem effect_of_acl (ran : call.perform store = .ok (answer, next)) :
    AclEffect store next call answer := by
  obtain ⟨other, last, same, effect⟩ := acl_step call store
  rw [ran] at same
  cases same
  exact effect

theorem acl_of_find {id : UInt64} {box : Mailbox} (looked : store.find id = some box) :
    store.acl id = box.acl := by
  rw [Store.acl, looked]

theorem Replaced.acl_other {box changed : Mailbox} (replaced : Replaced store box changed next)
    (id : UInt64) (apart : id ≠ changed.id) : next.acl id = store.acl id := by
  rw [Store.acl, replaced.other id apart, Store.acl]

theorem Replaced.acl_eq {box changed : Mailbox} (replaced : Replaced store box changed next)
    (same : changed.acl = box.acl) : next.acl = store.acl := by
  funext id
  by_cases own : id = changed.id
  · rw [own, acl_of_find replaced.own, acl_of_find replaced.found, same]
  · exact replaced.acl_other id own

theorem turns_of_acl (effect : AclEffect store next call answer) :
    Rosters.Turns (aclChange (call, answer)) store.acl next.acl := by
  cases effect with
  | missing call absent same =>
      subst next
      cases call with
      | add id pid memory => exact .none _
      | remove id pid => exact .none _
  | listed pid memory member replaced =>
      rw [replaced.acl_eq rfl]
      exact .none _
  | failed pid fresh replaced =>
      rw [replaced.acl_eq rfl]
      exact .none _
  | unlisted pid lacks replaced =>
      rw [replaced.acl_eq rfl]
      exact .none _
  | granted pid fresh replaced =>
      refine .enter _ pid ?_ ?_ replaced.acl_other
      · rw [acl_of_find replaced.found]
        exact fresh
      · rw [acl_of_find replaced.own, acl_of_find replaced.found]
  | revoked pid member replaced =>
      refine .leave _ pid ?_ ?_ replaced.acl_other
      · rw [acl_of_find replaced.found]
        exact member
      · rw [acl_of_find replaced.own, acl_of_find replaced.found]

theorem ids_of_acl (effect : AclEffect store next call answer) : next.ids = store.ids := by
  cases effect with
  | missing call absent same => rw [same]
  | listed pid memory member replaced => exact replaced.ids
  | failed pid fresh replaced => exact replaced.ids
  | granted pid fresh replaced => exact replaced.ids
  | unlisted pid lacks replaced => exact replaced.ids
  | revoked pid member replaced => exact replaced.ids

theorem add_refused_iff {box : Mailbox} (looked : store.find box.id = some box) (pid : Int32)
    (memory : Bool) : (AclCall.add box.id pid memory).Refused store ↔ pid ∈ box.acl := by
  show store.find box.id = none ∨ pid ∈ store.acl box.id ↔ pid ∈ box.acl
  rw [acl_of_find looked, looked]
  exact or_iff_right (Option.some_ne_none box)

theorem remove_refused_iff {box : Mailbox} (looked : store.find box.id = some box) (pid : Int32) :
    (AclCall.remove box.id pid).Refused store ↔ pid ∉ box.acl := by
  show store.find box.id = none ∨ pid ∉ store.acl box.id ↔ pid ∉ box.acl
  rw [acl_of_find looked, looked]
  exact or_iff_right (Option.some_ne_none box)

theorem refused_iff (effect : AclEffect store next call answer) :
    answer = -EINVAL ↔ call.Refused store := by
  cases effect with
  | missing call absent same =>
      refine iff_of_true rfl ?_
      cases call with
      | add id pid memory => exact Or.inl absent
      | remove id pid => exact Or.inl absent
  | listed pid memory member replaced =>
      rw [add_refused_iff replaced.found]
      exact iff_of_true rfl member
  | failed pid fresh replaced =>
      rw [add_refused_iff replaced.found]
      exact iff_of_false (by decide) fresh
  | granted pid fresh replaced =>
      rw [add_refused_iff replaced.found]
      exact iff_of_false (by decide) fresh
  | unlisted pid lacks replaced =>
      rw [remove_refused_iff replaced.found]
      exact iff_of_true rfl lacks
  | revoked pid member replaced =>
      rw [remove_refused_iff replaced.found]
      exact iff_of_false (by decide) (not_not_intro member)

theorem acl_others (effect : AclEffect store next call answer) (id : UInt64)
    (apart : id ≠ call.id) : next.acl id = store.acl id := by
  cases effect with
  | missing call absent same => rw [same]
  | listed pid memory member replaced => exact replaced.acl_other id apart
  | failed pid fresh replaced => exact replaced.acl_other id apart
  | granted pid fresh replaced => exact replaced.acl_other id apart
  | unlisted pid lacks replaced => exact replaced.acl_other id apart
  | revoked pid member replaced => exact replaced.acl_other id apart

theorem acl_restored {id : UInt64} {pid : Int32} {memory : Bool}
    (ran : (AclCall.add id pid memory).perform store = .ok (0, next)) :
    ∃ last, (AclCall.remove id pid).perform next = .ok (0, last) ∧ last.acl = store.acl := by
  have added := turns_of_acl (effect_of_acl ran)
  have entered : aclChange (.add id pid memory, 0) = .enter id pid := rfl
  rw [entered] at added
  cases added with
  | enter key item fresh grown others =>
      have listed : pid ∈ next.acl id := by
        rw [grown]
        exact List.mem_append_right _ (List.mem_singleton.mpr rfl)
      obtain ⟨answer, last, removed, effect⟩ := acl_step (.remove id pid) next
      have succeeds : answer = 0 := by
        have told := refused_iff effect
        cases effect with
        | missing call absent same =>
            rw [Store.acl, show next.find id = none from absent] at listed
            cases listed
        | unlisted pid lacks replaced =>
            rw [acl_of_find replaced.found] at listed
            exact absurd listed lacks
        | revoked pid member replaced => rfl
      subst answer
      have left : aclChange (.remove id pid, 0) = .leave id pid := rfl
      have taken := turns_of_acl effect
      rw [left] at taken
      refine ⟨last, removed, ?_⟩
      cases taken with
      | leave key item member shrunk kept =>
          funext other
          by_cases own : other = id
          · subst other
            rw [shrunk, grown, List.erase_append_right _ fresh, List.erase_cons_head,
              List.append_nil]
          · rw [kept other own, others other own]

end Calls

/-- In every run of adds and removes by root, from distinct ids and empty access
lists, with any outcomes of the allocations: every call ends, the lists are the
sets that the history says, and each call does what it is to do. -/
theorem acls_are_sets (start : Store) (distinct : start.Distinct)
    (empty : ∀ box ∈ start.mail, box.acl = []) (calls : List AclCall) :
    (∃ log final, exec AclCall.perform start calls = .ok (log, final)) ∧
      Always AclCall.perform start calls AclsAreSets ∧
      EveryStep AclCall.perform start calls (fun _ store call => call.Lawful store) := by
  refine ⟨?_, ?_, ?_⟩
  · refine exec_total (fun _ _ => True) trivial (fun _ _ _ _ _ _ _ => trivial) ?_ calls
    intro _ store call _
    obtain ⟨answer, next, ran, _⟩ := acl_step call store
    exact ⟨answer, next, ran⟩
  · intro prior _ log store ran box member
    have unique : store.Distinct := by
      refine invariant_exec (fun _ store => store.Distinct) distinct ?_ ran
      intro _ before call answer next distinct stepped
      rw [Store.Distinct, ids_of_acl (effect_of_acl stepped)]
      exact distinct
    have none (id : UInt64) : start.acl id = [] := by
      cases looked : start.find id with
      | none => rw [Store.acl, looked]
      | some box =>
          obtain ⟨before, after, found⟩ := first_some_iff.mp looked
          rw [acl_of_find looked]
          exact empty box found.mem
    have roster := Rosters.kept aclChange Store.acl none
      (fun _ _ _ _ stepped => turns_of_acl (effect_of_acl stepped)) ran box.id
    rw [acl_of_find (unique.findsEach box member)] at roster
    rw [roster]
    exact ⟨Rosters.members_nodup, rfl, fun pid => Rosters.mem_members⟩
  · intro prior call _ log store _
    refine ⟨?_, ?_, ?_⟩
    · obtain ⟨answer, next, ran, effect⟩ := acl_step call store
      exact ⟨answer, next, ran, refused_iff effect⟩
    · intro answer next ran
      exact acl_others (effect_of_acl ran)
    · rintro id pid memory next rfl ran
      exact acl_restored ran

theorem acls_are_sets_granted :
    (∃ log final, exec AclCall.perform oneMailbox [.add MAXID 7 true, .remove MAXID 8] =
        .ok (log, final)) ∧
      Always AclCall.perform oneMailbox [.add MAXID 7 true, .remove MAXID 8] AclsAreSets ∧
      EveryStep AclCall.perform oneMailbox [.add MAXID 7 true, .remove MAXID 8]
        (fun _ store call => call.Lawful store) :=
  acls_are_sets oneMailbox (by decide) (by decide) _

end CS421.Mail
