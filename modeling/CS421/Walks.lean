/-
Lists that a head keeps: additions to them, removals and walks over them.

A head and its entries make a ring. An addition at the tail, a removal and a walk
from the head to the head are the rules that code over such lists needs; a walk
visits the entries in order and says nothing of what a visit does.
-/

import CS421.Loops
import CS421.Rings

set_option autoImplicit false

namespace CS421.Rings

open Loops

variable {Address : Type*} [DecidableEq Address]

def listAdd (entry before following : Address) (heap : Heap Address) : Option (Heap Address) := do
  let heap ← heap.change following (fun links => { links with prev := entry })
  let heap ← heap.change entry (fun _ => { next := following, prev := before })
  heap.change before (fun links => { links with next := entry })

def listAddTail (entry head : Address) (heap : Heap Address) : Option (Heap Address) :=
  match heap head with
  | none => none
  | some links => listAdd entry links.prev head heap

def initListHead (head : Address) (heap : Heap Address) : Option (Heap Address) :=
  heap.change head (fun _ => { next := head, prev := head })

structure Added (entry before following : Address) (heap after : Heap Address) : Prop where
  own : after entry = some { next := following, prev := before }
  next : ∀ address, address ≠ entry →
    nextOf after address = if address = before then some entry else nextOf heap address
  prev : ∀ address, address ≠ entry →
    prevOf after address = if address = following then some entry else prevOf heap address
  other : ∀ address, address ≠ entry → address ≠ following → address ≠ before →
    after address = heap address

section Additions

variable {entry head before following : Address} {heap after : Heap Address}
  {entries : List Address}

theorem listAdd_added (entryMapped : heap entry ≠ none) (followingMapped : heap following ≠ none)
    (beforeMapped : heap before ≠ none) (notBefore : entry ≠ before) :
    ∃ after, listAdd entry before following heap = some after ∧
      Added entry before following heap after := by
  obtain ⟨ahead, aheadHeld⟩ := Option.ne_none_iff_exists'.mp followingMapped
  let first := Function.update heap following (some { ahead with prev := entry })
  have firstMapped : first entry ≠ none := update_mapped entryMapped
  obtain ⟨own, ownHeld⟩ := Option.ne_none_iff_exists'.mp firstMapped
  let second := Function.update first entry (some { next := following, prev := before })
  have secondMapped : second before ≠ none := update_mapped (update_mapped beforeMapped)
  obtain ⟨behind, behindHeld⟩ := Option.ne_none_iff_exists'.mp secondMapped
  refine ⟨Function.update second before (some { behind with next := entry }), ?_, ?_, ?_, ?_, ?_⟩
  · simp only [listAdd, change_some aheadHeld, Option.bind_eq_bind, Option.bind_some]
    rw [change_some ownHeld, Option.bind_some]
    exact change_some behindHeld
  · exact (Function.update_of_ne notBefore _ second).trans (Function.update_self entry _ first)
  · intro address apart
    rw [nextOf_update, nextOf_update, if_neg apart, nextOf_update]
    have kept : some ahead.next = nextOf heap following := by rw [nextOf, aheadHeld]; rfl
    by_cases atFollowing : address = following
    · rw [if_pos atFollowing, atFollowing, kept]
    · rw [if_neg atFollowing]
  · intro address apart
    rw [prevOf_update]
    by_cases atBefore : address = before
    · have kept : some behind.prev = prevOf second before := by rw [prevOf, behindHeld]; rfl
      rw [if_pos atBefore, atBefore, kept, prevOf_update, if_neg (Ne.symm notBefore), prevOf_update]
    · rw [if_neg atBefore, prevOf_update, if_neg apart, prevOf_update]
  · intro address apart notFollowing notBefore
    exact (Function.update_of_ne notBefore _ _).trans
      ((Function.update_of_ne apart _ _).trans (Function.update_of_ne notFollowing _ _))

theorem Added.linked {front back : Address} (added : Added entry before following heap after)
    (linked : Linked heap front back) (frontApart : front ≠ entry) (backApart : back ≠ entry)
    (notBefore : front ≠ before) (notFollowing : back ≠ following) : Linked after front back := by
  unfold Linked
  rw [added.next front frontApart, if_neg notBefore, added.prev back backApart, if_neg notFollowing]
  exact linked

omit [DecidableEq Address] in
theorem Ring.opened (ring : Ring heap (head :: entries : List Address)) :
    ∃ last ∈ head :: entries, Linked heap last head ∧ (head :: entries).IsChain (Linked heap) ∧
      ∀ {other : Heap Address} {entry : Address}, (head :: entries).IsChain (Linked other) →
        Linked other last entry → (head :: (entries ++ [entry])).IsChain (Linked other) := by
  have linked := ring.linked
  rw [Cycle.chain_coe_cons] at linked
  rcases List.eq_nil_or_concat (head :: entries) with none | ⟨front, last, split⟩
  · cases none
  · rw [List.concat_eq_append] at split
    have whole (entry : Address) :
        head :: (entries ++ [entry]) = front ++ last :: [entry] := by
      rw [← List.cons_append, split, List.append_assoc, List.singleton_append]
    rw [whole, List.isChain_split] at linked
    obtain ⟨chained, closing⟩ := linked
    refine ⟨last, ?_, List.isChain_pair.mp closing, ?_, ?_⟩
    · rw [split]
      exact List.mem_append_right front List.mem_cons_self
    · rw [split]
      exact chained
    · intro other entry kept linked
      rw [whole, List.isChain_split, ← split]
      exact ⟨kept, List.isChain_pair.mpr linked⟩

theorem Ring.add (ring : Ring heap (head :: entries : List Address))
    (fresh : entry ∉ head :: entries) (mapped : heap entry ≠ none) :
    ∃ after, listAddTail entry head heap = some after ∧
      Ring after (head :: (entries ++ [entry]) : List Address) ∧
      ∀ address, address ∉ head :: entries → address ≠ entry → after address = heap address := by
  obtain ⟨last, lastIn, closing, chained, closes⟩ := ring.opened
  have distinct : (head :: entries).Nodup := ring.distinct
  have headMapped : heap head ≠ none := ring.mapped List.mem_cons_self
  obtain ⟨links, held⟩ := Option.ne_none_iff_exists'.mp headMapped
  have prev : links.prev = last := by
    have read := closing.2
    rw [prevOf, held] at read
    exact Option.some.inj read
  have apart (address : Address) (member : address ∈ head :: entries) : address ≠ entry := by
    intro same
    exact fresh (same ▸ member)
  have notHead : head ≠ entry := apart head List.mem_cons_self
  have notLast : entry ≠ last := Ne.symm (apart last lastIn)
  obtain ⟨after, ran, added⟩ :=
    listAdd_added mapped headMapped (ring.mapped lastIn) notLast
  have relinked : (head :: entries).IsChain (Linked after) := by
    refine chained.imp_of_mem_tail_imp ?_
    intro front back frontIn backIn pair
    have inside : back ∈ entries := backIn
    have notBack : back ≠ head := by
      intro same
      exact (List.nodup_cons.mp distinct).1 (same ▸ inside)
    refine added.linked pair (apart front frontIn) (apart back (List.mem_cons_of_mem head inside))
      ?_ notBack
    -- The last entry points at the head.
    intro same
    rw [same] at pair
    exact notBack (Option.some.inj (pair.1.symm.trans closing.1))
  have toEntry : Linked after last entry := by
    unfold Linked
    rw [added.next last (Ne.symm notLast), if_pos rfl, prevOf, added.own]
    exact ⟨rfl, rfl⟩
  have toHead : Linked after entry head := by
    unfold Linked
    rw [added.prev head notHead, if_pos rfl, nextOf, added.own]
    exact ⟨rfl, rfl⟩
  refine ⟨after, ?_, ⟨?_, ?_⟩, ?_⟩
  · rw [listAddTail, held]
    dsimp only
    rw [prev]
    exact ran
  · rw [Cycle.nodup_coe_iff, ← List.cons_append, ← List.concat_eq_append]
    exact distinct.concat fresh
  · rw [Cycle.chain_coe_cons, List.append_assoc, List.singleton_append,
      ← List.cons_append, List.isChain_split]
    exact ⟨closes relinked toEntry, List.isChain_pair.mpr toHead⟩
  · intro address outside notEntry
    refine added.other address notEntry ?_ ?_
    · intro same
      exact outside (same ▸ List.mem_cons_self)
    · intro same
      exact outside (same ▸ lastIn)

theorem initListHead_ring (mapped : heap head ≠ none) :
    ∃ after, initListHead head heap = some after ∧ Ring after ([head] : List Address) ∧
      ∀ address, address ≠ head → after address = heap address := by
  obtain ⟨links, held⟩ := Option.ne_none_iff_exists'.mp mapped
  refine ⟨_, change_some held, ring_single.mpr (Function.update_self head _ heap), ?_⟩
  intro address apart
  exact Function.update_of_ne apart _ heap

omit [DecidableEq Address] in
theorem Ring.next (ring : Ring heap (head :: entries : List Address)) :
    nextOf heap head = some (entries.headD head) := by
  cases entries with
  | nil =>
      rw [nextOf, ring_single.mp ring]
      rfl
  | cons first rest => exact ring.forward.1

omit [DecidableEq Address] in
theorem Ring.neighbours (ring : Ring heap (entries : List Address)) (member : entry ∈ entries)
    {links : Links Address} (held : heap entry = some links) :
    links.next ∈ entries ∧ links.prev ∈ entries := by
  obtain ⟨front, back, rfl⟩ := List.append_of_mem member
  have rotated : ((front ++ entry :: back : List Address) : Cycle Address) =
      (entry :: (back ++ front) : List Address) := Cycle.coe_eq_coe.mpr List.isRotated_append
  rw [rotated] at ring
  have kept {address : Address} (among : address ∈ back ++ front) :
      address ∈ front ++ entry :: back := by
    simp only [List.mem_append, List.mem_cons] at among ⊢
    tauto
  rcases List.eq_nil_or_concat (back ++ front) with none | ⟨start, last, tail⟩
  · rw [none, ring_single, held] at ring
    cases ring
    exact ⟨member, member⟩
  · rw [List.concat_eq_append] at tail
    cases head : back ++ front with
    | nil =>
        rw [head] at tail
        simp at tail
    | cons first more =>
        obtain ⟨forward, backward, _⟩ := ring.cut head tail
        rw [Linked, nextOf, held] at forward
        rw [Linked, prevOf, held] at backward
        have next : links.next = first := Option.some.inj forward.1
        have prev : links.prev = last := Option.some.inj backward.2
        rw [next, prev]
        constructor
        · apply kept
          rw [head]
          exact List.mem_cons_self
        · apply kept
          rw [tail]
          exact List.mem_append_right start List.mem_cons_self

theorem Ring.delete (poison : Links Address) {front back : List Address}
    (ring : Ring heap (head :: (front ++ entry :: back) : List Address)) :
    ∃ after, listDel poison entry heap = some after ∧
      Ring after (head :: (front ++ back) : List Address) ∧
      ∀ address, address ∉ head :: (front ++ entry :: back) → after address = heap address := by
  have turned (middle : List Address) :
      ((head :: (front ++ middle ++ back) : List Address) : Cycle Address) =
        (middle ++ (back ++ head :: front) : List Address) := by
    rw [Cycle.coe_eq_coe, List.append_assoc, ← List.cons_append, ← List.append_assoc middle]
    exact List.isRotated_append
  have opened : Ring heap (entry :: (back ++ head :: front) : List Address) := by
    have whole := turned [entry]
    rw [List.append_assoc, List.singleton_append, List.singleton_append] at whole
    rw [← whole]
    exact ring
  obtain ⟨after, ran, kept, _, frame⟩ := opened.remove poison
  refine ⟨after, ran, ?_, ?_⟩
  · have whole := turned []
    rw [List.append_nil, List.nil_append] at whole
    rw [whole]
    exact kept
  · intro address outside
    apply frame
    intro member
    apply outside
    simp only [List.mem_cons, List.mem_append] at member ⊢
    tauto

end Additions

/-! ### Walks -/

section Walks

variable {Carry Result Fault : Type*} (heap : Heap Address) (head : Address)
  (visit : Address → Body Carry Result Fault) (ends : Carry → Result) (wild : Fault)

/-- A turn of `list_for_each`: the next pointer is read after the visit, of which
only a fault and a result end the walk. `wild` is a read outside the heap. -/
def forEach : Body (Address × Carry) Result Fault := fun (entry, carry) =>
  if entry = head then .done (ends carry)
  else
    match visit entry carry with
    | .done result => .done result
    | .stop fault => .stop fault
    | .again carry =>
        match heap entry with
        | none => .stop wild
        | some links => .again (links.next, carry)

def walk (fuel : Nat) (endless : Fault) (carry : Carry) : Except Fault Result :=
  match heap head with
  | none => .error wild
  | some links => (run (forEach heap head visit ends wild) fuel (links.next, carry)).getD (.error endless)

def visitAll : List Address → Carry → Except Fault Result
  | [], carry => .ok (ends carry)
  | entry :: rest, carry =>
      match visit entry carry with
      | .done result => .ok result
      | .stop fault => .error fault
      | .again carry => visitAll rest carry

variable {heap head visit ends wild} {entries : List Address}

theorem run_forEach {before entry : Address} {carry : Carry} {fuel : Nat}
    (chained : (before :: (entries ++ [head])).IsChain (Linked heap)) (outside : head ∉ entries)
    (arrived : nextOf heap before = some entry) (enough : entries.length < fuel) :
    run (forEach heap head visit ends wild) fuel (entry, carry) =
      some (visitAll visit ends entries carry) := by
  induction entries generalizing before entry carry fuel with
  | nil =>
      obtain ⟨fuel, rfl⟩ := Nat.exists_eq_add_one_of_ne_zero (Nat.ne_of_gt enough)
      have atHead : entry = head := by
        rw [List.nil_append, List.isChain_pair] at chained
        exact Option.some.inj (arrived.symm.trans chained.1)
      rw [run, forEach, if_pos atHead]
      rfl
  | cons first rest ih =>
      obtain ⟨fuel, rfl⟩ := Nat.exists_eq_add_one_of_ne_zero (Nat.ne_of_gt (Nat.zero_lt_of_lt enough))
      rw [List.cons_append, List.isChain_cons_cons] at chained
      have atFirst : entry = first := Option.some.inj (arrived.symm.trans chained.1.1)
      subst entry
      obtain ⟨notFirst, outside⟩ := not_or.mp (mt List.mem_cons.mpr outside)
      rw [run, forEach, if_neg (Ne.symm notFirst), visitAll]
      cases visited : visit first carry with
      | done result => rfl
      | stop fault => rfl
      | again carry =>
          obtain ⟨next, ahead⟩ : ∃ next, nextOf heap first = some next := by
            cases rest with
            | nil => exact ⟨head, (List.isChain_pair.mp chained.2).1⟩
            | cons next more =>
                rw [List.cons_append, List.isChain_cons_cons] at chained
                exact ⟨next, chained.2.1.1⟩
          obtain ⟨links, held, forward⟩ := Option.map_eq_some_iff.mp ahead
          dsimp only
          rw [held]
          dsimp only
          rw [forward]
          exact ih chained.2 outside ahead (Nat.lt_of_succ_lt_succ enough)

/-- A walk over a ring visits its entries in order, and ends. -/
theorem Ring.walk {fuel : Nat} (ring : Ring heap (head :: entries : List Address))
    (enough : entries.length < fuel) (endless : Fault) (carry : Carry) :
    walk heap head visit ends wild fuel endless carry = visitAll visit ends entries carry := by
  have distinct : (head :: entries).Nodup := ring.distinct
  have chained := ring.linked
  rw [Cycle.chain_coe_cons] at chained
  obtain ⟨links, held⟩ := Option.ne_none_iff_exists'.mp (ring.mapped List.mem_cons_self)
  have arrived : nextOf heap head = some links.next := by rw [nextOf, held]; rfl
  rw [Rings.walk, held]
  dsimp only
  rw [run_forEach chained (List.nodup_cons.mp distinct).1 arrived enough]
  rfl

omit [DecidableEq Address] in
theorem visitAll_find {Found : Type*} (test : Address → Prop) [DecidablePred test]
    (found : Address → Found) (entries : List Address) :
    visitAll (fun entry _ => if test entry then .done (some (found entry)) else .again ())
        (fun _ => none) entries () =
      (.ok ((entries.find? (fun entry => decide (test entry))).map found) :
        Except Fault (Option Found)) := by
  induction entries with
  | nil => rfl
  | cons entry rest ih =>
      rw [visitAll, List.find?_cons]
      by_cases passes : test entry
      · rw [if_pos passes, decide_eq_true passes]
        rfl
      · rw [if_neg passes, decide_eq_false passes]
        exact ih

end Walks

end CS421.Rings
