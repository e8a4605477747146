/-
Circular doubly linked lists in a heap of pointers.

The entries of a ring point at each other all round, and none of them is its
first, so a ring is a cycle of addresses: the head of a list is an entry like
the others. The rules below say what the removal of an entry does to its ring
and what it leaves alone.
-/

import Mathlib.Data.List.Cycle

set_option autoImplicit false

namespace CS421.Rings

variable {Address : Type*}

structure Links (Address : Type*) where
  next : Address
  prev : Address
  deriving DecidableEq

abbrev Heap (Address : Type*) := Address → Option (Links Address)

def nextOf (heap : Heap Address) (entry : Address) : Option Address :=
  (heap entry).map Links.next

def prevOf (heap : Heap Address) (entry : Address) : Option Address :=
  (heap entry).map Links.prev

/-- The first entry points forward at the second, which points back at it. -/
def Linked (heap : Heap Address) (before after : Address) : Prop :=
  nextOf heap before = some after ∧ prevOf heap after = some before

instance [DecidableEq Address] (heap : Heap Address) (before after : Address) :
    Decidable (Linked heap before after) := inferInstanceAs (Decidable (_ ∧ _))

structure Ring (heap : Heap Address) (ring : Cycle Address) : Prop where
  distinct : ring.Nodup
  linked : ring.Chain (Linked heap)

section Rings

variable {heap other : Heap Address} {entry : Address} {rest : List Address}

theorem Linked.congr {before after : Address} (linked : Linked heap before after)
    (front : other before = heap before) (back : other after = heap after) :
    Linked other before after := by
  unfold Linked nextOf prevOf
  rw [front, back]
  exact linked

theorem Ring.congr {entries : List Address} (ring : Ring heap entries)
    (same : ∀ entry ∈ entries, other entry = heap entry) : Ring other entries := by
  refine ⟨ring.distinct, ?_⟩
  cases entries with
  | nil => exact Cycle.Chain.nil _
  | cons entry rest =>
      have linked := ring.linked
      rw [Cycle.chain_coe_cons] at linked ⊢
      have present (address : Address) (member : address ∈ entry :: (rest ++ [entry])) :
          other address = heap address := by
        apply same
        simpa [or_comm] using member
      refine linked.imp_of_mem_imp ?_
      intro before after front back pair
      exact pair.congr (present before front) (present after back)

theorem ring_rotate :
    Ring heap (entry :: rest : List Address) ↔ Ring heap (rest ++ [entry] : List Address) := by
  rw [Cycle.coe_cons_eq_coe_append]

theorem ring_single :
    Ring heap ([entry] : List Address) ↔ heap entry = some { next := entry, prev := entry } := by
  constructor
  · intro ring
    obtain ⟨next, prev⟩ := (Cycle.chain_singleton (Linked heap) entry).mp ring.linked
    obtain ⟨links, held, forward⟩ := Option.map_eq_some_iff.mp next
    rw [prevOf, held] at prev
    have backward : links.prev = entry := Option.some.inj prev
    rw [held]
    cases links with
    | mk ahead behind =>
        cases forward
        cases backward
        rfl
  · intro held
    refine ⟨List.nodup_singleton entry, (Cycle.chain_singleton (Linked heap) entry).mpr ?_⟩
    unfold Linked nextOf prevOf
    rw [held]
    exact ⟨rfl, rfl⟩

theorem Ring.mapped {entries : List Address} (ring : Ring heap entries) {address : Address}
    (member : address ∈ entries) : heap address ≠ none := by
  obtain ⟨front, back, rfl⟩ := List.append_of_mem member
  have turned : Ring heap (address :: (back ++ front) : List Address) := by
    have rotated : ((front ++ address :: back : List Address) : Cycle Address) =
        (address :: (back ++ front) : List Address) :=
      Cycle.coe_eq_coe.mpr List.isRotated_append
    rw [← rotated]
    exact ring
  intro absent
  have linked := turned.linked
  rw [Cycle.chain_coe_cons] at linked
  cases following : back ++ front with
  | nil =>
      rw [following, List.nil_append, List.isChain_pair] at linked
      rw [Linked, nextOf, absent] at linked
      cases linked.1
  | cons next more =>
      rw [following, List.cons_append, List.isChain_cons_cons] at linked
      rw [Linked, nextOf, absent] at linked
      cases linked.1.1

theorem Ring.forward {first : Address} (ring : Ring heap (entry :: first :: rest : List Address)) :
    Linked heap entry first := by
  have linked := ring.linked
  rw [Cycle.chain_coe_cons, List.cons_append, List.isChain_cons_cons] at linked
  exact linked.1

/-- A ring of two entries or more, cut open at its first entry. -/
theorem Ring.cut {first last : Address} {more front : List Address}
    (ring : Ring heap (entry :: rest : List Address)) (head : rest = first :: more)
    (tail : rest = front ++ [last]) :
    Linked heap entry first ∧ Linked heap last entry ∧ rest.IsChain (Linked heap) := by
  have linked := ring.linked
  rw [Cycle.chain_coe_cons] at linked
  have opened : Ring heap (entry :: first :: more : List Address) := by
    rw [← head]
    exact ring
  have closed : (entry :: (front ++ last :: [entry])).IsChain (Linked heap) := by
    rw [List.append_cons, ← tail]
    exact linked
  obtain ⟨chained, back⟩ := List.isChain_cons_split.mp closed
  refine ⟨opened.forward, List.isChain_pair.mp back, ?_⟩
  rw [tail]
  exact chained.tail

theorem ring_of_chain {first last : Address} {more front : List Address} (distinct : rest.Nodup)
    (chained : rest.IsChain (Linked heap)) (head : rest = first :: more)
    (tail : rest = front ++ [last]) (closed : Linked heap last first) : Ring heap rest := by
  refine ⟨distinct, ?_⟩
  rw [head, Cycle.chain_coe_cons, ← List.cons_append, ← head, tail, ← List.append_cons]
  rw [tail] at chained
  exact List.isChain_split.mpr ⟨chained, List.isChain_pair.mpr closed⟩

end Rings

variable [DecidableEq Address]

/-- A write to the entry at an address. Nothing is written where there is none. -/
def Heap.change (heap : Heap Address) (address : Address)
    (edit : Links Address → Links Address) : Option (Heap Address) :=
  match heap address with
  | none => none
  | some links => some (Function.update heap address (some (edit links)))

/-- The neighbours are linked to each other, and the pointers of the entry are
overwritten. -/
def listDel (poison : Links Address) (entry : Address) (heap : Heap Address) :
    Option (Heap Address) :=
  match heap entry with
  | none => none
  | some links =>
      match heap.change links.next (fun next => { next with prev := links.prev }) with
      | none => none
      | some heap =>
          match heap.change links.prev (fun prev => { prev with next := links.next }) with
          | none => none
          | some heap => heap.change entry (fun _ => poison)

structure Removed (poison : Links Address) (entry : Address) (links : Links Address)
    (heap after : Heap Address) : Prop where
  own : after entry = some poison
  next : ∀ address, address ≠ entry →
    nextOf after address = if address = links.prev then some links.next else nextOf heap address
  prev : ∀ address, address ≠ entry →
    prevOf after address = if address = links.next then some links.prev else prevOf heap address
  other : ∀ address, address ≠ entry → address ≠ links.next → address ≠ links.prev →
    after address = heap address

variable {poison links : Links Address} {entry : Address} {heap : Heap Address}

theorem change_some {address : Address} {edit : Links Address → Links Address}
    (held : heap address = some links) :
    heap.change address edit = some (Function.update heap address (some (edit links))) := by
  rw [Heap.change, held]

theorem nextOf_update (address other : Address) :
    nextOf (Function.update heap address (some links)) other =
      if other = address then some links.next else nextOf heap other := by
  unfold nextOf
  rw [Function.update_apply]
  split <;> rfl

theorem prevOf_update (address other : Address) :
    prevOf (Function.update heap address (some links)) other =
      if other = address then some links.prev else prevOf heap other := by
  unfold prevOf
  rw [Function.update_apply]
  split <;> rfl

theorem update_mapped {address other : Address} (mapped : heap other ≠ none) :
    Function.update heap address (some links) other ≠ none := by
  rw [Function.update_apply]
  split
  · exact Option.some_ne_none links
  · exact mapped

theorem listDel_removed (poison : Links Address) (held : heap entry = some links)
    (nextMapped : heap links.next ≠ none) (prevMapped : heap links.prev ≠ none) :
    ∃ after, listDel poison entry heap = some after ∧
      Removed poison entry links heap after := by
  obtain ⟨ahead, aheadHeld⟩ := Option.ne_none_iff_exists'.mp nextMapped
  let first := Function.update heap links.next (some { ahead with prev := links.prev })
  have firstMapped : first links.prev ≠ none := update_mapped prevMapped
  obtain ⟨behind, behindHeld⟩ := Option.ne_none_iff_exists'.mp firstMapped
  let second := Function.update first links.prev (some { behind with next := links.next })
  have entryMapped : second entry ≠ none := by
    apply update_mapped
    apply update_mapped
    rw [held]
    exact Option.some_ne_none links
  obtain ⟨own, ownHeld⟩ := Option.ne_none_iff_exists'.mp entryMapped
  refine ⟨Function.update second entry (some poison), ?_, ?_, ?_, ?_, ?_⟩
  · rw [listDel, held]
    dsimp only
    rw [change_some aheadHeld]
    dsimp only
    rw [change_some behindHeld]
    exact change_some ownHeld
  · exact Function.update_self entry _ second
  · intro address apart
    rw [nextOf_update, if_neg apart, nextOf_update, nextOf_update]
    -- The write to the entry ahead keeps the pointer to its own next entry.
    have kept : some ahead.next = nextOf heap links.next := by rw [nextOf, aheadHeld]; rfl
    by_cases atNext : address = links.next
    · rw [if_pos atNext, atNext, kept]
    · rw [if_neg atNext]
  · intro address apart
    rw [prevOf_update, if_neg apart, prevOf_update, prevOf_update]
    by_cases atPrev : address = links.prev
    · rw [if_pos atPrev, atPrev]
      have kept : some behind.prev = prevOf first links.prev := by rw [prevOf, behindHeld]; rfl
      rw [kept, prevOf_update]
    · rw [if_neg atPrev]
  · intro address apart notNext notPrev
    exact (Function.update_of_ne apart _ _).trans
      ((Function.update_of_ne notPrev _ _).trans (Function.update_of_ne notNext _ _))

theorem Removed.linked {before after : Address} {changed : Heap Address}
    (removed : Removed poison entry links heap changed) (linked : Linked heap before after)
    (front : before ≠ entry) (back : after ≠ entry) (notPrev : before ≠ links.prev)
    (notNext : after ≠ links.next) : Linked changed before after := by
  unfold Linked
  rw [removed.next before front, if_neg notPrev, removed.prev after back, if_neg notNext]
  exact linked

/-- The entries that are left make a ring: their chain is as it was, and the
neighbours of the removed entry close it. -/
theorem Removed.ring {rest more front : List Address} {first last : Address} {after : Heap Address}
    (removed : Removed poison entry links heap after) (fresh : entry ∉ rest)
    (distinct : rest.Nodup) (head : rest = first :: more) (tail : rest = front ++ [last])
    (next : links.next = first) (prev : links.prev = last) (forward : Linked heap entry first)
    (backward : Linked heap last entry) (chained : rest.IsChain (Linked heap)) :
    Ring after rest := by
  have firstIn : first ∈ rest := by rw [head]; exact List.mem_cons_self
  have lastIn : last ∈ rest := by rw [tail]; exact List.mem_append_right front List.mem_cons_self
  have apart (address : Address) (member : address ∈ rest) : address ≠ entry := by
    intro same
    exact fresh (same ▸ member)
  have relinked : rest.IsChain (Linked after) := by
    refine chained.imp_of_mem_imp ?_
    intro front back frontIn backIn pair
    refine removed.linked pair (apart front frontIn) (apart back backIn) ?_ ?_
    -- The last entry pointed at the one removed, not at an entry of the chain.
    · intro same
      rw [same, prev] at pair
      exact apart back backIn (Option.some.inj (pair.1.symm.trans backward.1))
    · intro same
      rw [same, next] at pair
      exact apart front frontIn (Option.some.inj (pair.2.symm.trans forward.2))
  have closed : Linked after last first := by
    unfold Linked
    rw [removed.next last (apart last lastIn), if_pos prev.symm, next,
      removed.prev first (apart first firstIn), if_pos next.symm, prev]
    exact ⟨rfl, rfl⟩
  exact ring_of_chain distinct relinked head tail closed

theorem Ring.remove (poison : Links Address) {rest : List Address}
    (ring : Ring heap (entry :: rest : List Address)) :
    ∃ after, listDel poison entry heap = some after ∧ Ring after rest ∧
      after entry = some poison ∧
      ∀ address, address ∉ entry :: rest → after address = heap address := by
  have distinct : (entry :: rest).Nodup := ring.distinct
  obtain ⟨fresh, distinct⟩ := List.nodup_cons.mp distinct
  rcases List.eq_nil_or_concat rest with none | ⟨front, last, tail⟩
  · subst rest
    have held := ring_single.mp ring
    have mapped : heap entry ≠ none := ring.mapped List.mem_cons_self
    obtain ⟨after, ran, removed⟩ := listDel_removed poison held mapped mapped
    refine ⟨after, ran, ⟨List.nodup_nil, Cycle.Chain.nil _⟩, removed.own, ?_⟩
    intro address outside
    have apart := List.ne_of_not_mem_cons outside
    exact removed.other address apart apart apart
  · rw [List.concat_eq_append] at tail
    obtain ⟨first, more, head⟩ := List.exists_cons_of_ne_nil (l := rest) (by simp [tail])
    have firstIn : first ∈ rest := by rw [head]; exact List.mem_cons_self
    have lastIn : last ∈ rest := by rw [tail]; exact List.mem_append_right front List.mem_cons_self
    obtain ⟨forward, backward, chained⟩ := ring.cut head tail
    obtain ⟨links, held, next⟩ := Option.map_eq_some_iff.mp forward.1
    have prev : links.prev = last := by
      have read := backward.2
      rw [prevOf, held] at read
      exact Option.some.inj read
    have nextMapped : heap links.next ≠ none := by
      rw [next]
      exact ring.mapped (List.mem_cons_of_mem entry firstIn)
    have prevMapped : heap links.prev ≠ none := by
      rw [prev]
      exact ring.mapped (List.mem_cons_of_mem entry lastIn)
    obtain ⟨after, ran, removed⟩ := listDel_removed poison held nextMapped prevMapped
    refine ⟨after, ran, ?_, removed.own, ?_⟩
    · exact removed.ring fresh distinct head tail next prev forward backward chained
    · intro address outside
      obtain ⟨notEntry, notRest⟩ := not_or.mp (mt List.mem_cons.mpr outside)
      refine removed.other address notEntry ?_ ?_
      · intro same
        rw [same, next] at notRest
        exact notRest firstIn
      · intro same
        rw [same, prev] at notRest
        exact notRest lastIn

end CS421.Rings
