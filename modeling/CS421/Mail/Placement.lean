/-
Where the contents of a mailbox service lie in memory.

A place is a mailbox with the addresses of its messages and access list entries,
in list order. A service lies in memory when `mail` and the places make a ring,
each place has its own two rings, and no list head belongs to two of them. The
rules say which changes of memory leave a place alone, and what one changed place
makes of the whole.
-/

import CS421.Mail.Pointers

set_option autoImplicit false

namespace CS421.Mail.Pointers

open Rings

theorem messageEntry_messageNode (msg : Address) : messageEntry (messageNode msg) = msg :=
  UInt64.add_sub_cancel msg 16

theorem aclEntry_aclNode (acl : Address) : aclEntry (aclNode acl) = acl :=
  UInt64.add_sub_cancel acl 8

/-- A ring has no more entries than there are addresses. -/
theorem Ring.short {heap : Heap Address} {head : Address} {entries : List Address}
    (ring : Ring heap (head :: entries : List Address)) : entries.length < 2 ^ 64 := by
  have distinct : (head :: entries).Nodup := ring.distinct
  have numbers : ((head :: entries).map UInt64.toNat).Nodup :=
    distinct.map (fun _ _ same => UInt64.toNat_inj.mp same)
  have below : (head :: entries).map UInt64.toNat ⊆ List.range (2 ^ 64) := by
    intro number member
    obtain ⟨address, _, rfl⟩ := List.mem_map.mp member
    exact List.mem_range.mpr (UInt64.toNat_lt address)
  have short := (numbers.subperm below).length_le
  rw [List.length_map, List.length_range, List.length_cons] at short
  exact short

structure Place where
  box : Address
  contents : Mailbox
  messages : List Address
  acl : List Address

def Place.id (place : Place) : UInt64 := place.contents.id

def Place.inner (place : Place) : List Address :=
  (messagesHead place.box :: place.messages.map messageNode) ++
    (aclHead place.box :: place.acl.map aclNode)

theorem Place.heads_inner (place : Place) {node : Address}
    (head : node ∈ [messagesHead place.box, aclHead place.box]) : node ∈ place.inner := by
  rcases List.mem_cons.mp head with rfl | last
  · exact List.mem_cons_self
  · rw [List.mem_singleton.mp last]
    exact List.mem_append_right _ List.mem_cons_self

def Place.restock (place : Place) (count : UInt64) (messages : List Message)
    (addresses : List Address) : Place :=
  { place with
    contents := { place.contents with count := count, messages := messages }
    messages := addresses }

def Place.relist (place : Place) (aclC : Bool) (acl : List Int32) (addresses : List Address) :
    Place :=
  { place with
    contents := { place.contents with aclC := aclC, acl := acl }
    acl := addresses }

def Place.Apart (place other : Place) : Prop := List.Disjoint place.inner other.inner

theorem apart_middle {front back : List Place} {place : Place} :
    (front ++ place :: back).Pairwise Place.Apart ↔
      (∀ other ∈ front ++ back, place.Apart other) ∧ (front ++ back).Pairwise Place.Apart := by
  have middle : (front ++ place :: back).Pairwise Place.Apart ↔
      (place :: (front ++ back)).Pairwise Place.Apart :=
    List.pairwise_middle (fun disjoint => List.Disjoint.symm disjoint)
  rw [middle, List.pairwise_cons]

structure Place.Held (ram : Ram) (place : Place) : Prop where
  fields : ram.boxes place.box =
    { aclC := place.contents.aclC, id := place.contents.id, count := place.contents.count }
  messages : place.messages.map ram.messages = place.contents.messages
  acl : place.acl.map ram.acls = place.contents.acl
  messagesRing :
    Ring ram.links (messagesHead place.box :: place.messages.map messageNode : List Address)
  aclRing : Ring ram.links (aclHead place.box :: place.acl.map aclNode : List Address)
  distinct : List.Disjoint (messagesHead place.box :: place.messages.map messageNode)
    (aclHead place.box :: place.acl.map aclNode)
  nonnull : place.box ≠ 0

/-- `mail` and the list nodes of the mailboxes. -/
def spine (mail : Address) (places : List Place) : List Address :=
  mail :: places.map (fun place => listNode place.box)

structure Laid (mail : Address) (ram : Ram) (service : Service) (places : List Place) : Prop where
  mailboxC : ram.mailboxC = service.store.mailboxC
  contents : service.store.mail = places.map Place.contents
  held : ∀ place ∈ places, place.Held ram
  apart : places.Pairwise Place.Apart
  outside : ∀ place ∈ places, List.Disjoint (spine mail places) place.inner
  linked : service.linked = true → Ring ram.links (spine mail places : List Address)

def replaceMail (service : Service) (front : List Place) (kept : List Mailbox) (back : List Place) :
    Service :=
  { service with
    store :=
      { service.store with mail := front.map Place.contents ++ kept ++ back.map Place.contents } }

/-- Memory changed at most in these list heads, in the structures that they lie
in and in the fields of these mailboxes. -/
structure Untouched (nodes owners : List Address) (ram after : Ram) : Prop where
  mailboxC : after.mailboxC = ram.mailboxC
  links : ∀ node, node ∉ nodes → after.links node = ram.links node
  boxes : ∀ box, box ∉ owners → after.boxes box = ram.boxes box
  messages : ∀ msg, messageNode msg ∉ nodes → after.messages msg = ram.messages msg
  acls : ∀ acl, aclNode acl ∉ nodes → after.acls acl = ram.acls acl

/-! ### Changes of memory -/

section Changes

variable {nodes owners heads : List Address} {ram middle after : Ram}

theorem Untouched.refl (nodes owners : List Address) (ram : Ram) : Untouched nodes owners ram ram :=
  ⟨rfl, fun _ _ => rfl, fun _ _ => rfl, fun _ _ => rfl, fun _ _ => rfl⟩

theorem Untouched.trans (first : Untouched nodes owners ram middle)
    (second : Untouched nodes owners middle after) : Untouched nodes owners ram after where
  mailboxC := second.mailboxC.trans first.mailboxC
  links node outside := (second.links node outside).trans (first.links node outside)
  boxes box outside := (second.boxes box outside).trans (first.boxes box outside)
  messages msg outside := (second.messages msg outside).trans (first.messages msg outside)
  acls acl outside := (second.acls acl outside).trans (first.acls acl outside)

theorem kmalloc_untouched (within : ∀ head ∈ heads, head ∈ nodes) (held : Links Address) :
    Untouched nodes owners ram (ram.kmalloc heads held) := by
  refine ⟨rfl, ?_, fun _ _ => rfl, fun _ _ => rfl, fun _ _ => rfl⟩
  intro node outside
  exact if_neg (fun member => outside (within node member))

theorem kfree_untouched (within : ∀ head ∈ heads, head ∈ nodes) :
    Untouched nodes owners ram (ram.kfree heads) := by
  refine ⟨rfl, ?_, fun _ _ => rfl, fun _ _ => rfl, fun _ _ => rfl⟩
  intro node outside
  exact if_neg (fun member => outside (within node member))

theorem links_untouched {links : Heap Address}
    (frame : ∀ node, node ∉ nodes → links node = ram.links node) :
    Untouched nodes owners ram { ram with links := links } :=
  ⟨rfl, frame, fun _ _ => rfl, fun _ _ => rfl, fun _ _ => rfl⟩

theorem setBox_untouched {box : Address} (within : box ∈ owners) (fields : Box) :
    Untouched nodes owners ram (ram.setBox box fields) := by
  refine ⟨rfl, fun _ _ => rfl, ?_, fun _ _ => rfl, fun _ _ => rfl⟩
  intro other outside
  exact Function.update_of_ne (ne_of_mem_of_not_mem within outside).symm _ _

end Changes

section Held

variable {nodes owners : List Address} {ram after : Ram} {place : Place}

theorem Place.Held.mapped (held : place.Held ram) {node : Address} (member : node ∈ place.inner) :
    ram.links node ≠ none := by
  rcases List.mem_append.mp member with message | entry
  · exact held.messagesRing.mapped message
  · exact held.aclRing.mapped entry

theorem Place.Held.untouched (held : place.Held ram) (change : Untouched nodes owners ram after)
    (elsewhere : List.Disjoint place.inner nodes) (foreign : place.box ∉ owners) :
    place.Held after := by
  have links (node : Address) (member : node ∈ place.inner) : after.links node = ram.links node :=
    change.links node (elsewhere member)
  refine ⟨?_, ?_, ?_, ?_, ?_, held.distinct, held.nonnull⟩
  · rw [change.boxes place.box foreign]
    exact held.fields
  · rw [← held.messages]
    refine List.map_congr_left ?_
    intro msg member
    apply change.messages
    apply elsewhere
    exact List.mem_append_left _ (List.mem_cons_of_mem _ (List.mem_map_of_mem member))
  · rw [← held.acl]
    refine List.map_congr_left ?_
    intro acl member
    apply change.acls
    apply elsewhere
    exact List.mem_append_right _ (List.mem_cons_of_mem _ (List.mem_map_of_mem member))
  · exact held.messagesRing.congr (fun node member => links node (List.mem_append_left _ member))
  · exact held.aclRing.congr (fun node member => links node (List.mem_append_right _ member))

theorem Place.Held.restock (held : place.Held ram) (change : Untouched nodes owners ram after)
    {count : UInt64} {messages : List Message} {addresses : List Address}
    (fields : after.boxes place.box =
      { aclC := place.contents.aclC, id := place.contents.id, count := count })
    (contents : addresses.map after.messages = messages)
    (ring : Ring after.links (messagesHead place.box :: addresses.map messageNode : List Address))
    (distinct : List.Disjoint (messagesHead place.box :: addresses.map messageNode)
      (aclHead place.box :: place.acl.map aclNode))
    (elsewhere : List.Disjoint (aclHead place.box :: place.acl.map aclNode) nodes) :
    (place.restock count messages addresses).Held after := by
  refine ⟨fields, contents, ?_, ring, ?_, distinct, held.nonnull⟩
  · apply Eq.trans ?_ held.acl
    apply List.map_congr_left
    intro acl member
    apply change.acls
    apply elsewhere
    exact List.mem_cons_of_mem _ (List.mem_map_of_mem member)
  · exact held.aclRing.congr (fun node member => change.links node (elsewhere member))

theorem Place.Held.relist (held : place.Held ram) (change : Untouched nodes owners ram after)
    {aclC : Bool} {acl : List Int32} {addresses : List Address}
    (fields : after.boxes place.box =
      { aclC := aclC, id := place.contents.id, count := place.contents.count })
    (contents : addresses.map after.acls = acl)
    (ring : Ring after.links (aclHead place.box :: addresses.map aclNode : List Address))
    (distinct : List.Disjoint (messagesHead place.box :: place.messages.map messageNode)
      (aclHead place.box :: addresses.map aclNode))
    (elsewhere : List.Disjoint (messagesHead place.box :: place.messages.map messageNode) nodes) :
    (place.relist aclC acl addresses).Held after := by
  refine ⟨fields, ?_, contents, ?_, ring, distinct, held.nonnull⟩
  · apply Eq.trans ?_ held.messages
    apply List.map_congr_left
    intro msg member
    apply change.messages
    apply elsewhere
    exact List.mem_cons_of_mem _ (List.mem_map_of_mem member)
  · exact held.messagesRing.congr (fun node member => change.links node (elsewhere member))

end Held

/-! ### The whole -/

section Whole

variable {mail : Address} {ram after : Ram} {service : Service} {places front back : List Place}
  {place : Place} {nodes : List Address}

theorem Laid.spine_nodup (laid : Laid mail ram service places) (linked : service.linked = true) :
    (spine mail places).Nodup := (laid.linked linked).distinct

theorem Laid.spine_mapped (laid : Laid mail ram service places) (linked : service.linked = true)
    {node : Address} (member : node ∈ spine mail places) : ram.links node ≠ none :=
  (laid.linked linked).mapped member

theorem Laid.fresh (laid : Laid mail ram service places) {node : Address}
    (unused : ram.links node = none) (member : place ∈ places) : node ∉ place.inner :=
  fun inside => (laid.held place member).mapped inside unused

theorem Laid.others (laid : Laid mail ram service (front ++ place :: back))
    (linked : service.linked = true) {other : Place} (member : other ∈ front ++ back) :
    List.Disjoint place.inner other.inner ∧ other.box ≠ place.box := by
  have distinct := (List.nodup_cons.mp (laid.spine_nodup linked)).2
  rw [List.map_append, List.map_cons, List.nodup_middle, ← List.map_append] at distinct
  refine ⟨(apart_middle.mp laid.apart).1 other member, ?_⟩
  intro same
  apply (List.nodup_cons.mp distinct).1
  rw [← same]
  exact List.mem_map_of_mem member

/-- A change within one place, and in memory that was not in use. -/
theorem Laid.change (laid : Laid mail ram service (front ++ place :: back))
    (linked : service.linked = true) (change : Untouched nodes [place.box] ram after)
    (own : ∀ node ∈ nodes, node ∈ place.inner ∨ ram.links node = none) {changed : Place}
    (same : changed.box = place.box)
    (grown : ∀ node ∈ changed.inner, node ∈ place.inner ∨ ram.links node = none)
    (held : changed.Held after) :
    Laid mail after (replaceMail service front [changed.contents] back) (front ++ changed :: back) := by
  have middle : place ∈ front ++ place :: back := List.mem_append_right _ List.mem_cons_self
  have around {other : Place} (member : other ∈ front ++ back) : other ∈ front ++ place :: back := by
    rcases List.mem_append.mp member with before | behind
    · exact List.mem_append_left _ before
    · exact List.mem_append_right _ (List.mem_cons_of_mem _ behind)
  have apart {other : Place} (member : other ∈ front ++ back) {node : Address}
      (inside : node ∈ place.inner ∨ ram.links node = none) : node ∉ other.inner := by
    rcases inside with inside | unused
    · exact (laid.others linked member).1 inside
    · exact laid.fresh unused (around member)
  have stem : spine mail (front ++ changed :: back) = spine mail (front ++ place :: back) := by
    simp only [spine, List.map_append, List.map_cons, same]
  have offSpine {node : Address} (inside : node ∈ place.inner ∨ ram.links node = none) :
      node ∉ spine mail (front ++ place :: back) := by
    intro member
    rcases inside with inside | unused
    · exact laid.outside place middle member inside
    · exact laid.spine_mapped linked member unused
  refine ⟨?_, ?_, ?_, ?_, ?_, ?_⟩
  · exact change.mailboxC.trans laid.mailboxC
  · rw [List.map_append, List.map_cons, replaceMail, List.append_assoc, List.singleton_append]
  · intro other member
    rcases List.mem_cons.mp (List.perm_middle.mem_iff.mp member) with rfl | member
    · exact held
    · refine (laid.held other (around member)).untouched change ?_ ?_
      · intro node inside touched
        exact apart member (own node touched) inside
      · intro owned
        exact (laid.others linked member).2 (List.mem_singleton.mp owned)
  · refine apart_middle.mpr ⟨?_, (apart_middle.mp laid.apart).2⟩
    intro other member node inside
    exact apart member (grown node inside)
  · intro other member
    rw [stem]
    rcases List.mem_cons.mp (List.perm_middle.mem_iff.mp member) with rfl | member
    · intro node onSpine inside
      exact offSpine (grown node inside) onSpine
    · exact laid.outside other (around member)
  · intro _
    rw [stem]
    refine (laid.linked linked).congr ?_
    intro node onSpine
    apply change.links
    intro touched
    exact offSpine (own node touched) onSpine

theorem Laid.unchanged (laid : Laid mail ram service places) (linked : service.linked = true)
    (change : Untouched nodes [] ram after) (unused : ∀ node ∈ nodes, ram.links node = none) :
    Laid mail after service places := by
  refine ⟨change.mailboxC.trans laid.mailboxC, laid.contents, ?_, laid.apart, laid.outside, ?_⟩
  · intro place member
    refine (laid.held place member).untouched change ?_ List.not_mem_nil
    intro node inside touched
    exact laid.fresh (unused node touched) member inside
  · intro _
    refine (laid.linked linked).congr ?_
    intro node onSpine
    apply change.links
    intro touched
    exact laid.spine_mapped linked onSpine (unused node touched)

theorem Laid.given (laid : Laid mail ram service places) (linked : service.linked = true)
    {heads : List Address} (unused : ∀ head ∈ heads, ram.links head = none) (held : Links Address) :
    Laid mail (ram.kmalloc heads held) service places := by
  have change : Untouched heads [] ram (ram.kmalloc heads held) :=
    kmalloc_untouched (fun _ member => member) held
  exact laid.unchanged linked change unused

theorem Laid.remove (laid : Laid mail ram service (front ++ place :: back))
    (linked : service.linked = true) (change : Untouched nodes [] ram after)
    (own : ∀ node ∈ nodes, node ∈ place.inner ∨ node ∈ spine mail (front ++ place :: back))
    (ring : Ring after.links (spine mail (front ++ back) : List Address)) :
    Laid mail after (replaceMail service front [] back) (front ++ back) := by
  have fewer : (front ++ back).Sublist (front ++ place :: back) :=
    (List.sublist_cons_self place back).append_left front
  have stem {node : Address} (member : node ∈ spine mail (front ++ back)) :
      node ∈ spine mail (front ++ place :: back) :=
    ((fewer.map _).cons_cons mail).subset member
  refine ⟨?_, ?_, ?_, ?_, ?_, fun _ => ring⟩
  · exact change.mailboxC.trans laid.mailboxC
  · rw [List.map_append, replaceMail, List.append_nil]
  · intro other member
    refine (laid.held other (fewer.subset member)).untouched change ?_ List.not_mem_nil
    intro node inside touched
    rcases own node touched with inner | onSpine
    · exact (laid.others linked member).1 inner inside
    · exact laid.outside other (fewer.subset member) onSpine inside
  · exact laid.apart.sublist fewer
  · intro other member node onSpine inside
    exact laid.outside other (fewer.subset member) (stem onSpine) inside

theorem Laid.add (laid : Laid mail ram service places) (linked : service.linked = true)
    (change : Untouched nodes [place.box] ram after)
    (own : ∀ node ∈ nodes, ram.links node = none ∨ node ∈ spine mail places)
    (unused : ∀ node ∈ listNode place.box :: place.inner, ram.links node = none)
    (apart : listNode place.box ∉ place.inner) (held : place.Held after)
    (ring : Ring after.links (spine mail (places ++ [place]) : List Address)) :
    Laid mail after
      { service with
        store := { service.store with mail := service.store.mail ++ [place.contents] } }
      (places ++ [place]) := by
  have stem : spine mail (places ++ [place]) = spine mail places ++ [listNode place.box] := by
    simp only [spine, List.map_append, List.map_cons, List.map_nil, List.cons_append]
  have node_unused : ram.links (listNode place.box) = none := unused _ List.mem_cons_self
  have inner_unused {node : Address} (inside : node ∈ place.inner) : ram.links node = none :=
    unused node (List.mem_cons_of_mem _ inside)
  refine ⟨?_, ?_, ?_, ?_, ?_, fun _ => ring⟩
  · exact change.mailboxC.trans laid.mailboxC
  · rw [List.map_append, List.map_singleton, ← laid.contents]
  · intro other member
    rcases List.mem_append.mp member with member | last
    · refine (laid.held other member).untouched change ?_ ?_
      · intro node inside touched
        rcases own node touched with unused | onSpine
        · exact laid.fresh unused member inside
        · exact laid.outside other member onSpine inside
      · intro owned
        have taken : listNode place.box ∈ spine mail places := by
          rw [← List.mem_singleton.mp owned]
          exact List.mem_cons_of_mem _ (List.mem_map_of_mem member)
        exact laid.spine_mapped linked taken node_unused
    · rw [List.mem_singleton.mp last]
      exact held
  · rw [List.pairwise_append]
    refine ⟨laid.apart, List.pairwise_singleton _ _, ?_⟩
    intro other member last single node inside among
    rw [List.mem_singleton.mp single] at among
    exact laid.fresh (inner_unused among) member inside
  · intro other member node onSpine inside
    rw [stem, List.mem_append] at onSpine
    rcases List.mem_append.mp member with member | last
    · rcases onSpine with onSpine | single
      · exact laid.outside other member onSpine inside
      · rw [List.mem_singleton.mp single] at inside
        exact laid.fresh node_unused member inside
    · rw [List.mem_singleton.mp last] at inside
      rcases onSpine with onSpine | single
      · exact laid.spine_mapped linked onSpine (inner_unused inside)
      · rw [List.mem_singleton.mp single] at inside
        exact apart inside

end Whole

end CS421.Mail.Pointers
