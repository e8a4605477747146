/-
What the list operations of the mailbox service do to a service in memory.

Each edit of a list that a system call makes is one lemma: the operations on the
heap do not fault, and the service lies in memory as before but for the one
mailbox that was edited.
-/

import CS421.Mail.Placement

set_option autoImplicit false

namespace CS421.Mail.Pointers

open Rings

variable {poison : Links Address} {mail : Address} {ram : Ram} {service : Service}
  {places : List Place}

/-- A new entry at the tail of a list of the service. -/
theorem add_fresh {head entry : Address} {entries : List Address}
    (ring : Ring ram.links (head :: entries : List Address)) (fresh : entry ∉ head :: entries)
    (held : Links Address) :
    ∃ links, listAddTail entry head (ram.kmalloc [entry] held).links = some links ∧
      Ring links (head :: (entries ++ [entry]) : List Address) ∧
      ∀ node, node ∉ entry :: head :: entries → links node = ram.links node := by
  have apart {node : Address} (other : node ≠ entry) :
      (ram.kmalloc [entry] held).links node = ram.links node :=
    Ram.kmalloc_other (fun member => other (List.mem_singleton.mp member)) held
  have kept : Ring (ram.kmalloc [entry] held).links (head :: entries : List Address) :=
    ring.congr (fun node member => apart (ne_of_mem_of_not_mem member fresh))
  have mapped : (ram.kmalloc [entry] held).links entry ≠ none := by
    rw [Ram.kmalloc_head List.mem_cons_self]
    exact Option.some_ne_none held
  obtain ⟨links, added, ringed, frame⟩ := kept.add fresh mapped
  refine ⟨links, added, ringed, ?_⟩
  intro node outside
  obtain ⟨other, others⟩ := not_or.mp (mt List.mem_cons.mpr outside)
  rw [frame node others other, apart other]

theorem map_added {Value : Type} {before after : Address → Value} {entry : Address}
    {entries : List Address} (kept : ∀ other, other ≠ entry → after other = before other)
    (fresh : entry ∉ entries) :
    (entries ++ [entry]).map after = entries.map before ++ [after entry] := by
  rw [List.map_append, List.map_singleton]
  congr 1
  apply List.map_congr_left
  intro other member
  exact kept other (ne_of_mem_of_not_mem member fresh)

theorem mem_added {node entry : Address} {head : Address} {entries : List Address}
    {place : Address → Address} (member : node ∈ head :: (entries ++ [entry]).map place) :
    node ∈ place entry :: head :: entries.map place := by
  rw [List.map_append, List.map_singleton] at member
  simp only [List.mem_cons, List.mem_append, List.not_mem_nil, or_false] at member ⊢
  tauto

variable (poison) in
theorem delete_used {head entry : Address} {before later : List Address} (owners : List Address)
    (ring : Ring ram.links (head :: (before ++ entry :: later) : List Address)) :
    ∃ links, ram.relink (listDel poison entry) = .ok { ram with links := links } ∧
      Ring (Ram.kfree [entry] { ram with links := links }).links
        (head :: (before ++ later) : List Address) ∧
      Untouched (head :: (before ++ entry :: later)) owners ram
        (Ram.kfree [entry] { ram with links := links }) := by
  obtain ⟨links, deleted, kept, frame⟩ := ring.delete poison
  have distinct : (head :: (before ++ entry :: later)).Nodup := ring.distinct
  rw [← List.cons_append, List.nodup_middle, List.cons_append] at distinct
  refine ⟨links, Ram.relink_some deleted, ?_, ?_⟩
  · apply kept.congr
    intro node member
    apply if_neg
    intro freed
    exact (List.nodup_cons.mp distinct).1 (List.mem_singleton.mp freed ▸ member)
  · apply Untouched.trans
    · exact links_untouched frame
    · apply kfree_untouched
      intro freed member
      rw [List.mem_singleton.mp member]
      exact List.mem_cons_of_mem _ (List.mem_append_right _ List.mem_cons_self)

section Messages

variable {front back : List Place} {place : Place}

variable (poison) in
theorem Place.Held.take_message (held : place.Held ram) {first : Address} {more : List Address}
    (addresses : place.messages = first :: more) :
    ∃ after, ram.relink (listDel poison (messageNode first)) = .ok after ∧
      (place.restock place.contents.count (more.map ram.messages) more).Held
        (after.kfree [messageNode first]) ∧
      Untouched (messagesHead place.box :: place.messages.map messageNode) [place.box] ram
        (after.kfree [messageNode first]) := by
  have ring := held.messagesRing
  have distinct := held.distinct
  have nodes : place.messages.map messageNode = messageNode first :: more.map messageNode := by
    rw [addresses, List.map_cons]
  rw [nodes] at ring distinct ⊢
  have opened : Ring ram.links
      (messagesHead place.box :: ([] ++ messageNode first :: more.map messageNode) :
        List Address) := ring
  obtain ⟨links, deleted, kept, change⟩ := delete_used poison [place.box] opened
  have fewer {node : Address} (member : node ∈ messagesHead place.box :: more.map messageNode) :
      node ∈ messagesHead place.box :: messageNode first :: more.map messageNode :=
    ((List.sublist_cons_self _ _).cons_cons _).subset member
  have changed := held.restock change held.fields rfl kept
    (fun _ member => distinct (fewer member)) distinct.symm
  exact ⟨_, deleted, changed, change⟩

variable (poison) in
theorem take_message (laid : Laid mail ram service (front ++ place :: back))
    (linked : service.linked = true) {first : Address} {more : List Address}
    (addresses : place.messages = first :: more) :
    ∃ after others, ram.relink (listDel poison (messageNode first)) = .ok after ∧
      Laid mail (after.kfree [messageNode first])
        (replaceMail service front [{ place.contents with messages := more.map ram.messages }] back)
        others := by
  have held := laid.held place (List.mem_append_right front List.mem_cons_self)
  obtain ⟨after, deleted, changed, change⟩ := held.take_message poison addresses
  refine ⟨after, _, deleted, laid.change linked change ?_ ?_ ?_ changed⟩
  · intro node touched
    exact Or.inl (List.mem_append_left _ touched)
  · rfl
  · intro node member
    apply Or.inl
    rcases List.mem_append.mp member with message | entry
    · apply List.mem_append_left
      rw [addresses]
      exact ((List.sublist_cons_self _ _).cons_cons _).subset message
    · exact List.mem_append_right _ entry

theorem Place.Held.raise_count (held : place.Held ram) (count : UInt64) :
    (place.restock count place.contents.messages place.messages).Held
      (ram.setBox place.box { ram.boxes place.box with count := count }) := by
  have change : Untouched [] [place.box] ram
      (ram.setBox place.box { ram.boxes place.box with count := count }) :=
    setBox_untouched List.mem_cons_self _
  have fields : (ram.setBox place.box { ram.boxes place.box with count := count }).boxes place.box =
      { aclC := place.contents.aclC, id := place.contents.id, count := count } := by
    rw [Ram.setBox_self, held.fields]
  exact held.restock change fields held.messages held.messagesRing held.distinct
    (fun _ _ none => List.not_mem_nil none)

theorem raise_count (laid : Laid mail ram service (front ++ place :: back))
    (linked : service.linked = true) (count : UInt64) :
    Laid mail (ram.setBox place.box { ram.boxes place.box with count := count })
      (replaceMail service front [{ place.contents with count := count }] back)
      (front ++ place.restock count place.contents.messages place.messages :: back) := by
  have held := laid.held place (List.mem_append_right front List.mem_cons_self)
  have change : Untouched [] [place.box] ram
      (ram.setBox place.box { ram.boxes place.box with count := count }) :=
    setBox_untouched List.mem_cons_self _
  apply laid.change linked change ?_ ?_ ?_ (held.raise_count count)
  · intro node touched
    exact absurd touched List.not_mem_nil
  · rfl
  · intro node member
    exact Or.inl member

theorem Place.Held.add_message (there : place.Held ram) {msg : Address}
    (fresh : messageNode msg ∉ place.inner) (held : Links Address) (message : Message) :
    ∃ after, ((ram.kmalloc [messageNode msg] held).setMessage msg message).relink
          (listAddTail (messageNode msg) (messagesHead place.box)) = .ok after ∧
      (place.restock place.contents.count (place.contents.messages ++ [message])
        (place.messages ++ [msg])).Held after ∧
      Untouched (messageNode msg :: messagesHead place.box :: place.messages.map messageNode)
        [place.box] ram after := by
  have outside : messageNode msg ∉ messagesHead place.box :: place.messages.map messageNode :=
    fun member => fresh (List.mem_append_left _ member)
  obtain ⟨links, added, ringed, frame⟩ := add_fresh there.messagesRing outside held
  have change : Untouched (messageNode msg :: messagesHead place.box :: place.messages.map messageNode)
      [place.box] ram
      { (ram.kmalloc [messageNode msg] held).setMessage msg message with links := links } := by
    refine ⟨rfl, frame, fun _ _ => rfl, ?_, fun _ _ => rfl⟩
    intro other outside
    apply Ram.setMessage_other
    intro same
    exact outside (same ▸ List.mem_cons_self)
  have elsewhere : List.Disjoint (aclHead place.box :: place.acl.map aclNode)
      (messageNode msg :: messagesHead place.box :: place.messages.map messageNode) := by
    intro node entry touched
    rcases List.mem_cons.mp touched with rfl | message
    · exact fresh (List.mem_append_right _ entry)
    · exact there.distinct message entry
  have absent : msg ∉ place.messages := by
    intro member
    exact outside (List.mem_cons_of_mem _ (List.mem_map_of_mem member))
  have contents : (place.messages ++ [msg]).map
      ((ram.kmalloc [messageNode msg] held).setMessage msg message).messages =
        place.contents.messages ++ [message] := by
    rw [map_added (fun _ apart => Ram.setMessage_other apart message) absent, Ram.setMessage_self,
      ← there.messages]
    rfl
  have nodes : (place.messages ++ [msg]).map messageNode =
      place.messages.map messageNode ++ [messageNode msg] := by
    rw [List.map_append, List.map_singleton]
  rw [← nodes] at ringed
  have changed := there.restock change there.fields contents ringed
    (fun _ member entry => elsewhere entry (mem_added member)) elsewhere
  exact ⟨_, Ram.relink_some added, changed, change⟩

theorem add_message (laid : Laid mail ram service (front ++ place :: back))
    (linked : service.linked = true) {msg : Address} (unused : ram.links (messageNode msg) = none)
    (held : Links Address) (message : Message) :
    ∃ after others, ((ram.kmalloc [messageNode msg] held).setMessage msg message).relink
          (listAddTail (messageNode msg) (messagesHead place.box)) = .ok after ∧
      Laid mail after
        (replaceMail service front
          [{ place.contents with messages := place.contents.messages ++ [message] }] back)
        others := by
  have middle : place ∈ front ++ place :: back := List.mem_append_right front List.mem_cons_self
  obtain ⟨after, added, changed, change⟩ :=
    (laid.held place middle).add_message (laid.fresh unused middle) held message
  have own {node : Address}
      (member : node ∈ messageNode msg :: messagesHead place.box :: place.messages.map messageNode) :
      node ∈ place.inner ∨ ram.links node = none := by
    rcases List.mem_cons.mp member with rfl | message
    · exact Or.inr unused
    · exact Or.inl (List.mem_append_left _ message)
  refine ⟨after, _, added, laid.change linked change (fun _ => own) ?_ ?_ changed⟩
  · rfl
  · intro node member
    rcases List.mem_append.mp member with message | entry
    · exact own (mem_added message)
    · exact Or.inl (List.mem_append_right _ entry)

end Messages

section AccessLists

variable {front back : List Place} {place : Place}

theorem mark_acl (laid : Laid mail ram service (front ++ place :: back))
    (linked : service.linked = true) :
    Laid mail (ram.setBox place.box { ram.boxes place.box with aclC := true })
      (replaceMail service front [{ place.contents with aclC := true }] back)
      (front ++ place.relist true place.contents.acl place.acl :: back) := by
  have held := laid.held place (List.mem_append_right front List.mem_cons_self)
  have change : Untouched [] [place.box] ram
      (ram.setBox place.box { ram.boxes place.box with aclC := true }) :=
    setBox_untouched List.mem_cons_self _
  have fields : (ram.setBox place.box { ram.boxes place.box with aclC := true }).boxes place.box =
      { aclC := true, id := place.contents.id, count := place.contents.count } := by
    rw [Ram.setBox_self, held.fields]
  have changed := held.relist change fields held.acl held.aclRing held.distinct
    (fun _ _ none => List.not_mem_nil none)
  apply laid.change linked change ?_ ?_ ?_ changed
  · intro node touched
    exact absurd touched List.not_mem_nil
  · rfl
  · intro node member
    exact Or.inl member

theorem add_acl (laid : Laid mail ram service (front ++ place :: back))
    (linked : service.linked = true) {acl : Address} (unused : ram.links (aclNode acl) = none)
    (held : Links Address) (pid : Int32) :
    ∃ after others, ((ram.kmalloc [aclNode acl] held).setAcl acl pid).relink
          (listAddTail (aclNode acl) (aclHead place.box)) = .ok after ∧
      Laid mail after
        (replaceMail service front [{ place.contents with acl := place.contents.acl ++ [pid] }] back)
        others := by
  have there := laid.held place (List.mem_append_right front List.mem_cons_self)
  have fresh : aclNode acl ∉ aclHead place.box :: place.acl.map aclNode :=
    fun member => there.aclRing.mapped member unused
  obtain ⟨links, added, ringed, frame⟩ := add_fresh there.aclRing fresh held
  have change : Untouched (aclNode acl :: aclHead place.box :: place.acl.map aclNode) [place.box] ram
      { (ram.kmalloc [aclNode acl] held).setAcl acl pid with links := links } := by
    refine ⟨rfl, frame, fun _ _ => rfl, fun _ _ => rfl, ?_⟩
    intro other outside
    apply Ram.setAcl_other
    intro same
    exact outside (same ▸ List.mem_cons_self)
  have elsewhere : List.Disjoint (messagesHead place.box :: place.messages.map messageNode)
      (aclNode acl :: aclHead place.box :: place.acl.map aclNode) := by
    intro node message touched
    rcases List.mem_cons.mp touched with rfl | entry
    · exact there.messagesRing.mapped message unused
    · exact there.distinct message entry
  have absent : acl ∉ place.acl := by
    intro member
    exact fresh (List.mem_cons_of_mem _ (List.mem_map_of_mem member))
  have contents : (place.acl ++ [acl]).map ((ram.kmalloc [aclNode acl] held).setAcl acl pid).acls =
      place.contents.acl ++ [pid] := by
    rw [map_added (fun _ apart => Ram.setAcl_other apart pid) absent, Ram.setAcl_self, ← there.acl]
    rfl
  have nodes : (place.acl ++ [acl]).map aclNode = place.acl.map aclNode ++ [aclNode acl] := by
    rw [List.map_append, List.map_singleton]
  rw [← nodes] at ringed
  have changed := there.relist change there.fields contents ringed
    (fun _ message member => elsewhere message (mem_added member)) elsewhere
  have own {node : Address}
      (member : node ∈ aclNode acl :: aclHead place.box :: place.acl.map aclNode) :
      node ∈ place.inner ∨ ram.links node = none := by
    rcases List.mem_cons.mp member with rfl | entry
    · exact Or.inr unused
    · exact Or.inl (List.mem_append_right _ entry)
  refine ⟨_, _, Ram.relink_some added, laid.change linked change (fun _ => own) ?_ ?_ changed⟩
  · rfl
  · intro node member
    rcases List.mem_append.mp member with message | entry
    · exact Or.inl (List.mem_append_left _ message)
    · exact own (mem_added entry)

variable (poison) in
theorem remove_acl (laid : Laid mail ram service (front ++ place :: back))
    (linked : service.linked = true) {acl : Address} {before later : List Address}
    (addresses : place.acl = before ++ acl :: later) :
    ∃ after others, ram.relink (listDel poison (aclNode acl)) = .ok after ∧
      Laid mail (after.kfree [aclNode acl])
        (replaceMail service front [{ place.contents with acl := (before ++ later).map ram.acls }]
          back)
        others := by
  have held := laid.held place (List.mem_append_right front List.mem_cons_self)
  have ring := held.aclRing
  have distinct := held.distinct
  have nodes : place.acl.map aclNode = before.map aclNode ++ aclNode acl :: later.map aclNode := by
    rw [addresses, List.map_append, List.map_cons]
  have left : (before ++ later).map aclNode = before.map aclNode ++ later.map aclNode :=
    List.map_append
  rw [nodes] at ring distinct
  obtain ⟨links, deleted, kept, change⟩ := delete_used poison [place.box] ring
  rw [← left] at kept
  have fewer {node : Address} (member : node ∈ aclHead place.box :: (before ++ later).map aclNode) :
      node ∈ aclHead place.box :: (before.map aclNode ++ aclNode acl :: later.map aclNode) := by
    rw [left] at member
    exact (((List.sublist_cons_self _ _).append_left _).cons_cons _).subset member
  have changed := held.relist change held.fields rfl kept
    (fun _ message member => distinct message (fewer member)) distinct
  refine ⟨_, _, deleted, laid.change linked change ?_ ?_ ?_ changed⟩
  · intro node touched
    apply Or.inl
    rw [Place.inner, nodes]
    exact List.mem_append_right _ touched
  · rfl
  · intro node member
    apply Or.inl
    rcases List.mem_append.mp member with message | entry
    · exact List.mem_append_left _ message
    · rw [Place.inner, nodes]
      exact List.mem_append_right _ (fewer entry)

end AccessLists

variable (poison) in
theorem unlink_box {front back : List Place} {place : Place}
    (laid : Laid mail ram service (front ++ place :: back)) (linked : service.linked = true) :
    ∃ after, ram.relink (listDel poison (listNode place.box)) = .ok after ∧
      Laid mail (after.kfree (boxHeads place.box)) (replaceMail service front [] back)
        (front ++ back) := by
  have ring := laid.linked linked
  have stem : spine mail (front ++ place :: back) =
      mail :: (front.map (fun place => listNode place.box) ++
        listNode place.box :: back.map (fun place => listNode place.box)) := by
    rw [spine, List.map_append, List.map_cons]
  have left : spine mail (front ++ back) =
      mail :: (front.map (fun place => listNode place.box) ++
        back.map (fun place => listNode place.box)) := by
    rw [spine, List.map_append]
  have middle : place ∈ front ++ place :: back := List.mem_append_right front List.mem_cons_self
  rw [stem] at ring
  have distinct : (mail :: (front.map (fun place => listNode place.box) ++
      listNode place.box :: back.map (fun place => listNode place.box))).Nodup := ring.distinct
  obtain ⟨links, deleted, kept, frame⟩ := ring.delete poison
  refine ⟨{ ram with links := links }, Ram.relink_some deleted, ?_⟩
  have inner {node : Address} (head : node ∈ boxHeads place.box) :
      node ∈ place.inner ∨ node ∈ spine mail (front ++ place :: back) := by
    rcases List.mem_cons.mp head with rfl | heads
    · exact Or.inr (List.mem_cons_of_mem mail (List.mem_map_of_mem middle))
    · exact Or.inl (place.heads_inner heads)
  have gone {node : Address} (onSpine : node ∈ spine mail (front ++ back)) :
      node ∉ boxHeads place.box := by
    rw [left] at onSpine
    rw [← List.cons_append, List.nodup_middle, List.nodup_cons, List.cons_append] at distinct
    intro head
    rcases List.mem_cons.mp head with rfl | heads
    · exact distinct.1 onSpine
    · have inside : node ∈ spine mail (front ++ place :: back) := by
        rw [stem]
        simp only [List.mem_cons, List.mem_append] at onSpine ⊢
        tauto
      exact laid.outside place middle inside (place.heads_inner heads)
  have change : Untouched (spine mail (front ++ place :: back) ++ boxHeads place.box) [] ram
      (Ram.kfree (boxHeads place.box) { ram with links := links }) := by
    apply Untouched.trans
    · apply links_untouched
      intro node outside
      apply frame
      rw [← stem]
      exact fun member => outside (List.mem_append_left _ member)
    · exact kfree_untouched (fun head member => List.mem_append_right _ member)
  apply laid.remove linked change
  · intro node touched
    rcases List.mem_append.mp touched with onSpine | head
    · exact Or.inr onSpine
    · exact inner head
  · rw [← left] at kept
    exact kept.congr (fun node onSpine => if_neg (gone onSpine))

def newPlace (boxN : BoxBlock) (id : UInt64) : Place :=
  { box := boxN.address
    contents := { aclC := boxN.aclC, id := id, count := 0, messages := [], acl := [] }
    messages := []
    acl := [] }

/-- A mailbox is put at the tail of `mail`, and its own lists are empty. -/
theorem add_box {boxN : BoxBlock} (laid : Laid mail ram service places)
    (linked : service.linked = true) (nonnull : boxN.address ≠ 0)
    (unused : ∀ head ∈ boxHeads boxN.address, ram.links head = none) (id : UInt64) :
    ∃ first second third,
      ((ram.kmalloc (boxHeads boxN.address) boxN.held).setBox boxN.address
          { aclC := boxN.aclC, id := id, count := 0 }).relink
            (listAddTail (listNode boxN.address) mail) = .ok first ∧
      first.relink (initListHead (messagesHead boxN.address)) = .ok second ∧
      second.relink (initListHead (aclHead boxN.address)) = .ok third ∧
      Laid mail third
        { service with
          store := { service.store with mail := service.store.mail ++ [(newPlace boxN id).contents] } }
        (places ++ [newPlace boxN id]) := by
  have ring := laid.linked linked
  have onHeads (head : Address) (member : head ∈ boxHeads boxN.address) :
      (ram.kmalloc (boxHeads boxN.address) boxN.held).links head = some boxN.held :=
    Ram.kmalloc_head member boxN.held
  have offSpine (head : Address) (member : head ∈ boxHeads boxN.address) :
      head ∉ spine mail places := fun onSpine => laid.spine_mapped linked onSpine (unused head member)
  have node : listNode boxN.address ∈ boxHeads boxN.address := List.mem_cons_self
  have messages : messagesHead boxN.address ∈ boxHeads boxN.address :=
    List.mem_cons_of_mem _ List.mem_cons_self
  have acl : aclHead boxN.address ∈ boxHeads boxN.address :=
    List.mem_cons_of_mem _ (List.mem_cons_of_mem _ List.mem_cons_self)
  have apart : messagesHead boxN.address ≠ listNode boxN.address ∧
      aclHead boxN.address ≠ listNode boxN.address ∧
      aclHead boxN.address ≠ messagesHead boxN.address := by
    simp [listNode, messagesHead, aclHead]
  have start : Ring (ram.kmalloc (boxHeads boxN.address) boxN.held).links
      (spine mail places : List Address) := by
    apply ring.congr
    intro address onSpine
    exact Ram.kmalloc_other (fun head => offSpine address head onSpine) boxN.held
  have mapped : (ram.kmalloc (boxHeads boxN.address) boxN.held).links (listNode boxN.address) ≠ none := by
    rw [onHeads _ node]
    exact Option.some_ne_none _
  obtain ⟨links, added, spined, frame⟩ := start.add (offSpine _ node) mapped
  have messagesMapped : links (messagesHead boxN.address) ≠ none := by
    rw [frame _ (offSpine _ messages) apart.1, onHeads _ messages]
    exact Option.some_ne_none _
  obtain ⟨withMessages, begun, messagesRing, messagesFrame⟩ := initListHead_ring messagesMapped
  have aclMapped : withMessages (aclHead boxN.address) ≠ none := by
    rw [messagesFrame _ apart.2.2, frame _ (offSpine _ acl) apart.2.1, onHeads _ acl]
    exact Option.some_ne_none _
  obtain ⟨withAcl, ended, aclRing, aclFrame⟩ := initListHead_ring aclMapped
  refine ⟨_, _, _, Ram.relink_some added, Ram.relink_some begun, Ram.relink_some ended, ?_⟩
  have change : Untouched (spine mail places ++ boxHeads boxN.address) [boxN.address] ram
      { (ram.kmalloc (boxHeads boxN.address) boxN.held).setBox boxN.address
          { aclC := boxN.aclC, id := id, count := 0 } with links := withAcl } := by
    refine ⟨rfl, ?_, fun box outside => Ram.setBox_other (List.ne_of_not_mem_cons outside) _,
      fun _ _ => rfl, fun _ _ => rfl⟩
    intro address outside
    obtain ⟨notSpine, notHeads⟩ := not_or.mp (mt List.mem_append.mpr outside)
    have other (head : Address) (member : head ∈ boxHeads boxN.address) : address ≠ head := by
      intro same
      exact notHeads (same ▸ member)
    have last : withAcl address = withMessages address := aclFrame _ (other _ acl)
    have before : withMessages address = links address := messagesFrame _ (other _ messages)
    exact last.trans (before.trans ((frame _ notSpine (other _ node)).trans
      (Ram.kmalloc_other notHeads boxN.held)))
  have held : (newPlace boxN id).Held
      { (ram.kmalloc (boxHeads boxN.address) boxN.held).setBox boxN.address
          { aclC := boxN.aclC, id := id, count := 0 } with links := withAcl } := by
    refine ⟨Ram.setBox_self _ _, rfl, rfl, ?_, aclRing, ?_, nonnull⟩
    · apply messagesRing.congr
      intro address member
      rw [List.mem_singleton.mp member]
      exact aclFrame _ (Ne.symm apart.2.2)
    · intro address message entry
      rw [List.mem_singleton.mp message] at entry
      exact apart.2.2 (List.mem_singleton.mp entry).symm
  have finished : Ring withAcl (spine mail (places ++ [newPlace boxN id]) : List Address) := by
    have stem : spine mail (places ++ [newPlace boxN id]) =
        spine mail places ++ [listNode boxN.address] := by
      simp only [spine, List.map_append, List.map_cons, List.map_nil, List.cons_append, newPlace]
    rw [stem]
    apply spined.congr
    intro address onRing
    have member : address ∈ spine mail places ++ [listNode boxN.address] := onRing
    have other {head : Address} (inside : head ∈ boxHeads boxN.address)
        (notNode : head ≠ listNode boxN.address) : address ≠ head := by
      intro same
      subst same
      rcases List.mem_append.mp member with onSpine | single
      · exact offSpine _ inside onSpine
      · exact notNode (List.mem_singleton.mp single)
    rw [aclFrame _ (other acl apart.2.1), messagesFrame _ (other messages apart.1)]
  apply laid.add linked change ?_ ?_ ?_ held finished
  · intro address touched
    rcases List.mem_append.mp touched with onSpine | head
    · exact Or.inr onSpine
    · exact Or.inl (unused address head)
  · exact unused
  · intro member
    rcases List.mem_append.mp member with message | entry
    · exact apart.1 (List.mem_singleton.mp message).symm
    · exact apart.2.1 (List.mem_singleton.mp entry).symm

end CS421.Mail.Pointers
