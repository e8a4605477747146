/-
The mailbox service in memory does what the service on contents does.

Each system call that answers on contents answers the same in memory, and leaves
memory that holds what the contents have become; so does every run of them. No
walk leaves the lists or goes on for ever, and no list operation meets memory
that is not in use.
-/

import CS421.Mail.Edits
import CS421.Mail.PointerEdits
import Mathlib.Data.List.Find

set_option autoImplicit false

namespace CS421.Mail.Pointers

open Rings Keyed Runs

variable {poison : Links Address} {mail : Address} {ram : Ram} {service : Service}
  {places : List Place} {uid id : UInt64} {answer : Int64} {next : Store}

section Walking

theorem Laid.find (laid : Laid mail ram service places) (linked : service.linked = true)
    (id : UInt64) : ram.find mail id = .ok ((Keyed.first Place.id id places).map Place.box) := by
  have ring := laid.linked linked
  rw [Ram.find, Ram.forEach, ring.walk (Ring.short ring)]
  dsimp only
  rw [visitAll_find (fun temp => (ram.boxes (listEntry temp)).id = id) listEntry, List.find?_map,
    Option.map_map, Keyed.first]
  have box : listEntry ∘ (fun place : Place => listNode place.box) = Place.box :=
    funext fun place => listEntry_listNode place.box
  have same (place : Place) (member : place ∈ places) :
      ((fun temp => decide ((ram.boxes (listEntry temp)).id = id)) ∘
        fun place : Place => listNode place.box) place = decide (place.id = id) := by
    rw [Function.comp_apply, listEntry_listNode, (laid.held place member).fields]
    rfl
  rw [box, List.find?_congr same]

theorem Place.Held.findAcl {place : Place} (held : place.Held ram) (pid : Int32) :
    ram.findAcl (aclHead place.box) pid =
      .ok (place.acl.find? (fun acl => decide (ram.acls acl = pid))) := by
  rw [Ram.findAcl, Ram.forEach, held.aclRing.walk (Ring.short held.aclRing)]
  dsimp only
  rw [visitAll_find (fun temp => ram.acls (aclEntry temp) = pid) aclEntry, List.find?_map,
    Option.map_map]
  have acl : aclEntry ∘ aclNode = fun acl => acl := funext aclEntry_aclNode
  have same (acl : Address) (_ : acl ∈ place.acl) :
      ((fun temp => decide (ram.acls (aclEntry temp) = pid)) ∘ aclNode) acl =
        decide (ram.acls acl = pid) := by
    rw [Function.comp_apply, aclEntry_aclNode]
  rw [acl, Option.map_id', List.find?_congr same]

/-- A search of the contents and the walk in memory act on the same mailbox. -/
theorem search_sim {Answer : Type} {missing answer : Answer}
    {act : Mailbox → Except Mail.Fault (Answer × List Mailbox)}
    {actOn : Address → Ram → Except Crash (Answer × Ram)} (laid : Laid mail ram service places)
    (linked : service.linked = true)
    (acts : ∀ {front back : List Place} {place : Place} {answer : Answer} {kept : List Mailbox},
      Laid mail ram service (front ++ place :: back) → act place.contents = .ok (answer, kept) →
        ∃ after others, actOn place.box ram = .ok (answer, after) ∧
          Laid mail after (replaceMail service front kept back) others)
    (ran : service.store.search id missing act = .ok (answer, next)) :
    ∃ after others, ram.search mail id missing actOn = .ok (answer, after) ∧
      Laid mail after { service with store := next } others := by
  rw [Ram.search, laid.find linked]
  rw [Store.search, laid.contents] at ran
  cases looked : Keyed.first Place.id id places with
  | none =>
      have absent : Keyed.first Mailbox.id id (places.map Place.contents) = none := by
        rw [first_none_iff] at looked ⊢
        intro box member
        obtain ⟨place, among, rfl⟩ := List.mem_map.mp member
        exact looked place among
      rw [onFirst_of_none absent, ← laid.contents] at ran
      cases ran
      exact ⟨ram, places, rfl, laid⟩
  | some place =>
      obtain ⟨front, back, found⟩ := first_some_iff.mp looked
      have there : Found Mailbox.id id (places.map Place.contents) (front.map Place.contents)
          place.contents (back.map Place.contents) := by
        refine ⟨?_, found.own, ?_⟩
        · rw [found.split, List.map_append, List.map_cons]
        · intro box member
          obtain ⟨other, among, rfl⟩ := List.mem_map.mp member
          exact found.earlier other among
      have split := found.split
      subst split
      rw [onFirst_of_found there] at ran
      cases acted : act place.contents with
      | error fault =>
          rw [acted] at ran
          cases ran
      | ok out =>
          rw [acted] at ran
          cases ran
          exact acts laid acted

theorem Laid.put_back {front back : List Place} {place : Place}
    (laid : Laid mail ram service (front ++ place :: back)) :
    replaceMail service front [place.contents] back = service := by
  have contents := laid.contents
  rw [List.map_append, List.map_cons] at contents
  rw [replaceMail, List.append_assoc, List.singleton_append, ← contents]

end Walking

theorem count_sim (laid : Laid mail ram service places) (linked : service.linked = true)
    (ran : Mail.mbx421Count id service.store = .ok (answer, next)) :
    ∃ after others, mbx421Count mail id ram = .ok (answer, after) ∧
      Laid mail after { service with store := next } others := by
  apply search_sim laid linked ?_ ran
  intro front back place answer kept laid acted
  cases acted
  rw [laid.put_back]
  exact ⟨ram, _, rfl, laid⟩

theorem lengthVisit_held {place : Place} (held : place.Held ram) :
    lengthVisit ram (listNode place.box) () =
      if place.contents.count == 0 then .done (-EINVAL)
      else if place.contents.messages.isEmpty then .done (-EINVAL)
      else .again () := by
  obtain ⟨links, read, next⟩ := Option.map_eq_some_iff.mp held.messagesRing.next
  unfold lengthVisit
  dsimp only
  rw [listEntry_listNode, held.fields, read, ← held.messages]
  dsimp only
  rw [next]
  have distinct : (messagesHead place.box :: place.messages.map messageNode).Nodup :=
    held.messagesRing.distinct
  cases addresses : place.messages with
  | nil =>
      rw [List.map_nil, List.headD_nil, if_pos rfl]
      rfl
  | cons first more =>
      rw [addresses, List.map_cons] at distinct
      have apart : messageNode first ≠ messagesHead place.box :=
        (List.ne_of_not_mem_cons (List.nodup_cons.mp distinct).1).symm
      rw [List.map_cons, List.headD_cons, if_neg apart]
      rfl

theorem length_sim (laid : Laid mail ram service places) (linked : service.linked = true) :
    mbx421Length mail id ram = .ok (lengthLoop service.store.mail, ram) := by
  have ring := laid.linked linked
  have visits : visitAll (lengthVisit ram) (fun _ => 0)
      (places.map (fun place => listNode place.box)) () =
        .ok (lengthLoop (places.map Place.contents)) := by
    have held := laid.held
    clear laid ring
    induction places with
    | nil => rfl
    | cons place rest ih =>
        rw [List.map_cons, List.map_cons, visitAll, lengthLoop,
          lengthVisit_held (held place List.mem_cons_self)]
        by_cases unset : place.contents.count == 0
        · rw [if_pos unset, if_pos unset]
        · rw [if_neg unset, if_neg unset]
          by_cases empty : place.contents.messages.isEmpty
          · rw [if_pos empty, if_pos empty]
          · rw [if_neg empty, if_neg empty]
            exact ih (fun other member => held other (List.mem_cons_of_mem place member))
  rw [mbx421Length, Ram.forEach, ring.walk (Ring.short ring), visits, laid.contents]
  rfl

theorem destroy_sim (laid : Laid mail ram service places)
    (walks : destroyChecks uid service.store = true → service.linked = true)
    (ran : Mail.mbx421Destroy uid id service.store = .ok (answer, next)) :
    ∃ after others, mbx421Destroy poison mail uid id ram = .ok (answer, after) ∧
      Laid mail after { service with store := next } others := by
  rw [Mail.mbx421Destroy] at ran
  rw [mbx421Destroy, laid.mailboxC]
  split at ran
  · rename_i stopped
    cases ran
    exact ⟨ram, places, if_pos stopped, laid⟩
  rename_i started
  rw [if_neg started]
  split at ran
  · rename_i stranger
    cases ran
    exact ⟨ram, places, if_pos stranger, laid⟩
  rename_i root
  rw [if_neg root]
  have linked : service.linked = true := by
    apply walks
    simpa [destroyChecks] using And.intro started root
  apply search_sim laid linked ?_ ran
  intro front back place answer kept laid acted
  have fields := (laid.held place (List.mem_append_right front List.mem_cons_self)).fields
  rw [Mail.destroyFound] at acted
  rw [destroyFound, fields]
  split at acted
  · rename_i occupied
    cases acted
    rw [laid.put_back]
    exact ⟨ram, _, if_pos occupied, laid⟩
  · rename_i vacant
    cases acted
    obtain ⟨after, deleted, laid⟩ := unlink_box poison laid linked
    rw [if_neg vacant, deleted]
    exact ⟨_, _, rfl, laid⟩

/-! ### Acts on the mailbox found -/

section Found

variable {front back : List Place} {place : Place}

theorem sendFound_sim {msg : UserMemory} {len : Len} {node : Option MessageBlock} {buffer : Bool}
    {copy : Copy} {kept : List Mailbox} (laid : Laid mail ram service (front ++ place :: back))
    (linked : service.linked = true)
    (given : ∀ msgS, node = some msgS → ∀ head ∈ msgS.heads, ram.links head = none)
    (acted : Mail.sendFound msg len { node := node.map MessageBlock.room, buffer := buffer, copy := copy }
      place.contents = .ok (answer, kept)) :
    ∃ after others, sendFound msg len node buffer copy place.box ram = .ok (answer, after) ∧
      Laid mail after (replaceMail service front kept back) others := by
  have fields := (laid.held place (List.mem_append_right front List.mem_cons_self)).fields
  have raised := raise_count laid linked (place.contents.count + 1)
  have count : (ram.boxes place.box).count = place.contents.count := by rw [fields]
  rw [Mail.sendFound] at acted
  unfold sendFound
  dsimp only
  rw [count]
  cases node with
  | none =>
      cases acted
      exact ⟨_, _, rfl, raised⟩
  | some msgS =>
      have unused := given msgS rfl
      dsimp only [Option.map_some] at acted ⊢
      cases buffer with
      | false =>
          cases acted
          exact ⟨_, _, rfl, raised.given linked unused msgS.held⟩
      | true =>
          rw [Bool.not_true, if_neg Bool.false_ne_true] at acted ⊢
          -- A short block is a fault of the contents too.
          split at acted
          · cases acted
          rename_i whole
          cases acted
          rw [msgS.heads_whole whole] at unused ⊢
          obtain ⟨after, others, added, laid⟩ := add_message raised linked
            (unused _ (List.mem_singleton_self _)) msgS.held (Message.sent copy msg len)
          refine ⟨after, others, ?_, laid⟩
          rw [if_neg whole]
          exact congrArg (fun result => result >>= fun ram => (return (0, ram) : Outcome)) added

theorem recvFound_sim {reply : Reply} {kept : List Mailbox}
    (laid : Laid mail ram service (front ++ place :: back)) (linked : service.linked = true)
    (acted : Mail.recvFound place.contents = .ok (reply, kept)) :
    ∃ after others, recvFound poison place.box ram = .ok (reply, after) ∧
      Laid mail after (replaceMail service front kept back) others := by
  have held := laid.held place (List.mem_append_right front List.mem_cons_self)
  rw [Mail.recvFound] at acted
  rw [recvFound, held.fields]
  split at acted
  · rename_i empty
    cases acted
    rw [laid.put_back]
    exact ⟨ram, _, if_pos empty, laid⟩
  rename_i counted
  rw [if_neg counted]
  have messages := held.messages
  obtain ⟨links, read, next⟩ := Option.map_eq_some_iff.mp held.messagesRing.next
  rw [read]
  dsimp only
  rw [next]
  cases addresses : place.messages with
  | nil =>
      -- No message is there to be taken.
      rw [addresses] at messages
      rw [← messages] at acted
      cases acted
  | cons first more =>
      rw [addresses] at messages
      rw [← messages] at acted
      cases acted
      obtain ⟨after, others, deleted, laid⟩ := take_message poison laid linked addresses
      rw [List.map_cons, List.headD_cons, messageEntry_messageNode, deleted]
      exact ⟨_, others, rfl, laid⟩

theorem Place.Held.acl_found {pid : Int32} (held : place.Held ram) :
    (ram.findAcl (aclHead place.box) pid = .ok none ∧ place.contents.acl.contains pid = false) ∨
      ∃ before acl later, place.acl = before ++ acl :: later ∧
        ram.findAcl (aclHead place.box) pid = .ok (some acl) ∧
        place.contents.acl.contains pid = true ∧
        place.contents.acl.erase pid = (before ++ later).map ram.acls := by
  rw [held.findAcl, ← held.acl]
  cases looked : place.acl.find? (fun acl => decide (ram.acls acl = pid)) with
  | none =>
      apply Or.inl
      refine ⟨rfl, ?_⟩
      rw [List.find?_eq_none] at looked
      simpa using looked
  | some acl =>
      apply Or.inr
      obtain ⟨own, before, later, split, earlier⟩ := List.find?_eq_some_iff_append.mp looked
      have listed : ram.acls acl = pid := of_decide_eq_true own
      have fresh : pid ∉ before.map ram.acls := by
        intro member
        obtain ⟨other, among, same⟩ := List.mem_map.mp member
        have differs := earlier other among
        simp [same] at differs
      have whole : (before ++ acl :: later).map ram.acls =
          before.map ram.acls ++ pid :: later.map ram.acls := by
        rw [List.map_append, List.map_cons, listed]
      refine ⟨before, acl, later, split, rfl, ?_, ?_⟩
      · rw [split, whole]
        simp
      · rw [split, whole, List.erase_append_right _ fresh, List.erase_cons_head, List.map_append]

theorem aclAddFound_sim {pid : Int32} {memory : Option Block} {kept : List Mailbox}
    (laid : Laid mail ram service (front ++ place :: back)) (linked : service.linked = true)
    (given : ∀ cacl, memory = some cacl → ram.links (aclNode cacl.address) = none)
    (acted : Mail.aclAddFound pid memory.isSome place.contents = .ok (answer, kept)) :
    ∃ after others, aclAddFound pid memory place.box ram = .ok (answer, after) ∧
      Laid mail after (replaceMail service front kept back) others := by
  have held := laid.held place (List.mem_append_right front List.mem_cons_self)
  rw [Mail.aclAddFound] at acted
  unfold aclAddFound
  rcases held.acl_found with ⟨absent, unlisted⟩ | ⟨before, acl, later, split, found, listed, _⟩
  · rw [unlisted, if_neg Bool.false_ne_true] at acted
    rw [absent]
    have marked := mark_acl laid linked
    cases memory with
    | none =>
        cases acted
        exact ⟨_, _, rfl, marked⟩
    | some cacl =>
        cases acted
        obtain ⟨after, others, added, laid⟩ := add_acl marked linked (given cacl rfl) cacl.held pid
        refine ⟨after, others, ?_, laid⟩
        exact congrArg (fun result => result >>= fun ram => (return (0, ram) : Outcome)) added
  · rw [listed, if_pos rfl] at acted
    cases acted
    rw [found, laid.put_back]
    exact ⟨ram, _, rfl, laid⟩

theorem aclRemoveFound_sim {pid : Int32} {kept : List Mailbox}
    (laid : Laid mail ram service (front ++ place :: back)) (linked : service.linked = true)
    (acted : Mail.aclRemoveFound pid place.contents = .ok (answer, kept)) :
    ∃ after others, aclRemoveFound poison pid place.box ram = .ok (answer, after) ∧
      Laid mail after (replaceMail service front kept back) others := by
  have held := laid.held place (List.mem_append_right front List.mem_cons_self)
  rw [Mail.aclRemoveFound] at acted
  unfold aclRemoveFound
  rcases held.acl_found with ⟨absent, unlisted⟩ | ⟨before, acl, later, split, found, listed, erased⟩
  · rw [unlisted, if_neg Bool.false_ne_true] at acted
    cases acted
    rw [absent, laid.put_back]
    exact ⟨ram, _, rfl, laid⟩
  · rw [listed, if_pos rfl, erased] at acted
    cases acted
    obtain ⟨after, others, deleted, laid⟩ := remove_acl poison laid linked split
    rw [found]
    refine ⟨_, others, ?_, laid⟩
    exact congrArg (fun result =>
      result >>= fun ram => (return (0, Ram.kfree [aclNode acl] ram) : Outcome)) deleted

end Found

theorem aclAdd_sim {pid : Int32} {memory : Option Block} (laid : Laid mail ram service places)
    (walks : aclChecks uid = true → service.linked = true)
    (given : ∀ cacl, memory = some cacl → ram.links (aclNode cacl.address) = none)
    (ran : Mail.mbx421AclAdd uid id pid memory.isSome service.store = .ok (answer, next)) :
    ∃ after others, mbx421AclAdd mail uid id pid memory ram = .ok (answer, after) ∧
      Laid mail after { service with store := next } others := by
  rw [Mail.mbx421AclAdd] at ran
  rw [mbx421AclAdd]
  split at ran
  · rename_i stranger
    cases ran
    exact ⟨ram, places, if_pos stranger, laid⟩
  · rename_i root
    rw [if_neg root]
    have linked : service.linked = true := by
      apply walks
      simpa [aclChecks] using root
    apply search_sim laid linked ?_ ran
    intro front back place answer kept laid acted
    exact aclAddFound_sim laid linked given acted

theorem aclRemove_sim {pid : Int32} (laid : Laid mail ram service places)
    (walks : aclChecks uid = true → service.linked = true)
    (ran : Mail.mbx421AclRemove uid id pid service.store = .ok (answer, next)) :
    ∃ after others, mbx421AclRemove poison mail uid id pid ram = .ok (answer, after) ∧
      Laid mail after { service with store := next } others := by
  rw [Mail.mbx421AclRemove] at ran
  rw [mbx421AclRemove]
  split at ran
  · rename_i stranger
    cases ran
    exact ⟨ram, places, if_pos stranger, laid⟩
  · rename_i root
    rw [if_neg root]
    have linked : service.linked = true := by
      apply walks
      simpa [aclChecks] using root
    apply search_sim laid linked ?_ ran
    intro front back place answer kept laid acted
    exact aclRemoveFound_sim laid linked acted

theorem send_sim {msg : UserMemory} {len : Int64} {node : Option MessageBlock} {buffer : Bool}
    {copy : Copy} (laid : Laid mail ram service places)
    (walks : sendChecks uid id len service.store = true → service.linked = true)
    (given : ∀ msgS, node = some msgS → ∀ head ∈ msgS.heads, ram.links head = none)
    (ran : Mail.mbx421Send uid id msg len { node := node.map MessageBlock.room, buffer := buffer, copy := copy }
      service.store = .ok (answer, next)) :
    ∃ after others, mbx421Send mail uid id msg len node buffer copy ram = .ok (answer, after) ∧
      Laid mail after { service with store := next } others := by
  rw [Mail.mbx421Send] at ran
  rw [mbx421Send, laid.mailboxC]
  split at ran
  · rename_i stopped
    cases ran
    exact ⟨ram, places, if_pos stopped, laid⟩
  rename_i started
  rw [if_neg started]
  split at ran
  · rename_i outside
    cases ran
    exact ⟨ram, places, if_pos outside, laid⟩
  rename_i inside
  rw [if_neg inside]
  split at ran
  · rename_i stranger
    cases ran
    exact ⟨ram, places, if_pos stranger, laid⟩
  rename_i owner
  rw [if_neg owner]
  split at ran
  · rename_i nonneg
    rw [dif_pos nonneg]
    have linked : service.linked = true := by
      apply walks
      simp_all [sendChecks]
    apply search_sim laid linked ?_ ran
    intro front back place answer kept laid acted
    exact sendFound_sim laid linked given acted
  · rename_i negative
    cases ran
    exact ⟨ram, places, dif_neg negative, laid⟩

theorem recv_sim {msg : UserMemory} {len : Int64} {reply : Reply}
    (laid : Laid mail ram service places)
    (walks : recvChecks uid id service.store = true → service.linked = true)
    (ran : Mail.mbx421Recv uid id msg len service.store = .ok (reply, next)) :
    ∃ after others, mbx421Recv poison mail uid id ram = .ok (reply, after) ∧
      Laid mail after { service with store := next } others := by
  rw [Mail.mbx421Recv] at ran
  rw [mbx421Recv, laid.mailboxC]
  dsimp only at ran
  split at ran
  · rename_i stopped
    cases ran
    exact ⟨ram, places, if_pos stopped, laid⟩
  rename_i started
  rw [if_neg started]
  split at ran
  · rename_i outside
    cases ran
    exact ⟨ram, places, if_pos outside, laid⟩
  rename_i inside
  rw [if_neg inside]
  split at ran
  · rename_i stranger
    cases ran
    exact ⟨ram, places, if_pos stranger, laid⟩
  rename_i owner
  rw [if_neg owner]
  have linked : service.linked = true := by
    apply walks
    simp_all [recvChecks]
  apply search_sim laid linked ?_ ran
  intro front back place reply kept laid acted
  exact recvFound_sim laid linked acted

section Create

theorem scan_laid (laid : Laid mail ram service places) (linked : service.linked = true)
    (id : UInt64) :
    scan mail id ram = .ok (if places.any (fun place => place.contents.id == id) then none
      else some ((places.getLast?.map Place.box).getD 0)) := by
  have ring := laid.linked linked
  have visits (last : Address) : visitAll
      (fun temp (_ : Address) =>
        if (ram.boxes (listEntry temp)).id = id then Loops.Turn.done none
        else Loops.Turn.again (listEntry temp))
      some (places.map (fun place => listNode place.box)) last =
        (.ok (if places.any (fun place => place.contents.id == id) then none
          else some ((places.getLast?.map Place.box).getD last)) : Except Crash (Option Address)) := by
    have held := laid.held
    clear laid ring
    induction places generalizing last with
    | nil => rfl
    | cons place rest ih =>
        have later := ih place.box (fun other member => held other (List.mem_cons_of_mem place member))
        rw [List.map_cons, visitAll, List.any_cons, listEntry_listNode,
          (held place List.mem_cons_self).fields]
        by_cases own : place.contents.id = id
        · rw [if_pos own, beq_iff_eq.mpr own, Bool.true_or, if_pos rfl]
        · rw [if_neg own, beq_eq_false_iff_ne.mpr own, Bool.false_or]
          apply later.trans
          rw [List.getLast?_cons]
          cases rest.getLast? with
          | none => rfl
          | some last => rfl
  rw [scan, Ram.forEach, ring.walk (Ring.short ring)]
  exact visits 0

theorem create_sim {memory : Option BoxBlock} (laid : Laid mail ram service places)
    (walks : createChecks uid id service.store = true → service.linked = true)
    (given : ∀ boxN, memory = some boxN → boxN.address ≠ 0 ∧
      ∀ head ∈ boxHeads boxN.address, ram.links head = none)
    (ran : Mail.mbx421Create uid id (memory.map BoxBlock.aclC) service.store = .ok (answer, next)) :
    ∃ after others, mbx421Create mail uid id memory ram = .ok (answer, after) ∧
      Laid mail after { service with store := next } others := by
  unfold Mail.mbx421Create at ran
  rw [mbx421Create, laid.mailboxC]
  split at ran
  · rename_i stopped
    cases ran
    exact ⟨ram, places, if_pos stopped, laid⟩
  rename_i started
  rw [if_neg started]
  split at ran
  · rename_i outside
    cases ran
    exact ⟨ram, places, if_pos outside, laid⟩
  rename_i inside
  rw [if_neg inside]
  split at ran
  · rename_i stranger
    cases ran
    exact ⟨ram, places, if_pos stranger, laid⟩
  rename_i root
  rw [if_neg root]
  have linked : service.linked = true := by
    apply walks
    simp_all [createChecks]
  rw [scan_laid laid linked]
  have listed : service.store.mail.any (fun box => box.id == id) =
      places.any (fun place => place.contents.id == id) := by
    rw [laid.contents, List.any_map]
    rfl
  rw [listed] at ran
  split at ran
  · rename_i there
    cases ran
    rw [if_pos there]
    exact ⟨ram, places, rfl, laid⟩
  rename_i absent
  rw [if_neg absent]
  have last : service.store.mail.getLast? = places.getLast?.map Place.contents := by
    rw [laid.contents, List.getLast?_map]
  rw [last] at ran
  cases ending : places.getLast? with
  | none =>
      rw [ending] at ran
      cases ran
      cases memory with
      | none => exact ⟨ram, places, rfl, laid⟩
      | some boxN => exact ⟨_, places, rfl, laid.given linked (given boxN rfl).2 boxN.held⟩
  | some place =>
      rw [ending] at ran
      have nonnull : place.box ≠ 0 := (laid.held place (List.mem_of_getLast? ending)).nonnull
      have visited : ¬ (place.box == 0) = true := mt beq_iff_eq.mp nonnull
      cases memory with
      | none => cases ran
      | some boxN =>
          cases ran
          obtain ⟨first, second, third, added, begun, ended, laid⟩ :=
            add_box laid linked (given boxN rfl).1 (given boxN rfl).2 id
          refine ⟨third, _, ?_, laid⟩
          have created : createUnlisted mail id (some boxN) place.box ram = .ok (0, third) := by
            rw [createUnlisted]
            simp only [if_neg visited, added, begun, ended, bind, Except.bind, pure, Except.pure]
          exact created

end Create

theorem init_sim {ptrs prob : UInt32} (laid : Laid mail ram service places)
    (ran : Mail.mbx421Init uid ptrs prob service.store = .ok (answer, next)) :
    ∃ after others, mbx421Init uid ptrs prob ram = .ok (answer, after) ∧
      Laid mail after { service with store := next } others := by
  rw [Mail.mbx421Init] at ran
  rw [mbx421Init, laid.mailboxC]
  split at ran
  · rename_i begun
    cases ran
    exact ⟨ram, places, if_pos begun, laid⟩
  rename_i fresh
  rw [if_neg fresh]
  split at ran
  · rename_i stranger
    cases ran
    exact ⟨ram, places, if_pos stranger, laid⟩
  rename_i root
  rw [if_neg root]
  split at ran
  · rename_i none
    cases ran
    exact ⟨ram, places, if_pos none, laid⟩
  rename_i some
  rw [if_neg some]
  split at ran
  · rename_i refused
    cases ran
    exact ⟨ram, places, if_pos refused, laid⟩
  · rename_i accepted
    cases ran
    refine ⟨_, places, if_neg accepted, rfl, laid.contents, ?_, laid.apart, laid.outside, laid.linked⟩
    intro place member
    have held := laid.held place member
    exact ⟨held.fields, held.messages, held.acl, held.messagesRing, held.aclRing, held.distinct,
      held.nonnull⟩

theorem shutdown_sim {following : Service} (laid : Laid mail ram service places)
    (ran : Mail.mbx421Shutdown uid service = .ok (answer, following)) :
    ∃ after others, mbx421Shutdown poison mail uid ram = .ok (answer, after) ∧
      Laid mail after following others := by
  rw [mbx421Shutdown]
  rcases shutdown_ok ran with ⟨rfl, stranger, rfl⟩ | ⟨rfl, root, linked, empty, rfl⟩
  · exact ⟨ram, places, if_pos (bne_iff_ne.mpr stranger), laid⟩
  · have none : places = [] := by
      have contents := laid.contents
      rw [empty] at contents
      exact List.map_eq_nil_iff.mp contents.symm
    subst none
    have ring : Ring ram.links ([mail] : List Address) := laid.linked linked
    obtain ⟨links, deleted, _, _⟩ := ring.remove poison
    have walked : shutdownWalk poison mail (2 ^ 64) ram.links =
        .ok { heap := links, visited := [], removed := [], stale := [] } := by
      have turns : 2 ^ 64 = 2 ^ 64 - 1 + 1 := rfl
      rw [shutdownWalk, ring_single.mp ring]
      dsimp only
      rw [turns, shutdownLoop, if_pos rfl]
      dsimp only
      rw [deleted]
    have notRoot : ¬ (uid != 0) = true := by simp [root]
    rw [if_neg notRoot, walked]
    refine ⟨_, [], rfl, rfl, rfl, ?_, List.Pairwise.nil, ?_, ?_⟩
    · intro place member
      cases member
    · intro place member
      cases member
    · intro still
      cases still

/-! ### Runs -/

section Runs

variable {walks : Store → Bool} {reply : Reply} {following : Service}

theorem overMail_linked {act : Store → Except Mail.Fault (Reply × Store)}
    (ran : overMail walks act service = .ok (reply, following)) :
    (walks service.store = true → service.linked = true) ∧
      following = { service with store := following.store } := by
  obtain ⟨acted, same⟩ := overMail_ok ran
  constructor
  · intro walking
    cases linked : service.linked with
    | true => rfl
    | false =>
        rw [overMail, walking, linked] at ran
        cases ran
  · rw [← same]

theorem plain_sim {act : Store → Mail.Outcome} {outcome : Outcome}
    (ran : overMail walks (fun store => Mail.plain (act store)) service = .ok (reply, following))
    (simulated : (walks service.store = true → service.linked = true) →
      ∀ answer next, act service.store = .ok (answer, next) →
        ∃ after others, outcome = .ok (answer, after) ∧
          Laid mail after { service with store := next } others) :
    ∃ after others, plain outcome = .ok (reply, after) ∧ Laid mail after following others := by
  obtain ⟨linked, same⟩ := overMail_linked ran
  obtain ⟨acted, _⟩ := overMail_ok ran
  obtain ⟨after, others, answered, laid⟩ :=
    simulated linked reply.answer following.store (plain_ok acted)
  refine ⟨after, others, ?_, same ▸ laid⟩
  have answer : Mail.plain (act service.store) =
      .ok ({ answer := reply.answer, written := [], taken := none }, following.store) := by
    rw [plain_ok acted]
    rfl
  rw [acted, Except.ok.injEq, Prod.mk.injEq] at answer
  rw [answered, answer.1]
  rfl

theorem perform_sim {call : Call} (laid : Laid mail ram service places) (given : call.Given ram)
    (ran : call.contents.perform uid service = .ok (reply, following)) :
    ∃ after others, call.perform poison mail uid ram = .ok (reply, after) ∧
      Laid mail after following others := by
  cases call with
  | init ptrs prob =>
      rw [Call.contents, Syscall.perform] at ran
      apply plain_sim ran
      intro _ answer next ran
      exact init_sim laid ran
  | shutdown =>
      rw [Call.contents, Syscall.perform] at ran
      cases shut : Mail.mbx421Shutdown uid service with
      | error trap =>
          simp only [shut] at ran
          cases ran
      | ok out =>
          simp only [shut] at ran
          cases ran
          obtain ⟨after, others, answered, laid⟩ := shutdown_sim laid shut
          refine ⟨after, others, ?_, laid⟩
          rw [Call.perform, answered]
          rfl
  | create id memory =>
      rw [Call.contents, Syscall.perform] at ran
      apply plain_sim ran
      intro walks answer next ran
      apply create_sim laid walks ?_ ran
      intro boxN same
      subst same
      exact given
  | destroy id =>
      rw [Call.contents, Syscall.perform] at ran
      apply plain_sim ran
      intro walks answer next ran
      exact destroy_sim laid walks ran
  | count id =>
      rw [Call.contents, Syscall.perform] at ran
      apply plain_sim ran
      intro walks answer next ran
      exact count_sim laid (walks rfl) ran
  | length id =>
      rw [Call.contents, Syscall.perform] at ran
      apply plain_sim ran
      intro walks answer next ran
      cases ran
      exact ⟨ram, places, length_sim laid (walks rfl), laid⟩
  | send id msg len node buffer copy =>
      rw [Call.contents, Syscall.perform] at ran
      apply plain_sim ran
      intro walks answer next ran
      apply send_sim laid walks ?_ ran
      intro msgS same
      subst same
      exact given
  | recv id msg len =>
      obtain ⟨linked, same⟩ := overMail_linked ran
      obtain ⟨acted, _⟩ := overMail_ok ran
      obtain ⟨after, others, answered, laid⟩ := recv_sim laid linked acted
      exact ⟨after, others, answered, same ▸ laid⟩
  | aclAdd id pid memory =>
      rw [Call.contents, Syscall.perform] at ran
      apply plain_sim ran
      intro walks answer next ran
      apply aclAdd_sim laid walks ?_ ran
      intro cacl same
      subst same
      exact given
  | aclRemove id pid =>
      rw [Call.contents, Syscall.perform] at ran
      apply plain_sim ran
      intro walks answer next ran
      exact aclRemove_sim laid walks ran

end Runs

abbrev MemoryCall := UInt64 × Call

def MemoryCall.contents (call : MemoryCall) : MailCall := (call.1, call.2.contents)

variable (poison mail) in
def serveInMemory : Machine Ram MemoryCall Reply Crash := fun call => call.2.perform poison mail call.1

/-- A run that answers on contents answers the same in memory, whatever the
addresses that `kmalloc` gives, and ends with the contents laid out. -/
theorem memory_simulates (laid : Laid mail ram service places) {calls : List MemoryCall}
    (given : EveryStep (serveInMemory poison mail) ram calls (fun _ ram call => call.2.Given ram))
    {history : History MailCall Reply} {final : Service}
    (ran : exec serve service (calls.map MemoryCall.contents) = .ok (history, final)) :
    ∃ log last others, exec (serveInMemory poison mail) ram calls = .ok (log, last) ∧
      log.map Prod.snd = history.map Prod.snd ∧ Laid mail last final others := by
  obtain ⟨log, last, finished, ⟨others, laid⟩, same⟩ :=
    exec_simulated MemoryCall.contents (fun service ram => ∃ places, Laid mail ram service places)
      (fun ram call => call.2.Given ram)
      (fun _ _ _ _ _ ⟨_, laid⟩ given ran => by
        obtain ⟨after, others, answered, laid⟩ := perform_sim laid given ran
        exact ⟨after, answered, others, laid⟩)
      ⟨places, laid⟩ given ran
  exact ⟨log, last, others, finished, same, laid⟩

/-- The list of one mailbox without messages, of the caller with its id. -/
def ownedPlace : Place :=
  { box := 8192
    contents := { aclC := false, id := MAXID, count := 0, messages := [], acl := [] }
    messages := []
    acl := [] }

def ownedService : Service :=
  { store := { mailboxC := 1, mail := [ownedPlace.contents] }
    linked := true }

def noMessage : Message :=
  Message.sent { copied := 0, rest := fun _ => 0 } (fun _ => 0) ⟨0, Int64.le_refl 0⟩

def ownedRam : Ram :=
  { mailboxC := 1
    links := Layout.oneBox.heap
    boxes := fun _ => { aclC := false, id := MAXID, count := 0 }
    messages := fun _ => noMessage
    acls := fun _ => 0 }

theorem owned_laid : Laid 4096 ownedRam ownedService [ownedPlace] := by
  obtain ⟨messagesRing, aclRing⟩ := Layout.oneBox.boxRings 8192 List.mem_cons_self
  refine ⟨rfl, rfl, ?_, List.pairwise_singleton _ _, ?_, fun _ => Layout.oneBox.mailRing⟩
  · intro place member
    rw [List.mem_singleton.mp member]
    refine ⟨rfl, rfl, rfl, messagesRing, aclRing, ?_, by decide⟩
    simp [ownedPlace, messagesHead, aclHead]
  · intro place member
    rw [List.mem_singleton.mp member]
    simp [spine, Place.inner, ownedPlace, listNode, messagesHead, aclHead]

def sendByte : MemoryCall :=
  (MAXID, .send MAXID (fun _ => 7) 1
    (some { address := 12288, held := { next := 0, prev := 0 }, room := .whole })
    true { copied := 1, rest := fun _ => 0 })

def receiveByte : MemoryCall := (MAXID, .recv MAXID (fun _ => 0) 1)

theorem byte_simulated :
    ∃ log last final others,
      exec (serveInMemory { next := 0xdead000000000100, prev := 0xdead000000000200 } 4096)
          ownedRam [sendByte, receiveByte] = .ok (log, last) ∧
        (log.map Prod.snd).map Reply.answer = [0, 1] ∧ Laid 4096 last final others := by
  have ends : endsWith serve ownedService ([sendByte, receiveByte].map MemoryCall.contents)
      (fun history _ => (history.map Prod.snd).map Reply.answer == [0, 1]) = true := by decide
  obtain ⟨history, final, ran, answers⟩ := exec_of_endsWith ends
  have given : EveryStep
      (serveInMemory { next := 0xdead000000000100, prev := 0xdead000000000200 } 4096) ownedRam
      ([] ++ [sendByte] ++ [receiveByte]) (fun _ ram call => call.2.Given ram) := by
    rw [everyStep_concat, everyStep_concat]
    refine ⟨⟨everyStep_nil, ?_⟩, fun _ _ _ => trivial⟩
    intro history state started
    cases started
    intro head member
    have own : head ∈ [messageNode 12288] := member
    rw [List.mem_singleton.mp own]
    rfl
  obtain ⟨log, last, others, finished, same, laid⟩ := memory_simulates owned_laid given ran
  exact ⟨log, last, final, others, finished, by rw [same]; exact beq_iff_eq.mp answers, laid⟩

end CS421.Mail.Pointers
