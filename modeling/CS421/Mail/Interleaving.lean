/-
Users who call the mailbox service at the same time.

No call takes a lock, and between any two accesses of one call others may make
theirs. As long as root leaves the list of mailboxes alone and no user is in two
calls at once, this does no harm: no access faults, each user is answered as if
the calls were made one after the other, and once no call is under way memory
holds what they then leave.
-/

import CS421.Mail.Effects
import CS421.Mail.Edits
import CS421.Mail.Identity
import CS421.Mail.Refinement
import CS421.Mail.Territory
import Mathlib.Data.List.Nodup

set_option autoImplicit false

namespace CS421.Mail.Pointers

open Rings Keyed Runs Threads

/-- The mailbox of a place has these contents, and lies in the cells of its user. -/
structure Lies (known place : Place) (contents : Mailbox) (own : Set Cell) (ram : Ram) : Prop where
  box : place.box = known.box
  acl : place.acl = known.acl
  contents : place.contents = contents
  held : place.Held ram
  within : place.cells ⊆ own

theorem setMessage_setMessage {ram : Ram} {msg : Address} {first second : Message} :
    (ram.setMessage msg first).setMessage msg second = ram.setMessage msg second := by
  simp [Ram.setMessage]

section Found

variable {mail : Address} {places : List Place} {known place : Place} {contents : Mailbox}
  {own : Set Cell} {ghost : Ram} {kept : List Mailbox}

theorem Lies.messageCell (lies : Lies known place contents own ghost) {msg : Address}
    (member : msg ∈ place.messages) : Cell.message msg ∈ own :=
  lies.within (show Cell.message msg ∈ place.cells from member)

theorem Lies.linksCell (lies : Lies known place contents own ghost) {node : Address}
    (member : node ∈ messagesHead known.box :: place.messages.map messageNode) :
    Cell.links node ∈ own := by
  rw [← lies.box] at member
  exact lies.within (show Cell.links node ∈ place.cells from member)

theorem Lies.countCell (lies : Lies known place contents own ghost) : Cell.count known.box ∈ own := by
  rw [← lies.box]
  exact lies.within (show Cell.count place.box ∈ place.cells from rfl)

theorem Lies.count (lies : Lies known place contents own ghost) :
    (ghost.boxes known.box).count = contents.count := by
  rw [← lies.box, lies.held.fields, lies.contents]

theorem Lies.seesCount (lies : Lies known place contents own ghost) (state : Ram)
    (agree : (sharing mail places).Agree (own ∪ (sharing mail places).common) ghost state) :
    (state.boxes known.box).count = (ghost.boxes known.box).count :=
  agree_count agree (Or.inl lies.countCell)

theorem Lies.raised (lies : Lies known place contents own ghost) (count : UInt64) :
    Lies known (place.restock count contents.messages place.messages)
      { contents with count := count } own (setCount known.box count ghost) := by
  have raised := lies.held.raise_count count
  rw [lies.box, lies.contents] at raised
  refine ⟨lies.box, lies.acl, ?_, raised, ?_⟩
  · rw [← lies.contents]
    rfl
  · intro cell member
    apply lies.within
    cases cell with
    | count box => exact member
    | links node => exact member
    | message msg => exact member
    | _ => exact member

theorem Lies.fresh (lies : Lies known place contents own ghost) (among : known ∈ places)
    {node : Address} (fresh : Cell.links node ∉ own ∪ commonCells mail places) :
    node ∉ place.inner := by
  intro member
  apply fresh
  rcases List.mem_append.mp member with message | entry
  · apply Or.inl
    rw [lies.box] at message
    exact lies.linksCell message
  · apply Or.inr
    rw [lies.box, lies.acl] at entry
    exact Or.inr ⟨known, among, entry⟩

theorem Lies.given (lies : Lies known place contents own ghost) {msg : Address}
    (fresh : messageNode msg ∉ place.inner) (held : Links Address) (message : Message) :
    Lies known place contents (own ∪ blockCells msg)
      ((ghost.kmalloc [messageNode msg] held).setMessage msg message) := by
  refine ⟨lies.box, lies.acl, lies.contents, ?_, fun _ member => Or.inl (lies.within member)⟩
  have change : Untouched [messageNode msg] [] ghost
      ((ghost.kmalloc [messageNode msg] held).setMessage msg message) := by
    apply Untouched.trans (kmalloc_untouched (fun _ member => member) held)
    refine ⟨rfl, fun _ _ => rfl, fun _ _ => rfl, ?_, fun _ _ => rfl⟩
    intro other outside
    apply Ram.setMessage_other
    intro same
    exact outside (same ▸ List.mem_cons_self)
  apply lies.held.untouched change ?_ List.not_mem_nil
  intro node inside touched
  rw [List.mem_singleton.mp touched] at inside
  exact fresh inside

theorem Lies.keeps_add {ends : Unit → Set Cell → Ram → Prop} {msg : Address} {held : Links Address}
    {message : Message} (lies : Lies known place contents own ghost)
    (fresh : messageNode msg ∉ place.inner)
    (owned : Owned (own ∪ blockCells msg)
      ((ghost.kmalloc [messageNode msg] held).setMessage msg message))
    (ended : ∀ place after, Owned (own ∪ blockCells msg) after →
      Lies known place { contents with messages := contents.messages ++ [message] }
        (own ∪ blockCells msg) after → ends () (own ∪ blockCells msg) after) :
    (sharing mail places).Keeps ends (listAddTailSteps (messageNode msg) (messagesHead known.box))
      (own ∪ blockCells msg) ((ghost.kmalloc [messageNode msg] held).setMessage msg message) := by
  obtain ⟨after, added, changed, _⟩ := lies.held.add_message fresh held message
  have ring := (lies.given fresh held message).held.messagesRing
  rw [lies.box] at added ring
  have entryMine : Cell.links (messageNode msg) ∈ own ∪ blockCells msg := Or.inr rfl
  have headMine : Cell.links (messagesHead known.box) ∈ own ∪ blockCells msg :=
    Or.inl (lies.linksCell List.mem_cons_self)
  apply keeps_listAddTail owned entryMine headMine ?_ added
  · intro owned
    apply ended (place.restock place.contents.count (place.contents.messages ++ [message])
      (place.messages ++ [msg])) after owned
    refine ⟨lies.box, lies.acl, ?_, changed, ?_⟩
    · rw [← lies.contents]
      rfl
    · intro cell member
      cases cell with
      | count box => exact Or.inl (lies.within member)
      | links node =>
          rcases List.mem_cons.mp (mem_added member) with same | among
          · exact Or.inr same
          · exact Or.inl (lies.within among)
      | message other =>
          rcases List.mem_append.mp member with among | same
          · exact Or.inl (lies.within among)
          · exact Or.inr (List.mem_singleton.mp same)
      | _ => exact member.elim
  · intro links read
    exact Or.inl (lies.linksCell (ring.neighbours List.mem_cons_self read).2)

theorem keeps_sendFound {ends : Int64 → Set Cell → Ram → Prop} {msg : UserMemory} {len : Len}
    {node : Option MessageBlock} {buffer : Bool} {copy : Copy} {answer : Int64}
    (owned : Owned own ghost) (among : known ∈ places)
    (steady : ∀ node, Cell.links node ∈ commonCells mail places → ghost.links node ≠ none)
    (lies : Lies known place contents own ghost)
    (acted : Mail.sendFound msg len { node := node.map MessageBlock.room, buffer := buffer, copy := copy } contents =
      .ok (answer, kept))
    (ended : ∀ own ghost place changed, kept = [changed] → Owned own ghost →
      Lies known place changed own ghost → ends answer own ghost) :
    (sharing mail places).Keeps ends (sendFoundSteps msg len node buffer copy known.box) own ghost := by
  rw [Mail.sendFound] at acted
  unfold sendFoundSteps
  apply Sharing.keeps_bind
  apply keeps_fetch owned lies.seesCount
  rw [lies.count]
  apply Sharing.keeps_bind
  apply keeps_setCount owned lies.countCell
  have raised := lies.raised (contents.count + 1)
  have stillOwned : Owned own (setCount known.box (contents.count + 1) ghost) :=
    ⟨owned.mapped, owned.whole⟩
  cases node with
  | none =>
      cases acted
      exact ended own _ _ _ rfl stillOwned raised
  | some msgS =>
      dsimp only [Option.map_some] at acted ⊢
      apply Sharing.keeps_bind
      by_cases short : msgS.room.1 < messageSize
      · rw [msgS.heads_short short]
        apply keeps_kmalloc_short stillOwned
        cases buffer with
        | false =>
            cases acted
            exact ended own _ _ _ rfl stillOwned raised
        | true =>
            rw [Bool.not_true, if_neg Bool.false_ne_true, if_pos short] at acted
            cases acted
      rw [if_neg short] at acted
      rw [msgS.heads_whole short]
      apply keeps_kmalloc stillOwned steady
      intro fresh garbage nowOwned
      have outside := raised.fresh among fresh
      cases buffer with
      | false =>
          cases acted
          exact ended _ _ _ _ rfl nowOwned (raised.given outside msgS.held garbage)
      | true =>
          cases acted
          rw [Bool.not_true, if_neg Bool.false_ne_true, if_neg short]
          apply Sharing.keeps_bind
          apply keeps_setMessage nowOwned (Or.inr rfl)
          rw [setMessage_setMessage]
          apply Sharing.keeps_bind
          have filled : Owned (own ∪ blockCells msgS.address)
              (((setCount known.box (contents.count + 1) ghost).kmalloc [messageNode msgS.address]
                msgS.held).setMessage msgS.address (Message.sent copy msg len)) :=
            ⟨nowOwned.mapped, nowOwned.whole⟩
          apply raised.keeps_add outside filled
          intro place after owned lies
          exact ended _ after place _ rfl owned lies

theorem Lies.taken (lies : Lies known place contents own ghost) {first : Address}
    {more : List Address} (addresses : place.messages = first :: more) {after : Ram}
    (held : (place.restock place.contents.count (more.map ghost.messages) more).Held after) :
    Lies known (place.restock place.contents.count (more.map ghost.messages) more)
      { contents with messages := more.map ghost.messages } (own \ blockCells first) after := by
  have distinct : (messagesHead place.box :: place.messages.map messageNode).Nodup :=
    lies.held.messagesRing.distinct
  have within := lies.within
  rw [addresses, List.map_cons, List.nodup_cons, List.nodup_cons] at distinct
  obtain ⟨notHead, fresh, _⟩ := distinct
  refine ⟨lies.box, lies.acl, ?_, held, ?_⟩
  · rw [← lies.contents]
    rfl
  intro cell member
  cases cell with
  | count box => exact ⟨within member, fun block => block⟩
  | links node =>
      have among : node ∈ messagesHead place.box :: more.map messageNode := member
      refine ⟨?_, ?_⟩
      · apply within
        show node ∈ messagesHead place.box :: place.messages.map messageNode
        rw [addresses]
        exact ((List.sublist_cons_self _ _).cons_cons _).subset among
      · intro same
        have freed : node = messageNode first := same
        rw [freed] at among
        rcases List.mem_cons.mp among with head | later
        · exact notHead (head ▸ List.mem_cons_self)
        · exact fresh later
  | message other =>
      have among : other ∈ more := member
      refine ⟨?_, ?_⟩
      · apply lies.messageCell
        rw [addresses]
        exact List.mem_cons_of_mem first among
      · intro same
        have freed : other = first := same
        rw [freed] at among
        exact fresh (List.mem_map_of_mem among)
  | _ => exact member.elim

theorem keeps_recvFound {poison : Links Address} {ends : Reply → Set Cell → Ram → Prop}
    {reply : Reply} (owned : Owned own ghost) (lies : Lies known place contents own ghost)
    (acted : Mail.recvFound contents = .ok (reply, kept))
    (ended : ∀ own ghost place changed, kept = [changed] → Owned own ghost →
      Lies known place changed own ghost → ends reply own ghost) :
    (sharing mail places).Keeps ends (recvFoundSteps poison known.box) own ghost := by
  rw [Mail.recvFound] at acted
  unfold recvFoundSteps
  apply Sharing.keeps_bind
  apply keeps_fetch owned lies.seesCount
  rw [lies.count]
  by_cases empty : contents.count == 0
  · rw [if_pos empty] at acted ⊢
    cases acted
    exact ended own ghost place _ rfl owned lies
  rw [if_neg empty] at acted ⊢
  have messages := lies.held.messages
  have ring := lies.held.messagesRing
  rw [lies.contents] at messages
  rw [lies.box] at ring
  cases addresses : place.messages with
  | nil =>
      rw [addresses] at messages
      rw [← messages] at acted
      cases acted
  | cons first more =>
      rw [addresses] at messages
      rw [← messages] at acted
      cases acted
      obtain ⟨after, deleted, changed, _⟩ := lies.held.take_message poison addresses
      have headMine : Cell.links (messagesHead known.box) ∈ own := lies.linksCell List.mem_cons_self
      have firstOnRing : messageNode first ∈ messagesHead known.box :: place.messages.map messageNode := by
        rw [addresses]
        exact List.mem_cons_of_mem _ List.mem_cons_self
      have firstMine : Cell.links (messageNode first) ∈ own := lies.linksCell firstOnRing
      obtain ⟨links, read, next⟩ := Option.map_eq_some_iff.mp ring.next
      have oldest : links.next = messageNode first := by
        rw [next, addresses]
        rfl
      have seen (state : Ram)
          (agree : (sharing mail places).Agree (own ∪ (sharing mail places).common) ghost state) :
          state.messages first = ghost.messages first := by
        apply agree_message agree
        apply Or.inl
        apply lies.messageCell
        rw [addresses]
        exact List.mem_cons_self
      apply Sharing.keeps_bind
      apply keeps_follow owned (Or.inl headMine) read
      rw [oldest, messageEntry_messageNode]
      apply Sharing.keeps_bind
      apply keeps_fetch owned seen
      apply Sharing.keeps_bind
      apply keeps_listDel owned firstMine ?_ deleted
      · intro owned
        apply Sharing.keeps_bind
        apply keeps_kfree owned firstMine
        intro owned
        exact ended _ _ _ _ rfl owned (lies.taken addresses changed)
      · intro links held
        have around := ring.neighbours firstOnRing held
        exact ⟨lies.linksCell around.1, lies.linksCell around.2⟩

end Found

/-- The calls of users, on the contents and one at a time. -/
def serveUser : Machine Service (UInt64 × UserCall) Reply Trap :=
  fun call => call.2.call.contents.perform call.1

structure Elsewhere (uid : UInt64) (store next : Store) : Prop where
  mailboxC : next.mailboxC = store.mailboxC
  ids : next.mail.map Mailbox.id = store.mail.map Mailbox.id
  others : ∀ other, other ≠ uid → next.find other = store.find other

theorem elsewhere_of_effect {store next : Store} {body : Body} {reply : Reply}
    (effect : Effect store next body reply) : Elsewhere body.id store next := by
  have replaced {uid : UInt64} {box changed : Mailbox} (replaced : Replaced store box changed next)
      (own : changed.id = uid) : Elsewhere uid store next := by
    subst own
    exact ⟨replaced.mailboxC, replaced.ids, replaced.other⟩
  cases effect with
  | absent body missing same =>
      subst same
      exact ⟨rfl, rfl, fun _ _ => rfl⟩
  | failed msg len memory fails change => exact replaced change rfl
  | sent msg len memory succeeds fits change => exact replaced change rfl
  | empty msg len zero change => exact replaced change rfl
  | received msg len nonzero oldest change => exact replaced change rfl

theorem serve_elsewhere {uid : UInt64} {call : UserCall} {service next : Service} {reply : Reply}
    (served : serveUser (uid, call) service = .ok (reply, next)) :
    next.linked = service.linked ∧ Elsewhere uid service.store next.store := by
  have kept {store after : Store} (same : after = store) : Elsewhere uid store after := by
    subst same
    exact ⟨rfl, rfl, fun _ _ => rfl⟩
  rw [serveUser] at served
  cases call with
  | count id =>
      dsimp only [UserCall.call, Call.contents, Syscall.perform] at served
      obtain ⟨acted, linked⟩ := overMail_ok served
      refine ⟨linked, ?_⟩
      rcases search_ok (plain_ok acted) with ⟨_, _, same⟩ | ⟨before, box, after, kept', found, looked, same⟩
      · exact kept same
      · rw [Except.ok.injEq, Prod.mk.injEq] at looked
        apply kept
        rw [same, ← looked.2, found.rejoin]
  | send id msg len node buffer copy =>
      dsimp only [UserCall.call, Call.contents, Syscall.perform] at served
      obtain ⟨acted, linked⟩ := overMail_ok served
      refine ⟨linked, ?_⟩
      rcases send_ok (plain_ok acted) with same | ⟨nonneg, rfl, looped⟩
      · exact kept same
      · exact elsewhere_of_effect (effect_of_send looped)
  | recv id msg len =>
      dsimp only [UserCall.call, Call.contents, Syscall.perform] at served
      obtain ⟨acted, linked⟩ := overMail_ok served
      refine ⟨linked, ?_⟩
      rcases recv_ok acted with same | ⟨rfl, looped⟩
      · exact kept same
      · exact elsewhere_of_effect (effect_of_recv looped)

theorem sendFound_edits {msg : UserMemory} {len : Len} {memory : Memory} {box : Mailbox}
    {answer : Int64} {kept : List Mailbox} (acted : Mail.sendFound msg len memory box = .ok (answer, kept)) :
    ∃ changed, kept = [changed] ∧ changed.id = box.id := by
  rcases sendFound_ok acted with ⟨_, _, rfl⟩ | ⟨_, _, _, rfl⟩
  · exact ⟨_, rfl, rfl⟩
  · exact ⟨_, rfl, rfl⟩

theorem recvFound_edits {box : Mailbox} {reply : Reply} {kept : List Mailbox}
    (acted : Mail.recvFound box = .ok (reply, kept)) :
    ∃ changed, kept = [changed] ∧ changed.id = box.id := by
  unfold Mail.recvFound at acted
  split at acted
  · cases acted
    exact ⟨_, rfl, rfl⟩
  split at acted
  · cases acted
  · cases acted
    exact ⟨_, rfl, rfl⟩

/-! ### One user beside others -/

/-- What a user in no call has: the service that the calls so far leave, of which
the user's mailbox lies in the user's cells. -/
structure Stands (start : Ram) (places : List Place) (uid : UInt64) (service : Service)
    (own : Set Cell) (ram : Ram) : Prop where
  linked : service.linked = true
  mailboxC : service.store.mailboxC = start.mailboxC
  ids : service.store.mail.map Mailbox.id = places.map Place.id
  owned : Owned own ram
  lies : ∀ known ∈ places, known.id = uid →
    ∃ place contents, service.store.find uid = some contents ∧ Lies known place contents own ram

structure Listed (mail : Address) (start : Ram) (places : List Place) (ram : Ram) : Prop where
  mailboxC : ram.mailboxC = start.mailboxC
  ids : ∀ place ∈ places, (ram.boxes place.box).id = place.id
  ring : Ring ram.links (spine mail places : List Address)
  steady : ∀ node, Cell.links node ∈ commonCells mail places → ram.links node ≠ none

section Users

variable {poison : Links Address} {mail : Address} {start ram other : Ram} {places : List Place}
  {service next initial : Service} {uid id : UInt64} {own : Set Cell}

theorem Laid.listed (laid : Laid mail start initial places) (linked : initial.linked = true)
    (agree : (sharing mail places).Agree (sharing mail places).common start ram) :
    Listed mail start places ram := by
  have ring := laid.linked linked
  have onSpine (node : Address) (member : node ∈ spine mail places) :
      ram.links node = start.links node := agree_links agree (Or.inl member)
  refine ⟨agree_mailboxC agree trivial, ?_, ring.congr onSpine, ?_⟩
  · intro place member
    have common : Cell.listed place.box ∈ (sharing mail places).common := trivial
    rw [(agree_listed agree common).2, (laid.held place member).fields]
    rfl
  · intro node common
    have same : ram.links node = start.links node := agree_links agree common
    rw [same]
    rcases common with spine | ⟨place, member, entry⟩
    · exact ring.mapped spine
    · exact (laid.held place member).aclRing.mapped entry

theorem Stands.seen (stands : Stands start places uid service own ram)
    (agree : (sharing mail places).Agree (own ∪ (sharing mail places).common) ram other) :
    Stands start places uid service own other := by
  refine ⟨stands.linked, stands.mailboxC, stands.ids, stands.owned.agree agree, ?_⟩
  intro known among owner
  obtain ⟨place, contents, found, lies⟩ := stands.lies known among owner
  refine ⟨place, contents, found, lies.box, lies.acl, lies.contents, ?_, lies.within⟩
  exact lies.held.agree ⟨known, among, lies.box.symm, lies.acl.symm⟩ lies.within agree

theorem Stands.others {caller : UInt64} {call : UserCall} {reply : Reply}
    (stands : Stands start places uid service own ram) (apart : uid ≠ caller)
    (served : serveUser (caller, call) service = .ok (reply, next)) :
    Stands start places uid next own ram := by
  obtain ⟨linked, elsewhere⟩ := serve_elsewhere served
  refine ⟨linked.trans stands.linked, elsewhere.mailboxC.trans stands.mailboxC,
    elsewhere.ids.trans stands.ids, stands.owned, ?_⟩
  intro known among owner
  obtain ⟨place, contents, found, lies⟩ := stands.lies known among owner
  exact ⟨place, contents, (elsewhere.others uid apart).trans found, lies⟩

theorem Stands.first_none (stands : Stands start places uid service own ram) :
    first Place.id id places = none ↔ service.store.find id = none := by
  have listed (ids : List UInt64) : (∀ entry ∈ ids, entry ≠ id) ↔ id ∉ ids := by
    constructor
    · intro apart member
      exact apart id member rfl
    · intro absent entry member same
      exact absent (same ▸ member)
  rw [Store.find, first_none_iff, first_none_iff]
  have left := listed (places.map Place.id)
  have right := listed (service.store.mail.map Mailbox.id)
  rw [List.forall_mem_map] at left right
  rw [left, right, stands.ids]

theorem Stands.keeps_loop {Answer : Type} {missing answer : Answer} {after : Store}
    {act : Mailbox → Except Mail.Fault (Answer × List Mailbox)} {steps : Address → Steps Answer}
    (stands : Stands start places uid service own ram) (listed : Listed mail start places ram)
    (distinct : (places.map Place.id).Nodup)
    (edits : ∀ {box : Mailbox} {kept : List Mailbox}, act box = .ok (answer, kept) →
      ∃ changed, kept = [changed] ∧ changed.id = box.id)
    (ran : service.store.search uid missing act = .ok (answer, after))
    (acts : ∀ {known place : Place} {contents : Mailbox} {kept : List Mailbox}
      {ends : Answer → Set Cell → Ram → Prop}, known ∈ places → Lies known place contents own ram →
        act contents = .ok (answer, kept) →
        (∀ own ram place changed, kept = [changed] → Owned own ram →
          Lies known place changed own ram → ends answer own ram) →
        (sharing mail places).Keeps ends (steps known.box) own ram) :
    (sharing mail places).Keeps
      (fun result own ram =>
        result = answer ∧ Stands start places uid { service with store := after } own ram)
      (searchSteps mail uid missing steps) own ram := by
  apply keeps_search stands.owned listed.ring listed.ids
  cases looked : first Place.id uid places with
  | none =>
      have absent := stands.first_none.mp looked
      rcases search_ok ran with ⟨_, same, rfl⟩ | ⟨before, box, behind, kept, found, _, _⟩
      · exact ⟨same.symm, stands⟩
      · rw [Store.find, found.first_eq] at absent
        cases absent
  | some known =>
      obtain ⟨front, back, there⟩ := first_some_iff.mp looked
      obtain ⟨place, contents, mine, lies⟩ := stands.lies known there.mem there.own
      rcases search_ok ran with ⟨absent, _, _⟩ | ⟨before, box, behind, kept, found, acted, rfl⟩
      · rw [absent] at mine
        cases mine
      · rw [Store.find, found.first_eq] at mine
        cases mine
        apply acts there.mem lies acted
        intro own ram place changed edited owned lies
        obtain ⟨other, same, id⟩ := edits acted
        rw [same] at edited
        cases edited
        subst same
        have owner : changed.id = uid := id.trans found.own
        have middle : before ++ [changed] ++ behind = before ++ changed :: behind :=
          (List.append_cons before changed behind).symm
        refine ⟨rfl, stands.linked, stands.mailboxC, ?_, owned, ?_⟩
        · rw [← stands.ids, ← found.map_key owner]
          dsimp only
          rw [middle]
        · intro other among again
          have same : other = known :=
            List.inj_on_of_nodup_map distinct among there.mem (again.trans there.own.symm)
          subst same
          refine ⟨place, changed, ?_, lies⟩
          dsimp only
          rw [Store.find, middle]
          exact found.first_replace owner

theorem keeps_plain {steps : Steps Int64} {outcome : Mail.Outcome} {reply : Reply} {after : Store}
    {property : Set Cell → Ram → Prop} (ran : Mail.plain outcome = .ok (reply, after))
    (keeps : (sharing mail places).Keeps
      (fun answer own ram => answer = reply.answer ∧ property own ram) steps own ram) :
    (sharing mail places).Keeps (fun result own ram => result = reply ∧ property own ram)
      (plainSteps steps) own ram := by
  have answered : reply = { answer := reply.answer, written := [], taken := none } := by
    rw [plain_ok ran] at ran
    exact (Prod.mk.inj (Except.ok.inj ran)).1.symm
  apply Sharing.keeps_bind
  apply Sharing.keeps_mono keeps
  rintro answer own ram ⟨rfl, holds⟩
  exact ⟨answered.symm, holds⟩

theorem Stands.keeps_count {answer : Int64} {after : Store}
    (stands : Stands start places uid service own ram) (listed : Listed mail start places ram)
    (ran : Mail.mbx421Count id service.store = .ok (answer, after)) :
    (sharing mail places).Keeps
      (fun result own ram =>
        result = answer ∧ Stands start places uid { service with store := after } own ram)
      (mbx421CountSteps mail id) own ram := by
  apply keeps_search stands.owned listed.ring listed.ids
  cases looked : first Place.id id places with
  | none =>
      have absent := stands.first_none.mp looked
      rcases search_ok ran with ⟨_, same, rfl⟩ | ⟨before, box, behind, kept, found, _, _⟩
      · exact ⟨same.symm, stands⟩
      · rw [Store.find, found.first_eq] at absent
        cases absent
  | some known =>
      rcases search_ok ran with ⟨absent, _, _⟩ | ⟨before, box, behind, kept, found, acted, rfl⟩
      · rw [stands.first_none.mpr absent] at looked
        cases looked
      · cases acted
        rw [found.rejoin]
        exact ⟨rfl, stands⟩

theorem Stands.keeps_mailboxC {Answer : Type} {ends : Answer → Set Cell → Ram → Prop}
    {rest : Int32 → Steps Answer} (stands : Stands start places uid service own ram)
    (listed : Listed mail start places ram)
    (ended : (sharing mail places).Keeps ends (rest service.store.mailboxC) own ram) :
    (sharing mail places).Keeps ends ((fetch Ram.mailboxC).bind rest) own ram := by
  apply Sharing.keeps_bind
  apply keeps_fetch stands.owned
  · intro state agree
    exact agree_mailboxC agree (Or.inr trivial)
  · rw [listed.mailboxC, ← stands.mailboxC]
    exact ended

theorem Stands.keeps_send {msg : UserMemory} {len : Int64} {node : Option MessageBlock} {buffer : Bool}
    {copy : Copy} {answer : Int64} {after : Store}
    (stands : Stands start places uid service own ram) (listed : Listed mail start places ram)
    (distinct : (places.map Place.id).Nodup)
    (ran : Mail.mbx421Send uid id msg len { node := node.map MessageBlock.room, buffer := buffer, copy := copy }
      service.store = .ok (answer, after)) :
    (sharing mail places).Keeps
      (fun result own ram =>
        result = answer ∧ Stands start places uid { service with store := after } own ram)
      (mbx421SendSteps mail uid id msg len node buffer copy) own ram := by
  apply stands.keeps_mailboxC listed
  rw [Mail.mbx421Send] at ran
  split at ran
  · rename_i stopped
    cases ran
    rw [if_pos stopped]
    exact ⟨rfl, stands⟩
  rename_i started
  rw [if_neg started]
  split at ran
  · rename_i outside
    cases ran
    rw [if_pos outside]
    exact ⟨rfl, stands⟩
  rename_i inside
  rw [if_neg inside]
  split at ran
  · rename_i stranger
    cases ran
    rw [if_pos stranger]
    exact ⟨rfl, stands⟩
  rename_i owner
  rw [if_neg owner]
  have caller : uid = id := by simpa using owner
  subst caller
  split at ran
  · rename_i nonneg
    rw [dif_pos nonneg]
    apply stands.keeps_loop listed distinct sendFound_edits ran
    intro known place contents kept ends among lies acted ended
    exact keeps_sendFound stands.owned among listed.steady lies acted ended
  · rename_i negative
    cases ran
    rw [dif_neg negative]
    exact ⟨rfl, stands⟩

theorem Stands.keeps_recv {msg : UserMemory} {len : Int64} {reply : Reply} {after : Store}
    (stands : Stands start places uid service own ram) (listed : Listed mail start places ram)
    (distinct : (places.map Place.id).Nodup)
    (ran : Mail.mbx421Recv uid id msg len service.store = .ok (reply, after)) :
    (sharing mail places).Keeps
      (fun result own ram =>
        result = reply ∧ Stands start places uid { service with store := after } own ram)
      (mbx421RecvSteps poison mail uid id) own ram := by
  apply stands.keeps_mailboxC listed
  rw [Mail.mbx421Recv] at ran
  dsimp only at ran
  split at ran
  · rename_i stopped
    cases ran
    rw [if_pos stopped]
    exact ⟨rfl, stands⟩
  rename_i started
  rw [if_neg started]
  split at ran
  · rename_i outside
    cases ran
    rw [if_pos outside]
    exact ⟨rfl, stands⟩
  rename_i inside
  rw [if_neg inside]
  split at ran
  · rename_i stranger
    cases ran
    rw [if_pos stranger]
    exact ⟨rfl, stands⟩
  rename_i owner
  rw [if_neg owner]
  have caller : uid = id := by simpa using owner
  subst caller
  apply stands.keeps_loop listed distinct recvFound_edits ran
  intro known place contents kept ends among lies acted ended
  exact keeps_recvFound stands.owned lies acted ended

/-- A call of a user goes as it goes alone, and leaves the user with the mailbox
that it then has. -/
theorem Stands.keeps {call : UserCall} {reply : Reply} (stands : Stands start places uid service own ram)
    (listed : Listed mail start places ram) (distinct : (places.map Place.id).Nodup)
    (served : serveUser (uid, call) service = .ok (reply, next)) :
    (sharing mail places).Keeps
      (fun answer own ram => answer = reply ∧ Stands start places uid next own ram)
      (call.steps poison mail uid) own ram := by
  rw [serveUser] at served
  cases call with
  | count id =>
      dsimp only [UserCall.call, Call.contents, Syscall.perform] at served
      obtain ⟨acted, _⟩ := overMail_ok served
      rw [(overMail_linked served).2]
      exact keeps_plain acted (stands.keeps_count listed (plain_ok acted))
  | send id msg len node buffer copy =>
      dsimp only [UserCall.call, Call.contents, Syscall.perform] at served
      obtain ⟨acted, _⟩ := overMail_ok served
      rw [(overMail_linked served).2]
      exact keeps_plain acted (stands.keeps_send listed distinct (plain_ok acted))
  | recv id msg len =>
      dsimp only [UserCall.call, Call.contents, Syscall.perform] at served
      obtain ⟨acted, _⟩ := overMail_ok served
      rw [(overMail_linked served).2]
      exact stands.keeps_recv listed distinct acted

variable (poison) in
theorem Laid.separate (laid : Laid mail start service places) (linked : service.linked = true)
    (distinct : (places.map Place.id).Nodup) :
    Separate (sharing mail places) (fun uid call => UserCall.steps poison mail uid call) serveUser
      (Stands start places) start := by
  constructor
  · intro state agree cell common
    have listed := laid.listed linked agree
    cases cell with
    | links node => exact listed.steady node common
    | message msg => exact common.elim
    | _ => exact fun unused => unused
  · intro uid service own state other stands agree
    exact stands.seen agree
  · intro uid service own state stands
    exact stands.owned.firm
  · intro caller call service reply next served uid own state apart stands
    exact stands.others apart served
  · intro uid call service reply next own state served stands agree
    exact stands.keeps (laid.listed linked agree) distinct served

/-! ### The start and the end -/

def homeCells (places : List Place) (uid : UInt64) : Set Cell :=
  fun cell => ∃ known ∈ places, known.id = uid ∧ cell ∈ known.cells

theorem Laid.ids (laid : Laid mail start service places) :
    service.store.mail.map Mailbox.id = places.map Place.id := by
  rw [laid.contents, List.map_map]
  rfl

theorem Laid.stands (laid : Laid mail start service places) (linked : service.linked = true)
    (distinct : service.store.Distinct) (uid : UInt64) :
    Stands start places uid service (homeCells places uid) start := by
  refine ⟨linked, laid.mailboxC.symm, laid.ids, ⟨?_, ?_⟩, ?_⟩
  · rintro node ⟨known, among, _, member⟩
    exact (laid.held known among).messagesRing.mapped member
  · rintro msg ⟨known, among, owner, member⟩
    exact ⟨known, among, owner, List.mem_cons_of_mem _ (List.mem_map_of_mem member)⟩
  · rintro known among rfl
    have member : known.contents ∈ service.store.mail := by
      rw [laid.contents]
      exact List.mem_map_of_mem among
    refine ⟨known, known.contents, distinct.findsEach known.contents member, rfl, rfl, rfl,
      laid.held known among, ?_⟩
    intro cell inside
    exact ⟨known, among, rfl, inside⟩

theorem Laid.foreign (laid : Laid mail start service places) (linked : service.linked = true)
    {place other : Place} (member : place ∈ places) (among : other ∈ places)
    (different : place ≠ other) :
    List.Disjoint place.inner other.inner ∧ place.box ≠ other.box := by
  have symmetric : Std.Symm Place.Apart := ⟨fun _ _ disjoint => List.Disjoint.symm disjoint⟩
  refine ⟨laid.apart.forall member among different, ?_⟩
  intro same
  have nodes := (List.nodup_cons.mp (laid.spine_nodup linked)).2
  apply different
  apply List.inj_on_of_nodup_map nodes member among
  rw [same]

theorem Laid.homes_apart (laid : Laid mail start service places) (linked : service.linked = true)
    {uid other : UInt64} (apart : uid ≠ other) :
    ∀ cell ∈ homeCells places uid, cell ∉ homeCells places other := by
  rintro cell ⟨place, member, rfl, mine⟩ ⟨known, among, rfl, theirs⟩
  have different : place ≠ known := fun same => apart (congrArg Place.id same)
  obtain ⟨inner, boxes⟩ := laid.foreign linked member among different
  cases cell with
  | count box => exact boxes (Eq.trans (Eq.symm mine) theirs)
  | links node => exact inner (List.mem_append_left _ mine) (List.mem_append_left _ theirs)
  | message msg =>
      have node (place : Place) (member : Cell.message msg ∈ place.cells) :
          messageNode msg ∈ place.inner :=
        List.mem_append_left _ (List.mem_cons_of_mem _ (List.mem_map_of_mem member))
      exact inner (node place mine) (node known theirs)
  | _ => exact mine

theorem Laid.homes_uncommon (laid : Laid mail start service places) (linked : service.linked = true)
    (uid : UInt64) : ∀ cell ∈ homeCells places uid, cell ∉ commonCells mail places := by
  rintro cell ⟨place, member, rfl, mine⟩ common
  cases cell with
  | links node =>
      have inside : node ∈ place.inner := List.mem_append_left _ mine
      rcases common with spine | ⟨known, among, entry⟩
      · exact laid.outside place member spine inside
      · by_cases same : place = known
        · subst same
          exact (laid.held place member).distinct mine entry
        · exact (laid.foreign linked member among same).1 inside (List.mem_append_right _ entry)
  | count box => exact common
  | message msg => exact common
  | _ => exact mine

theorem Laid.settled (laid : Laid mail start initial places) (linked : initial.linked = true)
    (distinct : (places.map Place.id).Nodup) {own : UInt64 → Set Cell}
    (stands : ∀ uid, Stands start places uid service (own uid) ram)
    (apart : ∀ uid other, uid ≠ other → ∀ cell ∈ own uid, cell ∉ own other)
    (shared : ∀ uid, ∀ cell ∈ own uid, cell ∉ commonCells mail places)
    (agree : (sharing mail places).Agree (sharing mail places).common start ram) :
    ∃ others, Laid mail ram service others := by
  have listed := laid.listed linked agree
  have now (known : Place) : ∃ place, known ∈ places →
      service.store.find known.id = some place.contents ∧
        Lies known place place.contents (own known.id) ram := by
    by_cases among : known ∈ places
    · obtain ⟨place, contents, found, lies⟩ := (stands known.id).lies known among rfl
      have same := lies.contents
      subst same
      exact ⟨place, fun _ => ⟨found, lies⟩⟩
    · exact ⟨known, fun member => absurd member among⟩
  choose current facts using now
  have lies (known : Place) (among : known ∈ places) := (facts known among).2
  have stem : spine mail (places.map current) = spine mail places := by
    rw [spine, spine, List.map_map]
    congr 1
    apply List.map_congr_left
    intro known among
    exact congrArg listNode (lies known among).box
  have inner (known : Place) (among : known ∈ places) {node : Address}
      (inside : node ∈ (current known).inner) :
      Cell.links node ∈ own known.id ∨ node ∈ aclHead known.box :: known.acl.map aclNode := by
    rcases List.mem_append.mp inside with message | entry
    · exact Or.inl ((lies known among).within message)
    · rw [(lies known among).box, (lies known among).acl] at entry
      exact Or.inr entry
  have uncommon {known other : Place} (among : other ∈ places) {node : Address}
      (entry : node ∈ aclHead other.box :: other.acl.map aclNode) :
      Cell.links node ∉ own known.id := fun mine =>
    shared known.id _ mine (Or.inr ⟨other, among, entry⟩)
  refine ⟨places.map current, ?_, ?_, ?_, ?_, ?_, ?_⟩
  · rw [listed.mailboxC, (stands 0).mailboxC]
  · rw [List.map_map]
    apply eq_map_of_first (stands 0).ids distinct
    intro known among
    exact (facts known among).1
  · intro place member
    obtain ⟨known, among, rfl⟩ := List.mem_map.mp member
    exact (lies known among).held
  · rw [List.pairwise_map]
    have different := List.pairwise_map.mp distinct
    apply (laid.apart.and different).imp_of_mem
    rintro known other among member ⟨apartBefore, ids⟩ node inside within
    rcases inner known among inside with mine | entry
    · rcases inner other member within with theirs | other'
      · exact apart known.id other.id ids _ mine theirs
      · exact uncommon member other' mine
    · rcases inner other member within with theirs | other'
      · exact uncommon among entry theirs
      · exact apartBefore (List.mem_append_right _ entry) (List.mem_append_right _ other')
  · intro place member
    obtain ⟨known, among, rfl⟩ := List.mem_map.mp member
    rw [stem]
    intro node onSpine inside
    rcases inner known among inside with mine | entry
    · exact shared known.id _ mine (Or.inl onSpine)
    · exact laid.outside known among onSpine (List.mem_append_right _ entry)
  · intro _
    rw [stem]
    exact listed.ring

end Users

/-- Users call at the same time and are answered as if one after the other. -/
theorem users_interleave {poison : Links Address} {mail : Address} {ram : Ram} {service last : Service}
    {places : List Place} (laid : Laid mail ram service places) (linked : service.linked = true)
    (distinct : service.store.Distinct) {moves : List (Move UInt64 UserCall)}
    {log : Threads.Log UInt64 UserCall Reply} {tasks : Tasks Ram UInt64 UserCall Crash Reply}
    (ran : exec (act fun uid call => UserCall.steps poison mail uid call) (idleTasks ram) moves =
      .ok (log, tasks))
    {history : History (UInt64 × UserCall) Reply}
    (served : exec serveUser service (entered moves) = .ok (history, last)) :
    (∀ uid, ofThread uid (returned log) <+: ofThread uid history) ∧
      (∀ uid crash, act (fun uid call => UserCall.steps poison mail uid call) (.next uid) tasks ≠
        .error (.fault crash)) ∧
      ((∀ uid, tasks.running uid = none) →
        (∀ uid, ofThread uid (returned log) = ofThread uid history) ∧
          ∃ others, Laid mail tasks.memory last others) := by
  have ids : (places.map Place.id).Nodup := by
    rw [← laid.ids]
    exact distinct
  have separate := laid.separate poison linked ids
  obtain ⟨own, sound⟩ := sound_exec separate (laid.stands linked distinct)
    (fun _ _ apart => laid.homes_apart linked apart) (laid.homes_uncommon linked) ran served
  refine ⟨?_, sound.no_fault separate, ?_⟩
  · intro uid
    exact sound.answered uid
  · intro idle
    have stands (uid : UInt64) := sound.idle (idle uid)
    refine ⟨fun uid => (stands uid).2.symm, ?_⟩
    exact laid.settled linked ids (fun uid => (stands uid).1) sound.apart sound.shared sound.common

def listPoison : Links Address := { next := 0xdead000000000100, prev := 0xdead000000000200 }

def sendByteAt (address : Address) : UserCall :=
  .send MAXID (fun _ => 7) 1 (some { address := address, held := { next := 0, prev := 0 }, room := .whole }) true
    { copied := 1, rest := fun _ => 0 }

def overlapping : List (Move UInt64 UserCall) :=
  [.enter MAXID (sendByteAt 12288), .enter 1000 (.count MAXID), .next MAXID, .next 1000,
    .next MAXID, .next 1000, .next MAXID, .next 1000] ++ List.replicate 10 (.next MAXID)

theorem users_interleave_count :
    ∃ log tasks history last,
      exec (act fun uid call => UserCall.steps listPoison 4096 uid call) (idleTasks ownedRam)
          overlapping = .ok (log, tasks) ∧
        exec serveUser ownedService (entered overlapping) = .ok (history, last) ∧
        (returned log).map (fun event => (event.1.1, event.2.answer)) = [(1000, 0), (MAXID, 0)] ∧
        ∀ uid, ofThread uid (returned log) <+: ofThread uid history := by
  have ends : endsWith (act fun uid call => UserCall.steps listPoison 4096 uid call)
      (idleTasks ownedRam) overlapping
      (fun log _ => (returned log).map (fun event => (event.1.1, event.2.answer)) ==
        [(1000, 0), (MAXID, 0)]) = true := by decide
  have served : endsWith serveUser ownedService (entered overlapping) (fun _ _ => true) = true := by
    decide
  obtain ⟨log, tasks, ran, answers⟩ := exec_of_endsWith ends
  obtain ⟨history, last, serial, _⟩ := exec_of_endsWith served
  refine ⟨log, tasks, history, last, ran, serial, beq_iff_eq.mp answers, ?_⟩
  exact (users_interleave owned_laid rfl (by decide) ran serial).1

-- Two calls of one user: both read the count before either writes it, and one of
-- two messages that have been accepted is not counted.
example :
    endsWith
      (act fun (_ : Bool) call => UserCall.steps listPoison 4096 MAXID call) (idleTasks ownedRam)
      ([.enter true (sendByteAt 12288), .enter false (sendByteAt 16384)] ++
        List.replicate 4 (.next true) ++ List.replicate 13 (.next false) ++
        List.replicate 9 (.next true))
      (fun log tasks => (returned log).map (fun event => event.2.answer) == [0, 0] &&
        (tasks.memory.boxes 8192).count == 1) = true := by
  decide

end CS421.Mail.Pointers
