/-
What of memory belongs to whom while users call the mailbox service.

Nobody's call writes to `mail`, to the ids of the mailboxes or to their access
lists. The count of a mailbox and the list of its messages, with the blocks that
these lie in, belong to the user whose id it has. The rules say what one access
of a call does to the territory of its caller, and that no other access in
memory bears on it.
-/

import CS421.Mail.PointerEdits
import CS421.Mail.Steps

set_option autoImplicit false

namespace CS421.Mail.Pointers

open Rings Threads

inductive Cell where
  | mailboxC
  /-- The fields of a mailbox that are set when it is created. -/
  | listed (box : Address)
  | count (box : Address)
  | links (node : Address)
  | message (msg : Address)
  | acl (entry : Address)

inductive Shown where
  | mailboxC (value : Int32)
  | listed (aclC : Bool) (id : UInt64)
  | count (value : UInt64)
  | links (held : Option (Links Address))
  | message (message : Message)
  | acl (pid : Int32)

namespace Cell

def view (ram : Ram) : Cell → Shown
  | mailboxC => .mailboxC ram.mailboxC
  | listed box => .listed (ram.boxes box).aclC (ram.boxes box).id
  | count box => .count (ram.boxes box).count
  | links node => .links (ram.links node)
  | message msg => .message (ram.messages msg)
  | acl entry => .acl (ram.acls entry)

/-- A message lies in the block that its list head lies in. -/
def unused (ram : Ram) : Cell → Prop
  | links node => ram.links node = none
  | message msg => ram.links (messageNode msg) = none
  | _ => False

end Cell

def commonCells (mail : Address) (places : List Place) : Set Cell
  | .mailboxC | .listed _ | .acl _ => True
  | .count _ | .message _ => False
  | .links node =>
      node ∈ spine mail places ∨ ∃ place ∈ places, node ∈ aclHead place.box :: place.acl.map aclNode

def sharing (mail : Address) (places : List Place) : Sharing Ram Cell Shown :=
  { view := Cell.view
    unused := Cell.unused
    common := commonCells mail places }

/-- What the calls on a mailbox write to. -/
def Place.cells (place : Place) : Set Cell
  | .count box => box = place.box
  | .links node => node ∈ messagesHead place.box :: place.messages.map messageNode
  | .message msg => msg ∈ place.messages
  | _ => False

def blockCells (msg : Address) : Set Cell
  | .links node => node = messageNode msg
  | .message other => other = msg
  | _ => False

structure Owned (own : Set Cell) (ram : Ram) : Prop where
  mapped : ∀ node, Cell.links node ∈ own → ram.links node ≠ none
  whole : ∀ msg, Cell.message msg ∈ own → Cell.links (messageNode msg) ∈ own

section Cells

variable {mail : Address} {places : List Place} {own cells : Set Cell} {ram state other : Ram}

/-! ### Memory that agrees -/

section Agree

variable (agree : (sharing mail places).Agree cells state other)

include agree

theorem agree_mailboxC (member : Cell.mailboxC ∈ cells) : other.mailboxC = state.mailboxC :=
  Shown.mailboxC.inj (agree .mailboxC member)

theorem agree_listed {box : Address} (member : Cell.listed box ∈ cells) :
    (other.boxes box).aclC = (state.boxes box).aclC ∧ (other.boxes box).id = (state.boxes box).id :=
  Shown.listed.inj (agree (.listed box) member)

theorem agree_count {box : Address} (member : Cell.count box ∈ cells) :
    (other.boxes box).count = (state.boxes box).count :=
  Shown.count.inj (agree (.count box) member)

theorem agree_links {node : Address} (member : Cell.links node ∈ cells) :
    other.links node = state.links node :=
  Shown.links.inj (agree (.links node) member)

theorem agree_message {msg : Address} (member : Cell.message msg ∈ cells) :
    other.messages msg = state.messages msg :=
  Shown.message.inj (agree (.message msg) member)

theorem agree_acl {acl : Address} (member : Cell.acl acl ∈ cells) :
    other.acls acl = state.acls acl :=
  Shown.acl.inj (agree (.acl acl) member)

end Agree

theorem Owned.agree (owned : Owned own state)
    (agree : (sharing mail places).Agree (own ∪ (sharing mail places).common) state other) :
    Owned own other := by
  refine ⟨?_, owned.whole⟩
  intro node member
  rw [agree_links agree (Or.inl member)]
  exact owned.mapped node member

theorem Owned.firm (owned : Owned own ram) : (sharing mail places).Firm own ram := by
  intro other agree cell member unused
  have kept := owned.agree agree
  cases cell with
  | links node => exact kept.mapped node member unused
  | message msg => exact kept.mapped _ (kept.whole msg member) unused
  | _ => exact unused

/-- A mailbox lies as it does wherever its cells and the common ones say the same. -/
theorem Place.Held.agree {place : Place} (held : place.Held state)
    (listed : ∃ known ∈ places, known.box = place.box ∧ known.acl = place.acl)
    (within : place.cells ⊆ own)
    (agree : (sharing mail places).Agree (own ∪ (sharing mail places).common) state other) :
    place.Held other := by
  obtain ⟨known, among, box, acl⟩ := listed
  have mine (cell : Cell) (member : cell ∈ place.cells) : cell ∈ own ∪ (sharing mail places).common :=
    Or.inl (within member)
  have common (cell : Cell) (member : cell ∈ commonCells mail places) :
      cell ∈ own ∪ (sharing mail places).common := Or.inr member
  obtain ⟨aclC, id⟩ := agree_listed agree (common (.listed place.box) trivial)
  have count := agree_count agree (mine (.count place.box) rfl)
  refine ⟨?_, ?_, ?_, ?_, ?_, held.distinct, held.nonnull⟩
  · rw [← held.fields]
    cases fields : other.boxes place.box
    cases earlier : state.boxes place.box
    rw [fields, earlier] at aclC id count
    cases aclC
    cases id
    cases count
    rfl
  · rw [← held.messages]
    apply List.map_congr_left
    intro msg member
    exact agree_message agree (mine (.message msg) member)
  · rw [← held.acl]
    apply List.map_congr_left
    intro acl member
    exact agree_acl agree (common (.acl acl) trivial)
  · apply held.messagesRing.congr
    intro node member
    exact agree_links agree (mine (.links node) member)
  · apply held.aclRing.congr
    intro node member
    apply agree_links agree
    apply common
    rw [← box, ← acl] at member
    exact Or.inr ⟨known, among, member⟩

section Accesses

variable {ghost after : Ram} {ends : Unit → Set Cell → Ram → Prop}

theorem keeps_fetch {Value : Type} {ends : Value → Set Cell → Ram → Prop} {read : Ram → Value}
    (owned : Owned own ghost)
    (seen : ∀ state, (sharing mail places).Agree (own ∪ (sharing mail places).common) ghost state →
      read state = read ghost)
    (ended : ends (read ghost) own ghost) :
    (sharing mail places).Keeps ends (fetch read) own ghost :=
  Sharing.keeps_load owned.firm (fun state agree => congrArg Except.ok (seen state agree)) ended

theorem keeps_follow {ends : Address → Set Cell → Ram → Prop} {pointer : Links Address → Address}
    {node : Address} {links : Links Address} (owned : Owned own ghost)
    (readable : Cell.links node ∈ own ∪ (sharing mail places).common)
    (held : ghost.links node = some links) (ended : ends (pointer links) own ghost) :
    (sharing mail places).Keeps ends (follow pointer node) own ghost := by
  apply Sharing.keeps_load owned.firm ?_ ended
  intro state agree
  rw [agree_links agree readable, held]

theorem keeps_write {write : Ram → Except Crash Ram} {changed : Ram} {cell : Cell}
    (owned : Owned own changed) (mine : cell ∈ own)
    (wrote : ∀ state, (sharing mail places).Agree (own ∪ (sharing mail places).common) ghost state →
      ∃ after, write state = .ok after ∧ Cell.view after cell = Cell.view changed cell ∧
        ∀ other, other ≠ cell → Cell.view after other = Cell.view state other)
    (kept : ∀ other, other ≠ cell → Cell.view changed other = Cell.view ghost other)
    (ended : ends () own changed) :
    (sharing mail places).Keeps ends (Program.store write) own ghost := by
  apply Sharing.keeps_store ?_ owned.firm ended
  intro state agree
  obtain ⟨after, written, same, elsewhere⟩ := wrote state agree
  refine ⟨after, written, ⟨?_, fun _ member => Or.inl member⟩, ?_⟩
  · intro other foreign _
    exact elsewhere other (ne_of_mem_of_not_mem mine foreign).symm
  · intro other member
    by_cases written : other = cell
    · rw [written]
      exact same
    · exact (elsewhere other written).trans ((agree other member).trans (kept other written).symm)

theorem keeps_change {node : Address} {edit : Links Address → Links Address} {links : Heap Address}
    (owned : Owned own ghost) (mine : Cell.links node ∈ own)
    (changed : ghost.links.change node edit = some links)
    (ended : Owned own { ghost with links := links } → ends () own { ghost with links := links }) :
    (sharing mail places).Keeps ends (change node edit) own ghost := by
  obtain ⟨held, there⟩ := Option.ne_none_iff_exists'.mp (owned.mapped node mine)
  rw [change_some there] at changed
  cases changed
  have kept : Owned own
      { ghost with links := Function.update ghost.links node (some (edit held)) } :=
    ⟨fun other member => update_mapped (owned.mapped other member), owned.whole⟩
  have apart (ram : Ram) (other : Cell) (elsewhere : other ≠ .links node) :
      Cell.view { ram with links := Function.update ram.links node (some (edit held)) } other =
        Cell.view ram other := by
    cases other with
    | links other =>
        have differs : other ≠ node := fun same => elsewhere (congrArg Cell.links same)
        exact congrArg Shown.links (Function.update_of_ne differs _ _)
    | _ => rfl
  have written (ram : Ram) :
      Cell.view { ram with links := Function.update ram.links node (some (edit held)) } (.links node) =
        .links (some (edit held)) := congrArg Shown.links (Function.update_self node _ ram.links)
  apply keeps_write kept mine ?_ (apart ghost) (ended kept)
  intro state agree
  have seen : state.links node = some held := (agree_links agree (Or.inl mine)).trans there
  exact ⟨_, Ram.relink_some (change_some seen), (written state).trans (written ghost).symm, apart state⟩

theorem keeps_setCount {box : Address} {count : UInt64} (owned : Owned own ghost)
    (mine : Cell.count box ∈ own) (ended : ends () own (setCount box count ghost)) :
    (sharing mail places).Keeps ends (assign (setCount box count)) own ghost := by
  have apart (ram : Ram) (other : Cell) (elsewhere : other ≠ .count box) :
      Cell.view (setCount box count ram) other = Cell.view ram other := by
    cases other with
    | listed other =>
        by_cases same : other = box
        · rw [same, Cell.view, setCount, Ram.setBox_self]
          rfl
        · rw [Cell.view, setCount, Ram.setBox_other same]
          rfl
    | count other =>
        have differs : other ≠ box := fun same => elsewhere (congrArg Cell.count same)
        rw [Cell.view, setCount, Ram.setBox_other differs]
        rfl
    | _ => rfl
  have kept : Owned own (setCount box count ghost) := ⟨owned.mapped, owned.whole⟩
  apply keeps_write kept mine ?_ (apart ghost) ended
  intro state agree
  refine ⟨_, rfl, ?_, apart state⟩
  rw [Cell.view, Cell.view, setCount, setCount, Ram.setBox_self, Ram.setBox_self]

theorem keeps_setMessage {msg : Address} {message : Message} (owned : Owned own ghost)
    (mine : Cell.message msg ∈ own) (ended : ends () own (ghost.setMessage msg message)) :
    (sharing mail places).Keeps ends (assign (Ram.setMessage msg message)) own ghost := by
  have apart (ram : Ram) (other : Cell) (elsewhere : other ≠ .message msg) :
      Cell.view (ram.setMessage msg message) other = Cell.view ram other := by
    cases other with
    | message other =>
        have differs : other ≠ msg := fun same => elsewhere (congrArg Cell.message same)
        exact congrArg Shown.message (Ram.setMessage_other differs message)
    | _ => rfl
  have kept : Owned own (ghost.setMessage msg message) := ⟨owned.mapped, owned.whole⟩
  apply keeps_write kept mine ?_ (apart ghost) ended
  intro state agree
  refine ⟨_, rfl, ?_, apart state⟩
  rw [Cell.view, Cell.view, Ram.setMessage_self, Ram.setMessage_self]

theorem kmalloc_links {msg : Address} {held : Links Address} (ram : Ram) (node : Address) :
    (ram.kmalloc [messageNode msg] held).links node =
      if node = messageNode msg then some held else ram.links node := by
  simp [Ram.kmalloc]

theorem kfree_links {msg : Address} (ram : Ram) (node : Address) :
    (ram.kfree [messageNode msg]).links node =
      if node = messageNode msg then none else ram.links node := by
  simp [Ram.kfree]

theorem Owned.given (owned : Owned own ghost) (msg : Address) (held : Links Address)
    (message : Message) :
    Owned (own ∪ blockCells msg) ((ghost.kmalloc [messageNode msg] held).setMessage msg message) := by
  constructor
  · intro node member
    change (ghost.kmalloc [messageNode msg] held).links node ≠ none
    rw [kmalloc_links]
    split
    · exact Option.some_ne_none held
    · rename_i other
      rcases member with mine | block
      · exact owned.mapped node mine
      · exact absurd block other
  · intro other member
    rcases member with mine | same
    · exact Or.inl (owned.whole other mine)
    · exact Or.inr (congrArg messageNode same)

theorem Owned.freed (owned : Owned own ghost) (msg : Address) :
    Owned (own \ blockCells msg) (ghost.kfree [messageNode msg]) := by
  constructor
  · intro node member
    have differs : node ≠ messageNode msg := member.2
    rw [kfree_links, if_neg differs]
    exact owned.mapped node member.1
  · intro other member
    refine ⟨owned.whole other member.1, ?_⟩
    intro same
    apply member.2
    have entries := congrArg messageEntry (show messageNode other = messageNode msg from same)
    rw [messageEntry_messageNode, messageEntry_messageNode] at entries
    exact entries

theorem keeps_kmalloc {msg : Address} {held : Links Address} (owned : Owned own ghost)
    (steady : ∀ node, Cell.links node ∈ commonCells mail places → ghost.links node ≠ none)
    (ended : Cell.links (messageNode msg) ∉ own ∪ commonCells mail places → ∀ message,
      Owned (own ∪ blockCells msg) ((ghost.kmalloc [messageNode msg] held).setMessage msg message) →
        ends () (own ∪ blockCells msg)
          ((ghost.kmalloc [messageNode msg] held).setMessage msg message)) :
    (sharing mail places).Keeps ends (kmallocSteps [messageNode msg] held) own ghost := by
  apply Sharing.keeps_await
  intro state agree isReady
  have unused : state.links (messageNode msg) = none := by
    simpa using isReady
  have fresh : Cell.links (messageNode msg) ∉ own ∪ commonCells mail places := by
    intro member
    have same : state.links (messageNode msg) = ghost.links (messageNode msg) :=
      agree_links agree member
    rw [unused] at same
    rcases member with mine | common
    · exact owned.mapped _ mine same.symm
    · exact steady _ common same.symm
  have kept := owned.given msg held (state.messages msg)
  refine ⟨_, _, rfl, ⟨?_, ?_⟩, ?_, kept.firm, ended fresh (state.messages msg) kept⟩
  · intro cell foreign outside
    cases cell with
    | links node =>
        have differs : node ≠ messageNode msg := fun same => outside (Or.inr same)
        exact congrArg Shown.links ((kmalloc_links state node).trans (if_neg differs))
    | _ => rfl
  · intro cell member
    rcases member with mine | block
    · exact Or.inl mine
    · apply Or.inr
      cases cell with
      | links node => exact (congrArg state.links block).trans unused
      | message other => exact (congrArg (fun msg => state.links (messageNode msg)) block).trans unused
      | _ => exact block.elim
  · intro cell member
    have known (outside : cell ∉ blockCells msg) : cell ∈ own ∪ (sharing mail places).common := by
      rcases member with (mine | block) | common
      · exact Or.inl mine
      · exact absurd block outside
      · exact Or.inr common
    cases cell with
    | links node =>
        apply congrArg Shown.links
        change (state.kmalloc [messageNode msg] held).links node =
          (ghost.kmalloc [messageNode msg] held).links node
        rw [kmalloc_links, kmalloc_links]
        split
        · rfl
        · rename_i differs
          exact agree_links agree (known differs)
    | message other =>
        apply congrArg Shown.message
        by_cases same : other = msg
        · subst same
          exact (Ram.setMessage_self other _).symm
        · rw [Ram.setMessage_other same]
          exact agree_message agree (known same)
    | _ => exact agree _ (known id)

/-- A block that is too short for a list head takes over none. -/
theorem keeps_kmalloc_short {held : Links Address} (owned : Owned own ghost)
    (ended : ends () own ghost) :
    (sharing mail places).Keeps ends (kmallocSteps [] held) own ghost := by
  apply Sharing.keeps_await
  intro state agree _
  have same : state.kmalloc [] held = state := by simp [Ram.kmalloc]
  refine ⟨state, ghost, by rw [same], ⟨fun _ _ _ => rfl, fun _ member => Or.inl member⟩, agree,
    owned.firm, ended⟩

theorem keeps_kfree {msg : Address} (owned : Owned own ghost)
    (mine : Cell.links (messageNode msg) ∈ own)
    (ended : Owned (own \ blockCells msg) (ghost.kfree [messageNode msg]) →
      ends () (own \ blockCells msg) (ghost.kfree [messageNode msg])) :
    (sharing mail places).Keeps ends (assign (Ram.kfree [messageNode msg])) own ghost := by
  have kept : Owned (own \ blockCells msg) (ghost.kfree [messageNode msg]) := owned.freed msg
  apply Sharing.keeps_store ?_ kept.firm (ended kept)
  intro state agree
  refine ⟨_, rfl, ⟨?_, fun _ member => Or.inl member.1⟩, ?_⟩
  · intro cell foreign _
    cases cell with
    | links node =>
        have differs : node ≠ messageNode msg := by
          intro same
          rw [same] at foreign
          exact foreign mine
        exact congrArg Shown.links ((kfree_links state node).trans (if_neg differs))
    | _ => rfl
  · intro cell member
    have known : cell ∈ own ∪ (sharing mail places).common := by
      rcases member with kept | common
      · exact Or.inl kept.1
      · exact Or.inr common
    cases cell with
    | links node =>
        apply congrArg Shown.links
        rw [kfree_links, kfree_links]
        split
        · rfl
        · exact agree_links agree known
    | _ => exact agree _ known

theorem relink_ok {edit : Heap Address → Option (Heap Address)} (ran : ram.relink edit = .ok after) :
    ∃ links, edit ram.links = some links ∧ after = { ram with links := links } := by
  rw [Ram.relink] at ran
  cases edited : edit ram.links with
  | none =>
      rw [edited] at ran
      cases ran
  | some links =>
      rw [edited] at ran
      cases ran
      exact ⟨links, rfl, rfl⟩

theorem change_first {heap whole : Heap Address} {node : Address}
    {first second both : Links Address → Links Address}
    (together : ∀ links, both links = second (first links))
    (changed : heap.change node both = some whole) :
    ∃ after, heap.change node first = some after ∧ after.change node second = some whole := by
  cases begun : heap.change node first with
  | none =>
      rw [change_none begun] at changed
      cases changed
  | some after =>
      refine ⟨after, rfl, ?_⟩
      rw [change_change begun, ← funext together]
      exact changed

theorem keeps_listAddTail {entry head : Address} (owned : Owned own ghost)
    (entryMine : Cell.links entry ∈ own) (headMine : Cell.links head ∈ own)
    (lastMine : ∀ links, ghost.links head = some links → Cell.links links.prev ∈ own)
    (added : ghost.relink (listAddTail entry head) = .ok after)
    (ended : Owned own after → ends () own after) :
    (sharing mail places).Keeps ends (listAddTailSteps entry head) own ghost := by
  obtain ⟨whole, linked, rfl⟩ := relink_ok added
  obtain ⟨links, held⟩ := Option.ne_none_iff_exists'.mp (owned.mapped head headMine)
  rw [listAddTail, held] at linked
  obtain ⟨front, fronted, rest⟩ := Option.bind_eq_some_iff.mp linked
  obtain ⟨middle, written, backed⟩ := Option.bind_eq_some_iff.mp rest
  obtain ⟨half, begun, finished⟩ :
      ∃ half, front.change entry (fun links => { links with next := head }) = some half ∧
        half.change entry (fun own => { own with prev := links.prev }) = some middle :=
    change_first (fun _ => rfl) written
  apply Sharing.keeps_bind
  apply keeps_follow owned (Or.inl headMine) held
  apply Sharing.keeps_bind
  apply keeps_change owned headMine fronted
  intro owned
  apply Sharing.keeps_bind
  apply keeps_change owned entryMine begun
  intro owned
  apply Sharing.keeps_bind
  apply keeps_change owned entryMine finished
  intro owned
  exact keeps_change owned (lastMine links held) backed ended

theorem keeps_listDel {poison : Links Address} {entry : Address} (owned : Owned own ghost)
    (entryMine : Cell.links entry ∈ own)
    (neighbours : ∀ links, ghost.links entry = some links →
      Cell.links links.next ∈ own ∧ Cell.links links.prev ∈ own)
    (deleted : ghost.relink (listDel poison entry) = .ok after)
    (ended : Owned own after → ends () own after) :
    (sharing mail places).Keeps ends (listDelSteps poison entry) own ghost := by
  obtain ⟨whole, linked, rfl⟩ := relink_ok deleted
  obtain ⟨links, held⟩ := Option.ne_none_iff_exists'.mp (owned.mapped entry entryMine)
  obtain ⟨nextMine, prevMine⟩ := neighbours links held
  rw [listDel, held] at linked
  dsimp only at linked
  cases fronted : ghost.links.change links.next _ with
  | none =>
      rw [fronted] at linked
      cases linked
  | some front =>
      rw [fronted] at linked
      dsimp only at linked
      cases backed : front.change links.prev _ with
      | none =>
          rw [backed] at linked
          cases linked
      | some back =>
          rw [backed] at linked
          obtain ⟨half, begun, finished⟩ :
              ∃ half, back.change entry (fun links => { links with next := poison.next }) = some half ∧
                half.change entry (fun links => { links with prev := poison.prev }) = some whole :=
            change_first (fun _ => rfl) linked
          apply Sharing.keeps_bind
          apply keeps_follow owned (Or.inl entryMine) held
          apply Sharing.keeps_bind
          apply keeps_follow owned (Or.inl entryMine) held
          apply Sharing.keeps_bind
          apply keeps_change owned nextMine fronted
          intro owned
          apply Sharing.keeps_bind
          apply keeps_change owned prevMine backed
          intro owned
          apply Sharing.keeps_bind
          apply keeps_change owned entryMine begun
          intro owned
          exact keeps_change owned entryMine finished ended

/-- The walk over `mail` meets the mailboxes in order, whatever the other calls do. -/
theorem keeps_find {ends : Option Address → Set Cell → Ram → Prop} {id : UInt64}
    {rest : List Place} {before temp : Address} {turns : Nat} (owned : Owned own ghost)
    (ids : ∀ place ∈ places, (ghost.boxes place.box).id = place.id)
    (mapped : ∀ place ∈ places, ghost.links (listNode place.box) ≠ none)
    (known : ∀ place ∈ rest, place ∈ places)
    (chained : (before :: (rest.map (fun place => listNode place.box) ++ [mail])).IsChain
      (Linked ghost.links))
    (outside : mail ∉ rest.map (fun place => listNode place.box))
    (arrived : nextOf ghost.links before = some temp) (enough : rest.length < turns)
    (ended : ends ((Keyed.first Place.id id rest).map Place.box) own ghost) :
    (sharing mail places).Keeps ends (findSteps mail id turns temp) own ghost := by
  induction rest generalizing before temp turns with
  | nil =>
      obtain ⟨turns, rfl⟩ := Nat.exists_eq_add_one_of_ne_zero (Nat.ne_of_gt enough)
      have atHead : temp = mail := by
        rw [List.map_nil, List.nil_append, List.isChain_pair] at chained
        exact Option.some.inj (arrived.symm.trans chained.1)
      rw [findSteps, if_pos atHead]
      exact ended
  | cons place rest ih =>
      obtain ⟨turns, rfl⟩ := Nat.exists_eq_add_one_of_ne_zero (Nat.ne_of_gt (Nat.zero_lt_of_lt enough))
      have among : place ∈ places := known place List.mem_cons_self
      rw [List.map_cons, List.cons_append, List.isChain_cons_cons] at chained
      have atPlace : temp = listNode place.box := Option.some.inj (arrived.symm.trans chained.1.1)
      subst atPlace
      rw [List.map_cons] at outside
      obtain ⟨notPlace, outside⟩ := not_or.mp (mt List.mem_cons.mpr outside)
      rw [findSteps, if_neg (Ne.symm notPlace), listEntry_listNode]
      apply Sharing.keeps_bind
      have listed (state : Ram)
          (agree : (sharing mail places).Agree (own ∪ (sharing mail places).common) ghost state) :
          (state.boxes place.box).id = (ghost.boxes place.box).id := by
        have common : Cell.listed place.box ∈ own ∪ (sharing mail places).common := Or.inr trivial
        exact (agree_listed agree common).2
      apply keeps_fetch owned listed
      rw [Keyed.first, List.find?_cons] at ended
      by_cases found : place.id = id
      · rw [decide_eq_true found] at ended
        rw [if_pos ((ids place among).trans found)]
        exact ended
      · rw [decide_eq_false found] at ended
        have other : ¬ (ghost.boxes place.box).id = id := by
          rw [ids place among]
          exact found
        rw [if_neg other]
        obtain ⟨links, held⟩ := Option.ne_none_iff_exists'.mp (mapped place among)
        have onSpine : Cell.links (listNode place.box) ∈ commonCells mail places :=
          Or.inl (List.mem_cons_of_mem mail (List.mem_map_of_mem among))
        apply Sharing.keeps_bind
        apply keeps_follow owned (Or.inr onSpine) held
        apply ih (fun other member => known other (List.mem_cons_of_mem place member)) chained.2 outside
        · exact congrArg (Option.map Links.next) held
        · exact Nat.lt_of_succ_lt_succ enough
        · exact ended

theorem keeps_search {Answer : Type} {ends : Answer → Set Cell → Ram → Prop} {id : UInt64}
    {missing : Answer} {act : Address → Steps Answer} (owned : Owned own ghost)
    (ring : Ring ghost.links (spine mail places : List Address))
    (ids : ∀ place ∈ places, (ghost.boxes place.box).id = place.id)
    (ended : match Keyed.first Place.id id places with
      | none => ends missing own ghost
      | some place => (sharing mail places).Keeps ends (act place.box) own ghost) :
    (sharing mail places).Keeps ends (searchSteps mail id missing act) own ghost := by
  have distinct : (spine mail places).Nodup := ring.distinct
  have chained := ring.linked
  rw [spine, Cycle.chain_coe_cons] at chained
  obtain ⟨links, held⟩ := Option.ne_none_iff_exists'.mp (ring.mapped List.mem_cons_self)
  have onSpine : Cell.links mail ∈ commonCells mail places := Or.inl List.mem_cons_self
  have arrived : nextOf ghost.links mail = some links.next := congrArg (Option.map Links.next) held
  have short : places.length < 2 ^ 64 := by
    have entries := Ring.short ring
    rwa [List.length_map] at entries
  apply Sharing.keeps_bind
  apply keeps_follow owned (Or.inr onSpine) held
  apply Sharing.keeps_bind
  have mapped (place : Place) (among : place ∈ places) : ghost.links (listNode place.box) ≠ none :=
    ring.mapped (List.mem_cons_of_mem mail (List.mem_map_of_mem among))
  apply keeps_find owned ids mapped (fun _ member => member) chained (List.nodup_cons.mp distinct).1
    arrived short
  cases looked : Keyed.first Place.id id places with
  | none =>
      rw [looked] at ended
      exact ended
  | some place =>
      rw [looked] at ended
      exact ended

end Accesses

end Cells

end CS421.Mail.Pointers
