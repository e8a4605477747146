/-
What mbx421_shutdown does to the pointers of the mailbox list.

The loop is `list_for_each`, which reads the next pointer of an entry after the
body has removed it, where destroy has `list_for_each_safe`. After the loop the
head `mail` is removed as if it were an entry.
-/

import CS421.Mail.Service
import CS421.Rings

set_option autoImplicit false

namespace CS421.Mail

open Rings

abbrev Address := UInt64

/-- `&box->list_node`, after an `aclC`, an `id` and a `count`. -/
def listNode (box : Address) : Address := box + 24

/-- `&box->messages` -/
def messagesHead (box : Address) : Address := box + 40

/-- `&box->acl` -/
def aclHead (box : Address) : Address := box + 56

/-- `list_entry(temp, mailbox, list_node)` -/
def listEntry (temp : Address) : Address := temp - 24

theorem listEntry_listNode (box : Address) : listEntry (listNode box) = box :=
  UInt64.add_sub_cancel box 24

/-- The heap, and what the loop has done so far. -/
structure Walk where
  heap : Heap Address
  visited : List Address
  removed : List Address
  /-- The removed entries whose next pointer the loop has followed. -/
  stale : List Address

inductive Crash where
  | fault
  | running
  deriving DecidableEq

section Shutdown

-- What `list_del` leaves in an entry.
variable (poison : Links Address)

/-- Lines 162 to 166. -/
def unlinkBox (box : Address) (walk : Walk) : Option Walk :=
  match listDel poison (messagesHead box) walk.heap with
  | none => none
  | some heap =>
      match listDel poison (aclHead box) heap with
      | none => none
      | some heap =>
          match listDel poison (listNode box) heap with
          | none => none
          | some heap =>
              some
                { walk with
                  heap := heap
                  visited := walk.visited ++ [box]
                  removed := walk.removed ++ [messagesHead box, aclHead box, listNode box] }

def visit (temp : Address) (walk : Walk) : Option Walk :=
  let box := listEntry temp
  if box != 0 then unlinkBox poison box walk else some walk

/-- `temp = temp->next` -/
def follow (temp : Address) (walk : Walk) : Option (Address × Walk) :=
  match walk.heap temp with
  | none => none
  | some links =>
      let stale := if temp ∈ walk.removed then walk.stale ++ [temp] else walk.stale
      some (links.next, { walk with stale := stale })

def shutdownLoop (mail : Address) : Nat → Address → Walk → Except Crash Walk
  | 0, _, _ => .error .running
  | fuel + 1, temp, walk =>
      if temp = mail then .ok walk
      else
        match visit poison temp walk with
        | none => .error .fault
        | some walk =>
            match follow temp walk with
            | none => .error .fault
            | some (temp, walk) => shutdownLoop mail fuel temp walk

/-- Lines 159 to 169 for a caller that is root. -/
def shutdownWalk (mail : Address) (fuel : Nat) (heap : Heap Address) : Except Crash Walk :=
  match heap mail with
  | none => .error .fault
  | some links =>
      match shutdownLoop poison mail fuel links.next
          { heap := heap, visited := [], removed := [], stale := [] } with
      | .error crash => .error crash
      | .ok walk =>
          match listDel poison mail walk.heap with
          | none => .error .fault
          | some heap => .ok { walk with heap := heap }

end Shutdown

/-! ### Well-formed lists of mailboxes -/

structure Layout (poison : Links Address) where
  heap : Heap Address
  mail : Address
  boxes : List Address
  messages : Address → List Address
  acl : Address → List Address
  mailRing : Ring heap (mail :: boxes.map listNode : List Address)
  boxRings : ∀ box ∈ boxes, Ring heap (messagesHead box :: messages box : List Address) ∧
    Ring heap (aclHead box :: acl box : List Address)
  separate : ((mail :: boxes.map listNode) :: boxes.flatMap (fun box =>
    [messagesHead box :: messages box, aclHead box :: acl box])).Pairwise List.Disjoint
  nonnull : ∀ box ∈ boxes, box ≠ 0
  /-- Neither the poison pointer nor the mailbox it would point into is mapped. -/
  unmapped : heap poison.next = none ∧ heap (messagesHead (listEntry poison.next)) = none

namespace Layout

variable {poison : Links Address} (layout : Layout poison)

def shutdown (fuel : Nat) : Except Crash Walk :=
  shutdownWalk poison layout.mail fuel layout.heap

/-- The loop ends, after one visit to each mailbox and without the next pointer
of a removed entry, and leaves `mail` an empty list. -/
def TornDown : Prop :=
  ∃ fuel walk, layout.shutdown fuel = .ok walk ∧ walk.visited.Perm layout.boxes ∧ walk.stale = [] ∧
    Ring walk.heap ([layout.mail] : List Address)

theorem mail_mapped : layout.heap layout.mail ≠ none := layout.mailRing.mapped List.mem_cons_self

theorem poison_ne_mail : poison.next ≠ layout.mail := by
  intro same
  exact layout.mail_mapped (same ▸ layout.unmapped.1)

section Visit

variable {first : Address} {rest : List Address}

theorem first_disjoint (split : layout.boxes = first :: rest) :
    List.Disjoint (layout.mail :: layout.boxes.map listNode)
        (messagesHead first :: layout.messages first) ∧
      List.Disjoint (layout.mail :: layout.boxes.map listNode) (aclHead first :: layout.acl first) ∧
      List.Disjoint (messagesHead first :: layout.messages first)
        (aclHead first :: layout.acl first) := by
  have separate := layout.separate
  rw [split, List.flatMap_cons] at separate
  obtain ⟨mail, others⟩ := List.pairwise_cons.mp separate
  obtain ⟨messages, _⟩ := List.pairwise_cons.mp others
  rw [split]
  refine ⟨mail _ List.mem_cons_self, mail _ ?_, messages _ List.mem_cons_self⟩
  exact List.mem_cons_of_mem _ List.mem_cons_self

theorem first_visit (split : layout.boxes = first :: rest) :
    ∃ heap, visit poison (listNode first)
          { heap := layout.heap, visited := [], removed := [], stale := [] } =
        some
          { heap := heap
            visited := [first]
            removed := [messagesHead first, aclHead first, listNode first]
            stale := [] } ∧
      heap (listNode first) = some poison ∧
      Ring heap (layout.mail :: rest.map listNode : List Address) ∧
      ∀ address, layout.heap address = none → heap address = none := by
  have present : first ∈ layout.boxes := by rw [split]; exact List.mem_cons_self
  obtain ⟨messagesRing, aclRing⟩ := layout.boxRings first present
  obtain ⟨mailMessages, mailAcl, messagesAcl⟩ := layout.first_disjoint split
  obtain ⟨heap1, ran1, _, _, frame1⟩ := messagesRing.remove poison
  have aclRing1 : Ring heap1 (aclHead first :: layout.acl first : List Address) :=
    aclRing.congr (fun entry member => frame1 entry (fun other => messagesAcl other member))
  obtain ⟨heap2, ran2, _, _, frame2⟩ := aclRing1.remove poison
  have mailRing2 : Ring heap2 (layout.mail :: layout.boxes.map listNode : List Address) := by
    refine layout.mailRing.congr ?_
    intro entry member
    rw [frame2 entry (mailAcl member), frame1 entry (mailMessages member)]
  rw [split, List.map_cons, ring_rotate] at mailRing2
  obtain ⟨heap3, ran3, mailRing3, own3, frame3⟩ := Ring.remove poison mailRing2
  refine ⟨heap3, ?_, own3, ring_rotate.mpr mailRing3, ?_⟩
  · have nonnull : (first != 0) = true := bne_iff_ne.mpr (layout.nonnull first present)
    simp only [visit, listEntry_listNode, nonnull, if_true, unlinkBox, ran1, ran2, ran3,
      List.nil_append]
  · intro address absent
    have absent1 : heap1 address = none := by
      rw [frame1 address (fun member => messagesRing.mapped member absent), absent]
    have absent2 : heap2 address = none := by
      rw [frame2 address (fun member => aclRing1.mapped member absent1), absent1]
    rw [frame3 address (fun member => mailRing2.mapped member absent2), absent2]

/-- The step after the body follows the next pointer that the body has poisoned. -/
theorem first_turn (split : layout.boxes = first :: rest) :
    ∃ walk : Walk, walk.visited = [first] ∧ walk.stale = [listNode first] ∧
      Ring walk.heap (layout.mail :: rest.map listNode : List Address) ∧
      (∀ address, layout.heap address = none → walk.heap address = none) ∧
      ∀ fuel, layout.shutdown (fuel + 1) =
        match shutdownLoop poison layout.mail fuel poison.next walk with
        | .error crash => .error crash
        | .ok walk =>
            match listDel poison layout.mail walk.heap with
            | none => .error .fault
            | some heap => .ok { walk with heap := heap } := by
  obtain ⟨heap, visited, own, ring, unmapped⟩ := layout.first_visit split
  have mailRing := layout.mailRing
  rw [split, List.map_cons] at mailRing
  obtain ⟨links, held, next⟩ := Option.map_eq_some_iff.mp mailRing.forward.1
  have apart : listNode first ≠ layout.mail := by
    have distinct : (layout.mail :: listNode first :: rest.map listNode).Nodup := mailRing.distinct
    intro same
    rw [same] at distinct
    exact (List.nodup_cons.mp distinct).1 List.mem_cons_self
  let removed := [messagesHead first, aclHead first, listNode first]
  refine ⟨{ heap := heap, visited := [first], removed := removed, stale := [listNode first] },
    rfl, rfl, ring, unmapped, ?_⟩
  intro fuel
  have followed : follow (listNode first)
      { heap := heap, visited := [first], removed := removed, stale := [] } =
        some (poison.next,
          { heap := heap, visited := [first], removed := removed, stale := [listNode first] }) := by
    have among : listNode first ∈ removed :=
      List.mem_cons_of_mem _ (List.mem_cons_of_mem _ List.mem_cons_self)
    simp only [follow, own, among, if_true, List.nil_append]
  rw [shutdown, shutdownWalk, held]
  dsimp only
  rw [next, shutdownLoop, if_neg apart, visited]
  dsimp only
  rw [followed]

end Visit

theorem poisoned_turn {walk : Walk}
    (unmapped : ∀ address, layout.heap address = none → walk.heap address = none) (fuel : Nat) :
    shutdownLoop poison layout.mail (fuel + 1) poison.next walk = .error .fault := by
  have pointer : walk.heap poison.next = none := unmapped _ layout.unmapped.1
  have box : walk.heap (messagesHead (listEntry poison.next)) = none := unmapped _ layout.unmapped.2
  rw [shutdownLoop, if_neg layout.poison_ne_mail]
  by_cases null : listEntry poison.next = 0
  · have skipped : visit poison poison.next walk = some walk := by
      rw [visit, null]
      rfl
    rw [skipped]
    dsimp only
    rw [follow, pointer]
  · have crashed : visit poison poison.next walk = none := by
      rw [visit, if_pos (bne_iff_ne.mpr null), unlinkBox, listDel, box]
    rw [crashed]

theorem shutdown_faults (nonempty : layout.boxes ≠ []) (fuel : Nat) :
    layout.shutdown (fuel + 2) = .error .fault := by
  obtain ⟨first, rest, split⟩ := List.exists_cons_of_ne_nil nonempty
  obtain ⟨walk, _, _, _, unmapped, turned⟩ := layout.first_turn split
  rw [turned (fuel + 1), layout.poisoned_turn unmapped fuel]

theorem shutdown_zero (walk : Walk) : layout.shutdown 0 ≠ .ok walk := by
  intro ran
  rw [shutdown, shutdownWalk] at ran
  cases held : layout.heap layout.mail with
  | none => exact layout.mail_mapped held
  | some links =>
      rw [held] at ran
      cases ran

theorem shutdown_never_returns (nonempty : layout.boxes ≠ []) (fuel : Nat) (walk : Walk) :
    layout.shutdown fuel ≠ .ok walk := by
  intro ran
  cases fuel with
  | zero => exact layout.shutdown_zero walk ran
  | succ fuel =>
      obtain ⟨first, rest, split⟩ := List.exists_cons_of_ne_nil nonempty
      cases fuel with
      | zero =>
          obtain ⟨_, _, _, _, _, turned⟩ := layout.first_turn split
          rw [turned 0] at ran
          cases ran
      | succ fuel =>
          rw [layout.shutdown_faults nonempty fuel] at ran
          cases ran

theorem shutdown_empty (empty : layout.boxes = []) :
    ∃ walk : Walk, walk.heap layout.mail = some poison ∧
      (∀ address, layout.heap address = none → walk.heap address = none) ∧
      ∀ fuel, layout.shutdown (fuel + 1) = .ok walk := by
  have mailRing := layout.mailRing
  rw [empty, List.map_nil] at mailRing
  have held := ring_single.mp mailRing
  obtain ⟨heap, ran, _, own, frame⟩ := Ring.remove poison mailRing
  refine ⟨{ heap := heap, visited := [], removed := [], stale := [] }, own, ?_, ?_⟩
  · intro address absent
    exact (frame address (fun member => mailRing.mapped member absent)).trans absent
  · intro fuel
    rw [shutdown, shutdownWalk, held]
    dsimp only
    rw [shutdownLoop, if_pos rfl]
    dsimp only
    rw [ran]

/-! ### The service above -/

def Shows (service : Service) : Prop :=
  service.linked = true ∧
    List.Forall₂ (fun box mailbox => (layout.messages box).length = mailbox.messages.length ∧
      (layout.acl box).length = mailbox.acl.length) layout.boxes service.store.mail

/-- The shutdown of the service is the shutdown of the list it lies in, and an
unlinked `mail` is one whose next walk faults. -/
theorem shutdown_shown {service : Service} (shows : layout.Shows service) :
    (∀ answer next, mbx421Shutdown 0 service = .ok (answer, next) →
        next.linked = false ∧ ∃ walk : Walk, (∀ fuel, layout.shutdown (fuel + 1) = .ok walk) ∧
          ∀ fuel, shutdownWalk poison layout.mail (fuel + 1) walk.heap = .error .fault) ∧
      ∀ trap, mbx421Shutdown 0 service = .error trap →
        ∀ fuel, layout.shutdown (fuel + 2) = .error .fault := by
  obtain ⟨linked, contents⟩ := shows
  cases listed : service.store.mail with
  | nil =>
      rw [listed, List.forall₂_nil_right_iff] at contents
      have ran : mbx421Shutdown 0 service =
          .ok (0, { store := { mailboxC := 0, mail := [] }, linked := false }) := by
        simp [mbx421Shutdown, linked, listed]
      rw [ran]
      constructor
      · intro answer next answered
        cases answered
        obtain ⟨walk, own, unmapped, returned⟩ := layout.shutdown_empty contents
        refine ⟨rfl, walk, returned, ?_⟩
        intro fuel
        rw [shutdownWalk, own]
        dsimp only
        let again : Walk := { heap := walk.heap, visited := [], removed := [], stale := [] }
        have still (address : Address) (absent : layout.heap address = none) :
            again.heap address = none := unmapped address absent
        rw [layout.poisoned_turn still fuel]
      · intro trap refused
        cases refused
  | cons mailbox others =>
      have nonempty : layout.boxes ≠ [] := by
        intro empty
        rw [empty, listed] at contents
        cases contents
      have ran : mbx421Shutdown 0 service = .error .poison := by
        simp [mbx421Shutdown, linked, listed]
      rw [ran]
      constructor
      · intro answer next returned
        cases returned
      · intro trap _ fuel
        exact layout.shutdown_faults nonempty fuel

/-- No shutdown tears a list down: with mailboxes the loop runs into the poison
of the first one, and without any the head itself is poisoned. -/
theorem never_torn_down : ¬ layout.TornDown := by
  intro torn
  obtain ⟨fuel, walk, ran, _, _, ring⟩ := torn
  by_cases empty : layout.boxes = []
  · obtain ⟨final, own, _, returned⟩ := layout.shutdown_empty empty
    cases fuel with
    | zero => exact layout.shutdown_zero walk ran
    | succ fuel =>
        rw [returned fuel] at ran
        cases ran
        rw [ring_single, own, Option.some.injEq] at ring
        exact layout.poison_ne_mail (congrArg Links.next ring)
  · exact layout.shutdown_never_returns empty fuel walk ran

def oneBox : Layout { next := 0xdead000000000100, prev := 0xdead000000000200 } :=
  { heap := fun address =>
      if address = 4096 then some { next := 8216, prev := 8216 }
      else if address = 8216 then some { next := 4096, prev := 4096 }
      else if address = 8232 then some { next := 8232, prev := 8232 }
      else if address = 8248 then some { next := 8248, prev := 8248 }
      else none
    mail := 4096
    boxes := [8192]
    messages := fun _ => []
    acl := fun _ => []
    mailRing := ⟨by decide, (Cycle.chain_coe_cons _ _ _).mpr (by decide)⟩
    boxRings := by
      intro box member
      cases List.mem_singleton.mp member
      exact ⟨ring_single.mpr rfl, ring_single.mpr rfl⟩
    separate := by simp [listNode, messagesHead, aclHead]
    nonnull := by
      intro box member
      cases List.mem_singleton.mp member
      decide
    unmapped := by decide }

theorem oneBox_not_torn_down : ¬ oneBox.TornDown := by
  intro torn
  obtain ⟨fuel, walk, ran, _⟩ := torn
  exact oneBox.shutdown_never_returns (List.cons_ne_nil _ _) fuel walk ran

end Layout

end CS421.Mail
