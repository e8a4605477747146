/-
Inserting a key that is there already.

The loop of insertKey compares the key with the one ahead and has a branch for
smaller and one for larger. When the key ahead is the same, a turn changes
nothing, and the next turn is the same turn.
-/

import CS421.SkipList.Search

set_option autoImplicit false

namespace CS421.SkipList

/-- Every level links all the nodes, in the order of their keys. -/
structure FullyLinked (list : Slist) (heap : Heap) (header : Link) (rest : List Link) : Prop where
  start : header.1 = list.start
  ordered : ∀ level : Int, 0 ≤ level → level < list.maxHeight → Ordered heap level header rest

/-- Level 0 holds the nodes it held, with their keys and uids, and one more node
with the key at most. -/
structure Reinserted (list : Slist) (final : Heap) (rest after : List Link) (key : Int) :
    Prop where
  chain : Chain final 0 list.start (after.map Prod.fst)
  held : ∀ link ∈ after, final.nodes[link.1]? = some link.2
  kept : ∀ link ∈ rest, ∃ own, (link.1, own) ∈ after ∧ own.key = link.2.key ∧ own.uid = link.2.uid
  keys : (after.map (fun link => link.2.key)).Perm (rest.map (fun link => link.2.key)) ∨
    (after.map (fun link => link.2.key)).Perm (key :: rest.map (fun link => link.2.key))

def InsertsAgain (list : Slist) (heap : Heap) (rest : List Link) (key uid : Int) : Prop :=
  ∃ fuel final after, insertKey fuel list key uid heap = .ok final ∧
    Reinserted list final rest after key

section Turns

variable {list : Slist} {heap : Heap} {key uid curr : Int} {first ahead : Link} {rest : List Link}
  {last stored : List Nat} {fuel : Nat}

theorem insertLoop_right (ordered : Ordered heap curr first (ahead :: rest))
    (below : ahead.2.key < key) (set : setLast last curr ahead.1 = .ok stored) :
    insertLoop list key uid (fuel + 1) (some first.1) curr last heap =
      insertLoop list key uid fuel (some ahead.1) curr stored heap := by
  have passed : ¬ key < ahead.2.key := Int.not_lt.mpr (Int.le_of_lt below)
  rw [insertLoop, ordered.next]
  dsimp only
  rw [ordered.tail.read]
  dsimp only
  rw [if_neg passed, if_pos below, set]

theorem insertLoop_stays (ordered : Ordered heap curr first (ahead :: rest))
    (same : ahead.2.key = key) :
    insertLoop list key uid (fuel + 1) (some first.1) curr last heap =
      insertLoop list key uid fuel (some first.1) curr last heap := by
  have notBelow : ¬ key < ahead.2.key := by omega
  have notAbove : ¬ key > ahead.2.key := by omega
  rw [insertLoop, ordered.next]
  dsimp only
  rw [ordered.tail.read]
  dsimp only
  rw [if_neg notBelow, if_neg notAbove]

theorem insertLoop_spins (ordered : Ordered heap curr first (ahead :: rest))
    (same : ahead.2.key = key) (fuel : Nat) :
    insertLoop list key uid fuel (some first.1) curr last heap = .error .running := by
  induction fuel with
  | zero => rfl
  | succ fuel ih => rw [insertLoop_stays ordered same, ih]

theorem insertLoop_meets (ordered : Ordered heap curr first rest)
    (present : ∃ link ∈ rest, link.2.key = key) (low : 0 ≤ curr)
    (high : curr.toNat < last.length) (fuel : Nat) :
    insertLoop list key uid fuel (some first.1) curr last heap = .error .running := by
  induction rest generalizing first last fuel with
  | nil =>
      obtain ⟨link, member, _⟩ := present
      cases member
  | cons ahead rest ih =>
      obtain ⟨link, member, same⟩ := present
      rcases List.mem_cons.mp member with rfl | later
      · exact insertLoop_spins ordered same fuel
      · have below : ahead.2.key < key := same ▸ ordered.tail.later later
        have set : setLast last curr ahead.1 = .ok (last.set curr.toNat ahead.1) :=
          if_pos ⟨low, high⟩
        cases fuel with
        | zero => rfl
        | succ fuel =>
            rw [insertLoop_right ordered below set]
            exact ih ordered.tail ⟨link, later, same⟩ (by rw [List.length_set]; exact high) fuel

end Turns

/-- With a level to start on, the insert of a key that is there never ends. -/
theorem insertKey_spins {list : Slist} {heap : Heap} {header : Link} {rest : List Link}
    (linked : FullyLinked list heap header rest) (levels : 1 ≤ list.maxHeight) {key : Int}
    (present : ∃ link ∈ rest, link.2.key = key) (uid : Int) (fuel : Nat) :
    insertKey fuel list key uid heap = .error .running := by
  have low : 0 ≤ list.maxHeight - 1 := by omega
  have high : (list.maxHeight - 1).toNat < (List.replicate list.maxHeight.toNat list.start).length := by
    rw [List.length_replicate]
    omega
  have ordered := linked.ordered (list.maxHeight - 1) low (by omega)
  unfold insertKey
  rw [← linked.start] at high ⊢
  exact insertLoop_meets ordered present low high fuel

/-- No insert of a key that is there ends as it is to. -/
theorem never_inserts_again (list : Slist) (heap : Heap) (header : Link) (rest : List Link)
    (linked : FullyLinked list heap header rest) (key : Int)
    (present : ∃ link ∈ rest, link.2.key = key) (uid : Int) :
    ¬ InsertsAgain list heap rest key uid := by
  intro ⟨fuel, final, after, ran, _⟩
  by_cases levels : 1 ≤ list.maxHeight
  · rw [insertKey_spins linked levels present uid fuel] at ran
    cases ran
  · have below : list.maxHeight - 1 < 0 := by omega
    have faults : insertKey fuel list key uid heap =
        .error (if fuel = 0 then .running else .outside) := by
      unfold insertKey
      cases fuel with
      | zero => rfl
      | succ fuel =>
          have outside : heap.next list.start (list.maxHeight - 1) = .error .outside := by
            unfold Heap.next
            split
            · rfl
            · rw [if_pos below]
          rw [insertLoop, outside, if_neg (Nat.succ_ne_zero fuel)]
    rw [faults] at ran
    cases ran

theorem fiveHeap_fullyLinked : FullyLinked (emptyList 1 4) (fiveHeap 1) (headerLink 1) [fiveLink] where
  start := rfl
  ordered := by
    intro level low high
    have bottom : level = 0 := by
      have top : level < 1 := high
      omega
    rw [bottom]
    exact (fiveHeap_level0 1).ordered

theorem never_inserts_again_five : ¬ InsertsAgain (emptyList 1 4) (fiveHeap 1) [fiveLink] 5 7 :=
  never_inserts_again (emptyList 1 4) (fiveHeap 1) (headerLink 1) [fiveLink] fiveHeap_fullyLinked 5
    ⟨fiveLink, List.mem_cons_self, rfl⟩ 7

/-- In a list of one level that holds 5, the second insert of 5 turns forever. -/
theorem second_insert_spins :
    ¬ ∀ (list : Slist) (heap : Heap) (header : Link) (rest : List Link),
      FullyLinked list heap header rest → ∀ key, (∃ link ∈ rest, link.2.key = key) →
        ∀ uid, InsertsAgain list heap rest key uid := by
  intro inserts
  have present : ∃ link ∈ [fiveLink], link.2.key = 5 := ⟨fiveLink, List.mem_cons_self, rfl⟩
  obtain ⟨fuel, final, after, ran, _⟩ := inserts _ _ _ _ fiveHeap_fullyLinked 5 present 7
  rw [insertKey_spins fiveHeap_fullyLinked (by decide) present 7 fuel] at ran
  cases ran

end CS421.SkipList
