/-
Building a skip list with insertKey.

At the end of a level the insert goes down whenever the cursor is not null,
where it means to ask whether there is a level below. In the empty list every
level is at its end, so the first insert goes down past level 0.
-/

import CS421.SkipList.Prototype

set_option autoImplicit false

namespace CS421.SkipList

/-- The nodes met on a level after a node, up to NULL. -/
inductive Chain (heap : Heap) (level : Int) : Nat → List Nat → Prop where
  | last {node : Nat} (ends : heap.next node level = .ok none) : Chain heap level node []
  | link {node ahead : Nat} {rest : List Nat} (next : heap.next node level = .ok (some ahead))
      (chain : Chain heap level ahead rest) : Chain heap level node (ahead :: rest)

/-- The levels of a skip list with these keys and uids, and the nodes on level 0. -/
structure Represents (list : Slist) (heap : Heap) (entries : List (Int × Int))
    (levels : Nat → List Nat) (held : List Node) : Prop where
  chains : ∀ level : Nat, level < list.maxHeight.toNat →
    Chain heap level list.start (levels level)
  nodes : (levels 0).map (fun node => heap.nodes[node]?) = held.map some
  ascending : held.Pairwise (fun node ahead => node.key < ahead.key)
  entries : (held.map (fun node => (node.key, node.uid))).Perm entries
  sublists : ∀ level, level + 1 < list.maxHeight.toNat →
    (levels (level + 1)).Sublist (levels level)
  heights : ∀ level : Nat, level < list.maxHeight.toNat → ∀ node ∈ levels level,
    ∃ own, heap.nodes[node]? = some own ∧ level < own.height

structure Searches (list : Slist) (heap : Heap) (entries : List (Int × Int)) : Prop where
  present : ∀ entry ∈ entries, ∃ fuel node own,
    skipSearch fuel list entry.1 heap = .ok (some node) ∧ heap.nodes[node]? = some own ∧
      own.key = entry.1 ∧ own.uid = entry.2
  absent : ∀ key, 0 ≤ key → (∀ entry ∈ entries, entry.1 ≠ key) →
    ∃ fuel, skipSearch fuel list key heap = .ok none

def insertAll (fuel : Nat) (list : Slist) : List (Int × Int) → Heap → Except Stop Heap
  | [], heap => .ok heap
  | (key, uid) :: rest, heap =>
      match insertKey fuel list key uid heap with
      | .error stop => .error stop
      | .ok heap => insertAll fuel list rest heap

/-- Inserting the entries one by one into a new list, with the generator seeded
beforehand, builds a skip list of them. -/
def Built (maxHeight chance : Int) (seed : UInt32) (entries : List (Int × Int)) : Prop :=
  let created := createSkipList maxHeight chance (seedRandom seed bootHeap)
  ∃ fuel final levels held, insertAll fuel created.1 entries created.2 = .ok final ∧
    Represents created.1 final entries levels held ∧ Searches created.1 final entries

section Empty

variable {maxHeight chance : Int} {seed : UInt32}

def emptyHeap (maxHeight : Int) (seed : UInt32) : Heap :=
  (createNode 1 (-1) maxHeight 0 (seedRandom seed bootHeap)).2

def emptyList (maxHeight chance : Int) : Slist :=
  { maxHeight := maxHeight, chance := chance, start := 0 }

theorem createSkipList_eq (maxHeight chance : Int) (seed : UInt32) :
    createSkipList maxHeight chance (seedRandom seed bootHeap) =
      (emptyList maxHeight chance, emptyHeap maxHeight seed) := rfl

theorem header_held :
    (emptyHeap maxHeight seed).nodes[0]? = some
      { key := -1
        height := maxHeight
        uid := 0
        start := 1
        next := List.replicate maxHeight.toNat (some none) ++
          List.replicate (3 * maxHeight.toNat) none } := rfl

theorem header_next {level : Nat} (within : level < maxHeight.toNat) :
    (emptyHeap maxHeight seed).next 0 level = .ok none := by
  have nonneg : ¬ (level : Int) < 0 := Int.not_lt.mpr (Int.natCast_nonneg level)
  have slot : (List.replicate maxHeight.toNat (some none) ++
      List.replicate (3 * maxHeight.toNat) none : List Slot)[level]? = some (some none) := by
    rw [List.getElem?_append_left (by simpa using within), List.getElem?_replicate_of_lt within]
  simp only [Heap.next, header_held, nonneg, if_false, Int.toNat_natCast, slot]

theorem header_below : (emptyHeap maxHeight seed).next 0 (-1) = .error .outside := rfl

/-- The insert goes down one level in each turn, and never stops at level 0. -/
theorem insert_descends (key uid : Int) (fuel levels : Nat) (last : List Nat)
    (length : last.length = maxHeight.toNat) (within : levels ≤ maxHeight.toNat) :
    insertLoop (emptyList maxHeight chance) key uid fuel (some 0) (levels - 1) last
        (emptyHeap maxHeight seed) =
      .error (if fuel ≤ levels then .running else .outside) := by
  induction fuel generalizing levels last with
  | zero => rw [insertLoop, if_pos (Nat.zero_le levels)]
  | succ fuel ih =>
      cases levels with
      | zero =>
          have below : ((0 : Nat) : Int) - 1 = -1 := rfl
          rw [insertLoop, below, header_below]
          rfl
      | succ levels =>
          have curr : ((levels + 1 : Nat) : Int) - 1 = levels := by omega
          have stored : setLast last levels 0 = .ok (last.set levels 0) := by
            rw [setLast, if_pos ⟨Int.natCast_nonneg levels, by rw [Int.toNat_natCast]; omega⟩,
              Int.toNat_natCast]
          have turned := ih levels (last.set levels 0) (by rw [List.length_set]; exact length)
            (Nat.le_of_succ_le within)
          rw [insertLoop, curr, header_next within]
          simp only [aboveZero, Option.isSome_some, if_true, stored, turned,
            Nat.add_le_add_iff_right]

theorem first_insert (key uid : Int) (positive : 0 ≤ maxHeight) (fuel : Nat) :
    insertKey fuel (emptyList maxHeight chance) key uid (emptyHeap maxHeight seed) =
      .error (if fuel ≤ maxHeight.toNat then .running else .outside) := by
  have top : maxHeight - 1 = (maxHeight.toNat : Int) - 1 := by omega
  unfold insertKey
  rw [show (emptyList maxHeight chance).maxHeight = maxHeight from rfl, top]
  exact insert_descends key uid fuel maxHeight.toNat _ (List.length_replicate) (Nat.le_refl _)

theorem search_empty {key : Int} (nonneg : 0 ≤ key) (levels : 0 < maxHeight.toNat) :
    skipSearch 1 (emptyList maxHeight chance) key (emptyHeap maxHeight seed) = .ok none := by
  have ends : (emptyHeap maxHeight seed).next 0 0 = .ok none := header_next levels
  have notHere : ¬ (-1 : Int) = key := by omega
  have notAbove : ¬ (-1 : Int) > key := by omega
  simp only [skipSearch, emptyList, searchLoop, header_held, notHere, notAbove, if_false, ends]

end Empty

theorem empty_represents (maxHeight chance : Int) (seed : UInt32) :
    Represents (emptyList maxHeight chance) (emptyHeap maxHeight seed) [] (fun _ => []) [] where
  chains := fun _ within => .last (header_next within)
  nodes := rfl
  ascending := .nil
  entries := .nil
  sublists := fun _ _ => .slnil
  heights := by
    intro level _ node member
    cases member

theorem not_built_cons {maxHeight chance : Int} {seed : UInt32} {entry : Int × Int}
    {rest : List (Int × Int)} (positive : 0 ≤ maxHeight) :
    ¬ Built maxHeight chance seed (entry :: rest) := by
  intro built
  obtain ⟨fuel, final, levels, held, inserted, _⟩ := built
  rw [createSkipList_eq, insertAll] at inserted
  dsimp only at inserted
  rw [first_insert entry.1 entry.2 positive fuel] at inserted
  cases inserted

/-- The new list without any insert is a skip list. With one insert or more none
is ever built. -/
theorem built_iff_nothing_inserted (maxHeight chance : Int) (seed : UInt32)
    (entries : List (Int × Int)) (levels : 2 ≤ maxHeight) :
    Built maxHeight chance seed entries ↔ entries = [] := by
  have positive : 0 < maxHeight.toNat := by omega
  constructor
  · intro built
    cases entries with
    | nil => rfl
    | cons entry rest => exact absurd built (not_built_cons (by omega))
  · rintro rfl
    refine ⟨0, emptyHeap maxHeight seed, fun _ => [], [], rfl, empty_represents _ _ _, ?_, ?_⟩
    · intro entry member
      cases member
    · intro key nonneg _
      exact ⟨1, search_empty nonneg positive⟩

theorem built_iff_nothing_inserted_one :
    Built 2 4 9001 [(5, 7)] ↔ [((5, 7) : Int × Int)] = [] :=
  built_iff_nothing_inserted 2 4 9001 [(5, 7)] (by decide)

/-- Two levels, chance 2 and the first seed: the insert of key 5 reads level -1. -/
theorem first_key_not_inserted : ¬ Built 2 2 9001 [(5, 7)] := not_built_cons (by decide)

end CS421.SkipList
