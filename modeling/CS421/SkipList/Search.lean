/-
The search against a plain walk over level 0.

The search never leaves level 0: it moves along `next[0]`, and its level is only
counted down, while it stands before a larger key. It gives up at level 1 though
the bottom is level 0.
-/

import CS421.Loops
import CS421.SkipList.Build
import Mathlib.Tactic.ByContra

set_option autoImplicit false

namespace CS421.SkipList

open Loops

abbrev Link := Nat × Node

/-- The nodes after the first one on a level, with keys that go up. -/
structure Ordered (heap : Heap) (level : Int) (first : Link) (rest : List Link) : Prop where
  chain : Chain heap level first.1 (rest.map Prod.fst)
  held : ∀ link ∈ first :: rest, heap.nodes[link.1]? = some link.2
  ascending : (first :: rest).Pairwise (fun link ahead => link.2.key < ahead.2.key)

section Ordered

variable {heap : Heap} {level : Int} {first ahead : Link} {rest : List Link}

theorem Ordered.read (ordered : Ordered heap level first rest) :
    heap.nodes[first.1]? = some first.2 :=
  ordered.held first List.mem_cons_self

theorem Ordered.ends (ordered : Ordered heap level first []) :
    heap.next first.1 level = .ok none := by
  cases ordered.chain with
  | last ends => exact ends

theorem Ordered.next (ordered : Ordered heap level first (ahead :: rest)) :
    heap.next first.1 level = .ok (some ahead.1) := by
  cases ordered.chain with
  | link next chain => exact next

theorem Ordered.tail (ordered : Ordered heap level first (ahead :: rest)) :
    Ordered heap level ahead rest := by
  refine ⟨?_, ?_, (List.pairwise_cons.mp ordered.ascending).2⟩
  · cases ordered.chain with
    | link next chain => exact chain
  · intro link member
    exact ordered.held link (List.mem_cons_of_mem first member)

theorem Ordered.later (ordered : Ordered heap level first rest) {link : Link}
    (member : link ∈ rest) : first.2.key < link.2.key :=
  (List.pairwise_cons.mp ordered.ascending).1 link member

end Ordered

abbrev Cursor := Pointer × Int

def searchTurn (heap : Heap) (key : Int) : Body Cursor Pointer Stop
  | (none, _) => .done none
  | (some temp, height) =>
      match heap.nodes[temp]? with
      | none => .stop .outside
      | some node =>
          if node.key = key then .done (some temp)
          else if node.key > key then
            if height = 1 then .done none else .again (some temp, height - 1)
          else
            match heap.next temp 0 with
            | .error stop => .stop stop
            | .ok none => .done none
            | .ok (some next) => .again (some next, height)

/-- The loop of `skipSearch`, turn by turn. -/
theorem searchLoop_eq (heap : Heap) (key : Int) (fuel : Nat) (temp : Pointer) (height : Int) :
    searchLoop heap key fuel temp height =
      (run (searchTurn heap key) fuel (temp, height)).getD (.error .running) := by
  induction fuel generalizing temp height with
  | zero => rfl
  | succ fuel ih =>
      cases temp with
      | none => rfl
      | some temp =>
          rw [searchLoop, run, searchTurn]
          cases heap.nodes[temp]? with
          | none => rfl
          | some node =>
              dsimp only
              by_cases here : node.key = key
              · simp only [if_pos here, Option.getD_some]
              by_cases above : node.key > key
              · by_cases bottom : height = 1
                · simp only [if_neg here, if_pos above, if_pos bottom, Option.getD_some]
                · simp only [if_neg here, if_pos above, if_neg bottom]
                  exact ih (some temp) (height - 1)
              · simp only [if_neg here, if_neg above]
                cases heap.next temp 0 with
                | error stop => rfl
                | ok ahead =>
                    cases ahead with
                    | none => rfl
                    | some next => exact ih (some next) height

section Turns

variable {heap : Heap} {key height : Int} {first ahead : Link} {rest : List Link}

theorem searchTurn_here (ordered : Ordered heap 0 first rest) (here : first.2.key = key) :
    searchTurn heap key (some first.1, height) = .done (some first.1) := by
  rw [searchTurn, ordered.read]
  simp only [if_pos here]

theorem searchTurn_above (ordered : Ordered heap 0 first rest) (above : first.2.key > key) :
    searchTurn heap key (some first.1, height) =
      if height = 1 then .done none else .again (some first.1, height - 1) := by
  have apart : ¬ first.2.key = key := Int.ne_of_gt above
  rw [searchTurn, ordered.read]
  simp only [if_neg apart, if_pos above]

theorem searchTurn_last (ordered : Ordered heap 0 first []) (below : first.2.key < key) :
    searchTurn heap key (some first.1, height) = .done none := by
  have apart : ¬ first.2.key = key := Int.ne_of_lt below
  have passed : ¬ first.2.key > key := Int.not_lt.mpr (Int.le_of_lt below)
  rw [searchTurn, ordered.read]
  simp only [if_neg apart, if_neg passed, ordered.ends]

theorem searchTurn_below (ordered : Ordered heap 0 first (ahead :: rest))
    (below : first.2.key < key) :
    searchTurn heap key (some first.1, height) = .again (some ahead.1, height) := by
  have apart : ¬ first.2.key = key := Int.ne_of_lt below
  have passed : ¬ first.2.key > key := Int.not_lt.mpr (Int.le_of_lt below)
  rw [searchTurn, ordered.read]
  simp only [if_neg apart, if_neg passed, ordered.next]

end Turns

/-! ### The search finds what a linear search finds -/

structure Level0 (list : Slist) (heap : Heap) (header : Link) (rest : List Link) : Prop where
  start : header.1 = list.start
  sentinel : header.2.key = -1
  ordered : Ordered heap 0 header rest

def linearSearch (key : Int) (links : List Link) : Pointer :=
  (links.find? (fun link => decide (link.2.key = key))).map Prod.fst

section Linear

variable {heap : Heap} {key : Int} {first : Link} {rest : List Link}

theorem linearSearch_here (here : first.2.key = key) :
    linearSearch key (first :: rest) = some first.1 := by
  unfold linearSearch
  rw [List.find?_cons_of_pos (by simpa using here)]
  rfl

theorem linearSearch_apart (apart : first.2.key ≠ key) :
    linearSearch key (first :: rest) = linearSearch key rest := by
  unfold linearSearch
  rw [List.find?_cons_of_neg (by simpa using apart)]

theorem linearSearch_above (ordered : Ordered heap 0 first rest) (above : first.2.key > key) :
    linearSearch key (first :: rest) = none := by
  unfold linearSearch
  rw [List.find?_eq_none.mpr ?_]
  · rfl
  · intro link member
    have larger : key < link.2.key := by
      rcases List.mem_cons.mp member with rfl | later
      · exact above
      · exact Int.lt_trans above (ordered.later later)
    simpa using Int.ne_of_gt larger

end Linear

/-- The cursor is at a node of level 0, and what a linear search finds lies from
there on. -/
def Seeks (heap : Heap) (key : Int) (found : Pointer) (cursor : Cursor) : Prop :=
  ∃ first rest, cursor.1 = some first.1 ∧ Ordered heap 0 first rest ∧
    linearSearch key (first :: rest) = found

section Seeks

variable {heap : Heap} {key : Int} {found : Pointer} {cursor : Cursor}

theorem seeks_turn (seeks : Seeks heap key found cursor) :
    (searchTurn heap key cursor).Meets (Seeks heap key found) (fun result => result = found) := by
  rcases cursor with ⟨temp, height⟩
  obtain ⟨first, rest, rfl, ordered, same⟩ := seeks
  rcases Int.lt_trichotomy first.2.key key with below | here | above
  · rw [linearSearch_apart (Int.ne_of_lt below)] at same
    cases rest with
    | nil =>
        rw [searchTurn_last ordered below]
        exact same
    | cons ahead rest =>
        rw [searchTurn_below ordered below]
        exact ⟨ahead, rest, rfl, ordered.tail, same⟩
  · rw [searchTurn_here ordered here]
    exact (linearSearch_here here).symm.trans same
  · rw [searchTurn_above ordered above]
    split
    · exact (linearSearch_above ordered above).symm.trans same
    · exact ⟨first, rest, rfl, ordered, same⟩

end Seeks

/-- Whenever the search returns, it returns the node of level 0 that holds the
key, or NULL if there is none, whatever the levels are. -/
theorem skipSearch_eq_linearSearch (list : Slist) (heap : Heap) (header : Link) (rest : List Link)
    (level : Level0 list heap header rest) (key : Int) (real : key ≠ -1) (fuel : Nat)
    (result : Pointer) (ran : skipSearch fuel list key heap = .ok result) :
    result = linearSearch key rest := by
  unfold skipSearch at ran
  rw [searchLoop_eq] at ran
  have initial : Seeks heap key (linearSearch key rest) (some list.start, list.maxHeight - 1) := by
    refine ⟨header, rest, congrArg some level.start.symm, level.ordered, ?_⟩
    exact linearSearch_apart (fun same => real (same.symm.trans level.sentinel))
  cases looped : run (searchTurn heap key) fuel (some list.start, list.maxHeight - 1) with
  | none =>
      rw [looped] at ran
      cases ran
  | some outcome =>
      rw [looped] at ran
      have returned : outcome = .ok result := ran
      rw [returned] at looped
      exact post_of_run (Seeks heap key (linearSearch key rest)) (fun result => result = _)
        (fun _ => seeks_turn) initial looped

def headerLink (height : Nat) : Link :=
  (0, { key := -1, height := height, uid := 0, start := 1,
        next := some (some 1) :: List.replicate (height - 1) (some none) })

def fiveLink : Link := (1, { key := 5, height := 1, uid := 7, start := 0, next := [some none] })

def fiveHeap (height : Nat) : Heap :=
  { nextRandom := 9001, nodes := [(headerLink height).2, fiveLink.2] }

theorem fiveHeap_level0 (height : Nat) :
    Level0 (emptyList height 4) (fiveHeap height) (headerLink height) [fiveLink] where
  start := rfl
  sentinel := rfl
  ordered :=
    { chain := .link rfl (.last rfl)
      held := by
        intro link member
        rcases List.mem_cons.mp member with rfl | later
        · rfl
        · rw [List.mem_singleton.mp later]
          rfl
      ascending := by simp [headerLink, fiveLink] }

theorem skipSearch_eq_linearSearch_five : (some 1 : Pointer) = linearSearch 5 [fiveLink] :=
  skipSearch_eq_linearSearch (emptyList 2 4) (fiveHeap 2) _ _ (fiveHeap_level0 2) 5 (by decide) 2
    (some 1) rfl

/-! ### When the search ends -/

/-- The search returns, and its level stays within the levels of the list. -/
structure SearchEnds (list : Slist) (heap : Heap) (key : Int) : Prop where
  returns : ∃ fuel result, skipSearch fuel list key heap = .ok result
  within : ∀ temp height,
    Reaches (searchTurn heap key) (some list.start, list.maxHeight - 1) (temp, height) →
      0 ≤ height ∧ height < list.maxHeight

/-- With two levels the search can count down to level 1. With one it must not
meet a larger key. -/
def SearchSafe (list : Slist) (key : Int) (links : List Link) : Prop :=
  2 ≤ list.maxHeight ∨ (∃ link ∈ links, link.2.key = key) ∨ ∀ link ∈ links, link.2.key < key

structure Searching (list : Slist) (heap : Heap) (key : Int) (first : Link) (rest : List Link)
    (cursor : Cursor) : Prop where
  at_first : cursor.1 = some first.1
  ordered : Ordered heap 0 first rest
  safe : SearchSafe list key (first :: rest)
  low : 0 ≤ cursor.2
  high : cursor.2 < list.maxHeight
  bottom : 2 ≤ list.maxHeight → 1 ≤ cursor.2

section Ends

variable {list : Slist} {heap : Heap} {key : Int}

/-- The rank counts the nodes to pass and the levels to go down. -/
def Ranked (list : Slist) (heap : Heap) (key : Int) (rank : Nat) (cursor : Cursor) : Prop :=
  ∃ first rest, Searching list heap key first rest cursor ∧ rest.length + cursor.2.toNat = rank

theorem searching_turn (rank : Nat) (cursor : Cursor) (ranked : Ranked list heap key rank cursor) :
    (searchTurn heap key cursor).Meets
      (fun next => ∃ smaller, smaller < rank ∧ Ranked list heap key smaller next)
      (fun _ => True) := by
  obtain ⟨first, rest, searching, rfl⟩ := ranked
  rcases cursor with ⟨temp, height⟩
  obtain ⟨rfl, ordered, safe, low, high, bottom⟩ := searching
  rcases Int.lt_trichotomy first.2.key key with below | here | above
  · cases rest with
    | nil =>
        rw [searchTurn_last ordered below]
        trivial
    | cons ahead rest =>
        rw [searchTurn_below ordered below]
        refine ⟨_, ?_, ahead, rest, ⟨rfl, ordered.tail, ?_, low, high, bottom⟩, rfl⟩
        · simp only [List.length_cons]
          omega
        · rcases safe with tall | ⟨link, member, same⟩ | all
          · exact Or.inl tall
          · refine Or.inr (Or.inl ?_)
            rcases List.mem_cons.mp member with rfl | later
            · exact absurd same (Int.ne_of_lt below)
            · exact ⟨link, later, same⟩
          · exact Or.inr (Or.inr (fun link member => all link (List.mem_cons_of_mem first member)))
  · rw [searchTurn_here ordered here]
    trivial
  · rw [searchTurn_above ordered above]
    have tall : 2 ≤ list.maxHeight := by
      rcases safe with tall | ⟨link, member, same⟩ | all
      · exact tall
      · rcases List.mem_cons.mp member with rfl | later
        · exact absurd same (Int.ne_of_gt above)
        · have larger := ordered.later later
          omega
      · have smaller := all first List.mem_cons_self
        omega
    have one := bottom tall
    split
    · trivial
    · rename_i higher
      dsimp only at one higher low high
      refine ⟨_, ?_, first, rest, ⟨rfl, ordered, safe, ?_, ?_, ?_⟩, rfl⟩
      · dsimp only
        omega
      · dsimp only
        omega
      · dsimp only
        omega
      · intro _
        dsimp only
        omega

theorem search_goes_below {first : Link} {rest : List Link} (ordered : Ordered heap 0 first rest)
    (absent : ∀ link ∈ first :: rest, link.2.key ≠ key)
    (larger : ∃ link ∈ first :: rest, key < link.2.key) :
    ∃ temp, Reaches (searchTurn heap key) (some first.1, 0) (temp, -1) := by
  induction rest generalizing first with
  | nil =>
      obtain ⟨link, member, above⟩ := larger
      rw [List.mem_singleton.mp member] at above
      refine ⟨some first.1, reaches_one ?_⟩
      rw [searchTurn_above ordered above]
      rfl
  | cons ahead rest ih =>
      rcases Int.lt_trichotomy first.2.key key with below | here | above
      · have later : ∃ link ∈ ahead :: rest, key < link.2.key := by
          obtain ⟨link, member, above⟩ := larger
          rcases List.mem_cons.mp member with rfl | within
          · exact absurd below (Int.not_lt.mpr (Int.le_of_lt above))
          · exact ⟨link, within, above⟩
        obtain ⟨temp, reaches⟩ := ih ordered.tail
          (fun link member => absent link (List.mem_cons_of_mem first member)) later
        exact ⟨temp, .turn (searchTurn_below ordered below) reaches⟩
      · exact absurd here (absent first List.mem_cons_self)
      · refine ⟨some first.1, reaches_one ?_⟩
        rw [searchTurn_above ordered above]
        rfl

theorem returns_of_ends {result : Pointer}
    (ends : Ends (searchTurn heap key) (some list.start, list.maxHeight - 1) result) :
    ∃ fuel result, skipSearch fuel list key heap = .ok result := by
  obtain ⟨fuel, ran⟩ := ends
  refine ⟨fuel, result, ?_⟩
  rw [skipSearch, searchLoop_eq, ran]
  rfl

end Ends

/-- From one level up, on any list with level 0 in order, the search of a key ends
with its level inside the list exactly when it is safe. -/
theorem searchEnds_iff_safe (list : Slist) (heap : Heap) (header : Link) (rest : List Link)
    (level : Level0 list heap header rest) (levels : 1 ≤ list.maxHeight) (key : Int) :
    SearchEnds list heap key ↔ SearchSafe list key (header :: rest) := by
  constructor
  · intro ends
    by_contra risky
    obtain ⟨flat, others⟩ := not_or.mp risky
    obtain ⟨absent, larger⟩ := not_or.mp others
    have top : list.maxHeight - 1 = 0 := by omega
    have apart : ∀ link ∈ header :: rest, link.2.key ≠ key :=
      fun link member same => absent ⟨link, member, same⟩
    have above : ∃ link ∈ header :: rest, key < link.2.key := by
      by_contra none
      refine larger (fun link member => ?_)
      have notAbove : ¬ key < link.2.key := fun beyond => none ⟨link, member, beyond⟩
      have differs := apart link member
      omega
    obtain ⟨temp, reaches⟩ := search_goes_below level.ordered apart above
    rw [level.start] at reaches
    have low := (ends.within temp (-1) (by rw [top]; exact reaches)).1
    exact absurd low (by decide)
  · intro safe
    have initial : Ranked list heap key (rest.length + (list.maxHeight - 1).toNat)
        (some list.start, list.maxHeight - 1) := by
      refine ⟨header, rest, ⟨congrArg some level.start.symm, level.ordered, safe, ?_, ?_, ?_⟩, rfl⟩
      · dsimp only
        omega
      · dsimp only
        omega
      · intro tall
        dsimp only
        omega
    obtain ⟨result, ends, _⟩ :=
      ends_of_rank (Ranked list heap key) (fun _ => True) searching_turn initial
    refine ⟨returns_of_ends ends, ?_⟩
    intro temp height reaches
    obtain ⟨rank, first, later, searching, _⟩ :=
      rank_reaches (Ranked list heap key) searching_turn initial reaches
    exact ⟨searching.low, searching.high⟩

theorem searchEnds_iff_safe_five :
    SearchEnds (emptyList 2 4) (fiveHeap 2) 3 ↔
      SearchSafe (emptyList 2 4) 3 [headerLink 2, fiveLink] :=
  searchEnds_iff_safe (emptyList 2 4) (fiveHeap 2) _ _ (fiveHeap_level0 2) (by decide) 3

/-- With one level the search for 3 stands before 5 at level 0, and goes down. -/
theorem search_leaves_levels :
    ¬ ∀ (list : Slist) (heap : Heap) (header : Link) (rest : List Link),
      Level0 list heap header rest → 1 ≤ list.maxHeight → ∀ key, SearchEnds list heap key := by
  intro ends
  have level := fiveHeap_level0 1
  obtain ⟨temp, reaches⟩ := search_goes_below level.ordered
    (by decide : ∀ link ∈ [headerLink 1, fiveLink], link.2.key ≠ 3) ⟨fiveLink, by decide, by decide⟩
  have low := (ends _ _ _ _ level (by decide) 3).within temp (-1) reaches
  exact absurd low.1 (by decide)

end CS421.SkipList
