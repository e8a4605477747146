/-
The height of a new node against the coin flips.

upHeight draws once. Its loop raises the height until it runs out of levels, and
the draw only decides whether the loop takes one turn more than it needs.
-/

import Mathlib.Logic.Function.Iterate
import CS421.SkipList.Build

set_option autoImplicit false

namespace CS421.SkipList

def stateAfter (nextRandom : UInt32) (draws : Nat) : UInt32 :=
  (fun state => (getRandomInt state).2)^[draws] nextRandom

def draw (nextRandom : UInt32) (index : Nat) : UInt32 :=
  (getRandomInt (stateAfter nextRandom index)).1

theorem draw_zero (nextRandom : UInt32) : draw nextRandom 0 = (getRandomInt nextRandom).1 := by
  rw [draw, stateAfter, Function.iterate_zero_apply]

theorem draw_succ (nextRandom : UInt32) (index : Nat) :
    draw nextRandom (index + 1) = draw (getRandomInt nextRandom).2 index := by
  rw [draw, draw, stateAfter, stateAfter, Function.iterate_succ_apply]

/-- A draw wins when it does not exceed the threshold. -/
def Wins (check random : UInt32) : Prop := random ≤ check

instance (check random : UInt32) : Decidable (Wins check random) :=
  inferInstanceAs (Decidable (_ ≤ _))

/-- How many draws win before one loses, of so many draws. -/
def leadingWins (check nextRandom : UInt32) : Nat → Nat
  | 0 => 0
  | draws + 1 =>
      if Wins check (getRandomInt nextRandom).1 then
        leadingWins check (getRandomInt nextRandom).2 draws + 1
      else 0

/-- One level and one more for each winning draw, as far as there are levels. As
many draws as levels decide it. -/
def flippedHeight (maxHeight : Int) (check nextRandom : UInt32) : Int :=
  min maxHeight (1 + leadingWins check nextRandom maxHeight.toNat)

structure FollowsFlips (list : Slist) (heap : Heap) (check : UInt32) : Prop where
  height : ∃ height next, upHeight list heap = .ok (height, next) ∧
    1 ≤ height ∧ height ≤ list.maxHeight ∧
    height = flippedHeight list.maxHeight check heap.nextRandom

def Varies (list : Slist) : Prop :=
  ∃ left right height other leftNext rightNext,
    upHeight list left = .ok (height, leftNext) ∧ upHeight list right = .ok (other, rightNext) ∧
      height ≠ other

section Heights

variable {list : Slist} {heap : Heap} {maxHeight count chance : Int} {check nextRandom : UInt32}

/-- The loop ends at the top level, from chance 0 and from chance 1. -/
theorem upHeightLoop_eq (low : 1 ≤ count) (high : count ≤ maxHeight)
    (room : maxHeight - count ≤ maxHeight + 1 - chance) :
    upHeightLoop maxHeight count chance = maxHeight := by
  induction count, chance using upHeightLoop.induct maxHeight with
  | case1 count chance goes ih =>
      rw [upHeightLoop, if_pos goes]
      by_cases below : count < maxHeight
      · rw [dif_pos below] at ih
        rw [if_pos below]
        exact ih (by omega) (by omega) (by omega)
      · rw [dif_neg below] at ih
        rw [if_neg below]
        exact ih low high (by omega)
  | case2 count chance ends =>
      rw [upHeightLoop, if_neg ends]
      have nonzero : count ≠ 0 := by omega
      have passed : ¬ chance ≤ maxHeight := fun within => ends ⟨nonzero, within⟩
      omega

theorem upHeight_eq (known : checkOf list.chance = some check) (levels : 1 ≤ list.maxHeight) :
    upHeight list heap =
      .ok (list.maxHeight, { heap with nextRandom := (getRandomInt heap.nextRandom).2 }) := by
  unfold upHeight
  rw [known]
  dsimp only
  rw [upHeightLoop_eq (Int.le_refl 1) levels]
  split <;> omega

theorem checkOf_known (valid : list.chance = 2 ∨ list.chance = 4 ∨ list.chance = 8 ∨ list.chance = 16) :
    ∃ check, checkOf list.chance = some check := by
  rcases valid with two | four | eight | sixteen
  · exact ⟨16383, by rw [two]; rfl⟩
  · exact ⟨8191, by rw [four]; rfl⟩
  · exact ⟨4095, by rw [eight]; rfl⟩
  · exact ⟨2047, by rw [sixteen]; rfl⟩

theorem leadingWins_full_iff (check nextRandom : UInt32) (draws more : Nat) (enough : draws ≤ more) :
    draws ≤ leadingWins check nextRandom more ↔
      ∀ index, index < draws → Wins check (draw nextRandom index) := by
  induction draws generalizing nextRandom more with
  | zero => simp
  | succ draws ih =>
      obtain ⟨more, rfl⟩ : ∃ before, more = before + 1 := ⟨more - 1, by omega⟩
      have later := ih (getRandomInt nextRandom).2 more (by omega)
      rw [leadingWins]
      by_cases first : Wins check (getRandomInt nextRandom).1
      · rw [if_pos first, Nat.add_le_add_iff_right, later]
        constructor
        · intro rest index within
          cases index with
          | zero =>
              rw [draw_zero]
              exact first
          | succ index =>
              rw [draw_succ]
              exact rest index (by omega)
        · intro all index within
          have won := all (index + 1) (by omega)
          rw [draw_succ] at won
          exact won
      · rw [if_neg first]
        refine iff_of_false (by omega) ?_
        intro all
        have won := all 0 (by omega)
        rw [draw_zero] at won
        exact first won

theorem flippedHeight_top_iff (levels : 1 ≤ maxHeight) :
    flippedHeight maxHeight check nextRandom = maxHeight ↔
      ∀ index, index + 1 < maxHeight.toNat → Wins check (draw nextRandom index) := by
  have full := leadingWins_full_iff check nextRandom (maxHeight.toNat - 1) maxHeight.toNat
    (Nat.sub_le _ _)
  have reach : flippedHeight maxHeight check nextRandom = maxHeight ↔
      maxHeight.toNat - 1 ≤ leadingWins check nextRandom maxHeight.toNat := by
    unfold flippedHeight
    omega
  rw [reach, full]
  constructor
  · intro all index within
    exact all index (by omega)
  · intro all index within
    exact all index (by omega)

end Heights

/-- The height follows the flips exactly at the states from which as many draws
win as there are levels above the first. It is the same for all states. -/
theorem followsFlips_iff_all_win (list : Slist) (levels : 2 ≤ list.maxHeight)
    (valid : list.chance = 2 ∨ list.chance = 4 ∨ list.chance = 8 ∨ list.chance = 16) :
    ∃ check, checkOf list.chance = some check ∧
      (∀ heap : Heap, FollowsFlips list heap check ↔
        ∀ index, index + 1 < list.maxHeight.toNat → Wins check (draw heap.nextRandom index)) ∧
      ¬ Varies list := by
  obtain ⟨check, known⟩ := checkOf_known valid
  have one : 1 ≤ list.maxHeight := by omega
  refine ⟨check, known, ?_, ?_⟩
  · intro heap
    rw [← flippedHeight_top_iff one]
    constructor
    · intro follows
      obtain ⟨height, next, ran, _, _, same⟩ := follows.height
      rw [upHeight_eq known one] at ran
      cases ran
      exact same.symm
    · intro same
      exact ⟨_, _, upHeight_eq known one, one, Int.le_refl _, same.symm⟩
  · intro ⟨left, right, height, other, leftNext, rightNext, ran, reran, differ⟩
    rw [upHeight_eq known one] at ran reran
    cases ran
    cases reran
    exact differ rfl

theorem followsFlips_iff_all_win_two :
    ∃ check, FollowsFlips (emptyList 2 2) (emptyHeap 2 2) check ∧
      ¬ FollowsFlips (emptyList 2 2) (emptyHeap 2 1) check ∧ ¬ Varies (emptyList 2 2) := by
  obtain ⟨check, known, exact_states, same⟩ :=
    followsFlips_iff_all_win (emptyList 2 2) (by decide) (Or.inl rfl)
  have threshold : check = 16383 := Option.some.inj (known.symm.trans rfl)
  subst threshold
  refine ⟨16383, ?_, ?_, same⟩
  · rw [exact_states]
    intro index within
    have first : index = 0 := Nat.lt_one_iff.mp (Nat.lt_of_succ_lt_succ within)
    rw [first]
    decide +kernel
  · rw [exact_states]
    intro all
    exact absurd (all 0 (by decide)) (by decide +kernel)

/-- With two levels and chance 2, the state 1 draws 16838, which loses, and the
height is 2. -/
theorem losing_draw_gets_height_two :
    upHeight (emptyList 2 2) (emptyHeap 2 1) =
        .ok (2, { emptyHeap 2 1 with nextRandom := 1103527590 }) ∧
      (getRandomInt 1).1 = 16838 ∧ flippedHeight 2 16383 1 = 1 ∧
      ¬ ∀ list : Slist, 2 ≤ list.maxHeight →
        (list.chance = 2 ∨ list.chance = 4 ∨ list.chance = 8 ∨ list.chance = 16) →
          ∃ check, checkOf list.chance = some check ∧
            (∀ heap : Heap, FollowsFlips list heap check) ∧ Varies list := by
  have ran : upHeight (emptyList 2 2) (emptyHeap 2 1) =
      .ok (2, { emptyHeap 2 1 with nextRandom := 1103527590 }) :=
    upHeight_eq (show checkOf 2 = some 16383 from rfl) (by decide)
  have short : flippedHeight 2 16383 1 = 1 := by decide +kernel
  refine ⟨ran, by decide +kernel, short, ?_⟩
  intro promised
  obtain ⟨check, known, follows, _⟩ := promised (emptyList 2 2) (by decide) (Or.inl rfl)
  have threshold : check = 16383 := Option.some.inj (known.symm.trans rfl)
  subst threshold
  obtain ⟨height, next, again, _, _, same⟩ := (follows (emptyHeap 2 1)).height
  rw [ran] at again
  cases again
  exact absurd (same.trans short) (by decide)

end CS421.SkipList
