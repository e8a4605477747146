/-
Linear congruential generators whose modulus is a power of two.

A ring in which some power of two is zero stands for the states. The rules give
the period of the generator, and how often a value is drawn over a period that
meets every state. They know nothing of the constants of a generator.
-/

import Mathlib.Data.Nat.Count
import Mathlib.Dynamics.PeriodicPts.Lemmas
import Mathlib.Order.Interval.Finset.Nat
import Mathlib.Tactic.Ring

set_option autoImplicit false

namespace CS421.Congruential

section Period

variable {R : Type*} [CommRing R]

def advance (a c state : R) : R := a * state + c

/-- So many steps as a power of two are one step of another generator, whose
constants are as even and as odd as those of the first. -/
theorem iterate_two_pow (t s : R) (k : ℕ) :
    ∃ t' s' : R, ∀ state, (advance (1 + 4 * t) (1 + 2 * s))^[2 ^ k] state =
      advance (1 + 2 ^ (k + 2) * t') (2 ^ k * (1 + 2 * s')) state := by
  induction k with
  | zero =>
      refine ⟨t, s, fun state => ?_⟩
      rw [pow_zero, Function.iterate_one, advance, advance]
      ring
  | succ k ih =>
      obtain ⟨t', s', half⟩ := ih
      refine ⟨t' + 2 * 2 ^ k * t' ^ 2, s' + 2 ^ k * t' + 2 * 2 ^ k * (s' * t'), fun state => ?_⟩
      rw [pow_succ, mul_two, Function.iterate_add_apply, half, half, advance, advance, advance]
      ring

/-- With a multiplier that is 1 modulo 4 and an odd increment, the generator comes
back to a state after as many steps as the modulus and not before. -/
theorem minimalPeriod_advance {w : ℕ} (zero : (2 : R) ^ (w + 1) = 0) (nonzero : (2 : R) ^ w ≠ 0)
    (t s state : R) :
    Function.minimalPeriod (advance (1 + 4 * t) (1 + 2 * s)) state = 2 ^ (w + 1) := by
  have prime : Fact (Nat.Prime 2) := ⟨Nat.prime_two⟩
  have vanishes (k : ℕ) : (2 : R) ^ (w + 1 + k) = 0 := by
    rw [pow_add, zero, zero_mul]
  apply Function.minimalPeriod_eq_prime_pow
  · intro back
    obtain ⟨t', s', half⟩ := iterate_two_pow t s w
    have same : advance (1 + 2 ^ (w + 2) * t') (2 ^ w * (1 + 2 * s')) state = state :=
      (half state).symm.trans back
    apply nonzero
    calc (2 : R) ^ w
        = advance (1 + 2 ^ (w + 2) * t') (2 ^ w * (1 + 2 * s')) state - state
            - 2 ^ (w + 1 + 1) * (t' * state) - 2 ^ (w + 1) * s' := by
          rw [advance]
          ring
      _ = 0 := by
          rw [same, vanishes 1, zero]
          ring
  · obtain ⟨t', s', whole⟩ := iterate_two_pow t s (w + 1)
    refine (whole state).trans ?_
    rw [advance, vanishes 2, zero]
    ring

end Period

theorem count_of_injOn {bound : ℕ} {sequence : ℕ → ℕ}
    (below : ∀ index, index < bound → sequence index < bound)
    (distinct : ∀ first second, first < bound → second < bound →
      sequence first = sequence second → first = second)
    (property : ℕ → Prop) [DecidablePred property] :
    Nat.count (fun index => property (sequence index)) bound = Nat.count property bound := by
  have injective : Set.InjOn sequence (Finset.range bound : Set ℕ) := by
    intro first inFirst second inSecond same
    exact distinct first second (Finset.mem_range.mp inFirst) (Finset.mem_range.mp inSecond) same
  have onto : (Finset.range bound).image sequence = Finset.range bound := by
    apply Finset.eq_of_subset_of_card_le
    · intro value member
      obtain ⟨index, inRange, rfl⟩ := Finset.mem_image.mp member
      exact Finset.mem_range.mpr (below index (Finset.mem_range.mp inRange))
    · rw [Finset.card_image_of_injOn injective]
  rw [Nat.count_eq_card_filter_range, Nat.count_eq_card_filter_range]
  conv_rhs => rw [← onto, Finset.filter_image]
  rw [Finset.card_image_of_injOn]
  exact injective.mono (Finset.filter_subset _ _)

theorem count_lowest_digit (low base : ℕ) (positive : 0 < low) {value : ℕ} (within : value < base) :
    Nat.count (fun number => number / low % base = value) (low * base) = low := by
  have here : (Finset.range (low * base)).filter (fun number => number / low % base = value) =
      Finset.Ico (low * value) (low * value + low) := by
    ext number
    rw [Finset.mem_filter, Finset.mem_range, Finset.mem_Ico]
    constructor
    · rintro ⟨below, digit⟩
      have small : number / low < base := Nat.div_lt_of_lt_mul below
      rw [Nat.mod_eq_of_lt small] at digit
      subst value
      exact ⟨Nat.mul_div_le number low, Nat.lt_mul_div_succ number positive⟩
    · rintro ⟨least, below⟩
      have digit : number / low = value := by
        apply Nat.div_eq_of_lt_le
        · rw [Nat.mul_comm]
          exact least
        · rw [Nat.succ_mul, Nat.mul_comm]
          exact below
      rw [digit, Nat.mod_eq_of_lt within]
      refine ⟨below.trans_le ?_, rfl⟩
      rw [← Nat.mul_succ]
      exact Nat.mul_le_mul_left low within
  rw [Nat.count_eq_card_filter_range, here, Nat.card_Ico, Nat.add_sub_cancel_left]

theorem count_digit (low base high : ℕ) (positive : 0 < low) {value : ℕ} (within : value < base) :
    Nat.count (fun number => number / low % base = value) (low * base * high) = low * high := by
  induction high with
  | zero => rfl
  | succ high ih =>
      have shifted (number : ℕ) :
          (low * base * high + number) / low % base = number / low % base := by
        rw [Nat.mul_assoc, Nat.mul_add_div positive, Nat.mul_add_mod]
      rw [Nat.mul_succ, Nat.count_add, ih, Nat.mul_succ]
      simp only [shifted]
      rw [count_lowest_digit low base positive within]

end CS421.Congruential
