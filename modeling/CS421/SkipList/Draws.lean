/-
The generator of skipList.c over a whole period.

From every seed the generator comes through all of its states before it comes
back to the seed, and over that period each number that `get_random_int` may
return is returned equally often.
-/

import CS421.Congruential
import CS421.SkipList.Heights
import Mathlib.Data.ZMod.Basic

set_option autoImplicit false

namespace CS421.SkipList

open Congruential

def residue (state : UInt32) : ZMod (2 ^ 32) := (state.toNat : ZMod (2 ^ 32))

theorem residue_injective {first second : UInt32} (same : residue first = residue second) :
    first = second := by
  have modulo := (ZMod.natCast_eq_natCast_iff' _ _ _).mp same
  rw [Nat.mod_eq_of_lt first.toNat_lt, Nat.mod_eq_of_lt second.toNat_lt] at modulo
  exact UInt32.toNat_inj.mp modulo

theorem residue_getRandomInt (state : UInt32) :
    residue (getRandomInt state).2 =
      advance (1 + 4 * 275878811) (1 + 2 * 6172) (residue state) := by
  have next : (getRandomInt state).2.toNat = (state.toNat * 1103515245 + 12345) % 2 ^ 32 := by
    rw [getRandomInt, UInt32.toNat_add, UInt32.toNat_mul, Nat.mod_add_mod]
    rfl
  have steps : (1 + 4 * 275878811 : ZMod (2 ^ 32)) = ((1103515245 : ℕ) : ZMod (2 ^ 32)) ∧
      (1 + 2 * 6172 : ZMod (2 ^ 32)) = ((12345 : ℕ) : ZMod (2 ^ 32)) := by
    constructor <;> norm_num
  rw [residue, residue, next, ZMod.natCast_mod, advance, steps.1, steps.2, Nat.cast_add,
    Nat.cast_mul, mul_comm]

theorem residue_stateAfter (seed : UInt32) (draws : ℕ) :
    residue (stateAfter seed draws) =
      (advance (1 + 4 * 275878811) (1 + 2 * 6172))^[draws] (residue seed) := by
  induction draws with
  | zero => rfl
  | succ draws ih =>
      rw [Function.iterate_succ_apply', ← ih, stateAfter, Function.iterate_succ_apply', ← stateAfter,
        residue_getRandomInt]

theorem minimalPeriod_residue (state : ZMod (2 ^ 32)) :
    Function.minimalPeriod (advance (1 + 4 * 275878811) (1 + 2 * 6172)) state = 2 ^ 32 := by
  have zero : (2 : ZMod (2 ^ 32)) ^ (31 + 1) = 0 := by
    exact_mod_cast ZMod.natCast_self (2 ^ 32)
  have nonzero : (2 : ZMod (2 ^ 32)) ^ 31 ≠ 0 := by
    intro vanishes
    have divides : 2 ^ 32 ∣ 2 ^ 31 := by
      apply (ZMod.natCast_eq_zero_iff (2 ^ 31) (2 ^ 32)).mp
      exact_mod_cast vanishes
    have less : 2 ^ 31 < 2 ^ 32 := Nat.pow_lt_pow_right Nat.one_lt_two (Nat.lt_succ_self 31)
    exact Nat.not_le_of_lt less (Nat.le_of_dvd (Nat.two_pow_pos 31) divides)
  exact minimalPeriod_advance zero nonzero 275878811 6172 state

theorem stateAfter_injective (seed : UInt32) {first second : ℕ} (before : first < 2 ^ 32)
    (below : second < 2 ^ 32) (same : stateAfter seed first = stateAfter seed second) :
    first = second := by
  have residues := congrArg residue same
  rw [residue_stateAfter, residue_stateAfter] at residues
  rw [← minimalPeriod_residue (residue seed)] at before below
  exact (Function.iterate_eq_iterate_iff_of_lt_minimalPeriod before below).mp residues

theorem stateAfter_period (seed : UInt32) : stateAfter seed (2 ^ 32) = seed := by
  have back := Function.isPeriodicPt_minimalPeriod
    (advance (1 + 4 * 275878811) (1 + 2 * 6172)) (residue seed)
  rw [minimalPeriod_residue] at back
  apply residue_injective
  rw [residue_stateAfter]
  exact back

theorem draw_toNat (seed : UInt32) (index : ℕ) :
    (draw seed index).toNat = (stateAfter (getRandomInt seed).2 index).toNat / 65536 % 32768 := by
  have next : stateAfter (getRandomInt seed).2 index = (getRandomInt (stateAfter seed index)).2 := by
    rw [stateAfter, ← Function.iterate_succ_apply, Function.iterate_succ_apply', ← stateAfter]
  rw [draw, next, getRandomInt, UInt32.toNat_mod, UInt32.toNat_div]
  rfl

/-- From every seed, the states up to the period are all different, the seed comes
back after it, and each number from 0 to 32767 is drawn equally often over it. -/
theorem generator_full_period (seed : UInt32) :
    (∀ first second, first < 2 ^ 32 → second < 2 ^ 32 →
      stateAfter seed first = stateAfter seed second → first = second) ∧
    stateAfter seed (2 ^ 32) = seed ∧
    ∀ value : Fin 32768,
      Nat.count (fun index => (draw seed index).toNat = value) (2 ^ 32) = 131072 := by
  refine ⟨fun first second => stateAfter_injective seed, stateAfter_period seed, fun value => ?_⟩
  have distinct (first second : ℕ) (before : first < 2 ^ 32) (below : second < 2 ^ 32)
      (same : (stateAfter (getRandomInt seed).2 first).toNat =
        (stateAfter (getRandomInt seed).2 second).toNat) : first = second :=
    stateAfter_injective _ before below (UInt32.toNat_inj.mp same)
  have drawn := count_of_injOn (fun index _ => UInt32.toNat_lt _) distinct
    (fun number => number / 65536 % 32768 = value)
  simp only [draw_toNat]
  rw [drawn]
  exact count_digit 65536 32768 2 (by norm_num) value.isLt

end CS421.SkipList
