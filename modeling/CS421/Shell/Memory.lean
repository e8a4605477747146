/-
The heap of the shell, block by block.

A block is an identifier. Whether it is live, how many bytes it has and what it
holds are kept apart, so a write through a pointer to a released block changes
that block and no other. Every write and every free leaves an access behind that
says how large the block was and whether it was live.
-/

import Mathlib.Data.Finset.Insert
import Mathlib.Data.Finset.Erase
import Mathlib.Logic.Function.Basic

set_option autoImplicit false

namespace CS421.Shell

/-- A place in a block, or NULL. -/
abbrev Pointer := Option (Nat × Nat)

/-- `room` is the number of elements of the block that is written to. -/
inductive Access where
  | char (block index room : Nat) (live : Bool)
  | arg (block index room : Nat) (live : Bool)
  | free (block : Nat) (live : Bool)
  deriving DecidableEq

def Access.Inside : Access → Prop
  | .char _ index room _ => index < room
  | .arg _ index room _ => index < room
  | .free _ _ => True

/-- A block holds characters or pointers. What a block holds before anything is
written to it is whatever is there. -/
structure Memory where
  fresh : Nat
  live : Finset Nat
  size : Nat → Nat
  chars : Nat → Nat → UInt8
  args : Nat → Nat → Pointer
  accesses : List Access
  liveBelow : ∀ block ∈ live, block < fresh

def Memory.initial : Memory :=
  { fresh := 0, live := ∅, size := fun _ => 0, chars := fun _ _ => 0, args := fun _ _ => none
    accesses := [], liveBelow := fun block member => absurd member (Finset.notMem_empty block) }

/-- `sizeof(char*)` -/
def pointerSize : Nat := 8

inductive Growth where
  | inPlace
  | moved
  | failed
  deriving DecidableEq

namespace Memory

def setChar (memory : Memory) (block index : Nat) (char : UInt8) : Memory :=
  { memory with
    chars := Function.update memory.chars block (Function.update (memory.chars block) index char)
    accesses := .char block index (memory.size block) (block ∈ memory.live) :: memory.accesses }

def setArg (memory : Memory) (block index : Nat) (arg : Pointer) : Memory :=
  { memory with
    args := Function.update memory.args block (Function.update (memory.args block) index arg)
    accesses := .arg block index (memory.size block / pointerSize) (block ∈ memory.live) ::
      memory.accesses }

/-! ### malloc, realloc and free -/

/-- `free` through a pointer to a released block releases nothing. -/
def free (memory : Memory) (block : Nat) : Memory :=
  { memory with
    live := memory.live.erase block
    accesses := .free block (block ∈ memory.live) :: memory.accesses
    liveBelow := fun other member => memory.liveBelow other (Finset.mem_of_mem_erase member) }

theorem insert_below {fresh : Nat} {live : Finset Nat} (below : ∀ block ∈ live, block < fresh) :
    ∀ block ∈ insert fresh live, block < fresh + 1 := by
  intro block member
  rcases Finset.mem_insert.mp member with new | old
  · rw [new]
    exact Nat.lt_succ_self _
  · exact Nat.lt_succ_of_lt (below block old)

def malloc (memory : Memory) (succeeds : Bool) (bytes : Nat) : Option Nat × Memory :=
  if succeeds then
    (some memory.fresh,
      { memory with
        fresh := memory.fresh + 1
        live := insert memory.fresh memory.live
        size := Function.update memory.size memory.fresh bytes
        liveBelow := insert_below memory.liveBelow })
  else (none, memory)

/-- A block that moves leaves its old identifier released. -/
def realloc (memory : Memory) (growth : Growth) (block bytes : Nat) : Option Nat × Memory :=
  match growth with
  | .failed => (none, memory)
  | .inPlace => (some block, { memory with size := Function.update memory.size block bytes })
  | .moved =>
      (some memory.fresh,
        { memory with
          fresh := memory.fresh + 1
          live := insert memory.fresh (memory.live.erase block)
          size := Function.update memory.size memory.fresh bytes
          chars := Function.update memory.chars memory.fresh fun index =>
            if index < memory.size block then memory.chars block index
            else memory.chars memory.fresh index
          args := Function.update memory.args memory.fresh fun index =>
            if index < memory.size block / pointerSize then memory.args block index
            else memory.args memory.fresh index
          liveBelow := insert_below fun other member =>
            memory.liveBelow other (Finset.mem_of_mem_erase member) })

section Lemmas

variable {memory : Memory} {block other index : Nat} {char : UInt8} {arg : Pointer}

@[simp] theorem setArg_chars : (memory.setArg block index arg).chars = memory.chars := rfl

theorem setChar_chars (at_block at_index : Nat) :
    (memory.setChar block index char).chars at_block at_index =
      if at_block = block ∧ at_index = index then char else memory.chars at_block at_index := by
  by_cases here : at_block = block
  · subst here
    by_cases same : at_index = index
    · subst same
      simp [setChar]
    · simp [setChar, same]
  · simp [setChar, here]

theorem setArg_args (at_block at_index : Nat) :
    (memory.setArg block index arg).args at_block at_index =
      if at_block = block ∧ at_index = index then arg else memory.args at_block at_index := by
  by_cases here : at_block = block
  · subst here
    by_cases same : at_index = index
    · subst same
      simp [setArg]
    · simp [setArg, same]
  · simp [setArg, here]

theorem setChar_here : (memory.setChar block index char).chars block index = char := by
  rw [setChar_chars, if_pos ⟨rfl, rfl⟩]

theorem setChar_elsewhere {at_index : Nat} (different : at_index ≠ index) :
    (memory.setChar block index char).chars other at_index = memory.chars other at_index := by
  rw [setChar_chars, if_neg fun same => different same.2]

theorem setArg_here : (memory.setArg block index arg).args block index = arg := by
  rw [setArg_args, if_pos ⟨rfl, rfl⟩]

theorem setArg_elsewhere {at_index : Nat} (different : at_index ≠ index) :
    (memory.setArg block index arg).args other at_index = memory.args other at_index := by
  rw [setArg_args, if_neg fun same => different same.2]

theorem malloc_accesses (succeeds : Bool) (bytes : Nat) :
    (memory.malloc succeeds bytes).2.accesses = memory.accesses := by
  cases succeeds <;> rfl

theorem malloc_failed (bytes : Nat) : memory.malloc false bytes = (none, memory) := rfl

theorem malloc_succeeds (memory : Memory) (bytes : Nat) :
    ∃ new after, memory.malloc true bytes = (some new, after) ∧ new ∈ after.live ∧
      after.size new = bytes ∧ after.accesses = memory.accesses ∧
      (∀ other ∈ memory.live,
        other ≠ new ∧ other ∈ after.live ∧ after.size other = memory.size other) := by
  refine ⟨memory.fresh, _, rfl, Finset.mem_insert_self _ _, by simp, rfl, ?_⟩
  intro other member
  have old : other ≠ memory.fresh := Nat.ne_of_lt (memory.liveBelow other member)
  exact ⟨old, Finset.mem_insert_of_mem member, by simp [old]⟩

/-- A block of a heap that has grown, under an old or a new identifier. The other
blocks stay as they were. -/
structure Resized (before after : Memory) (block new bytes : Nat) : Prop where
  live : new ∈ after.live
  room : after.size new = bytes
  chars : ∀ index, index < before.size block → after.chars new index = before.chars block index
  oldRoom : before.size block ≤ after.size block
  others : ∀ other, other < before.fresh → other ≠ block → other ≠ new ∧
    (other ∈ before.live → other ∈ after.live) ∧
    after.size other = before.size other ∧ after.chars other = before.chars other
  fresh : before.fresh ≤ after.fresh
  accesses : after.accesses = before.accesses

theorem realloc_failed (bytes : Nat) : memory.realloc .failed block bytes = (none, memory) := rfl

theorem realloc_accesses (growth : Growth) (bytes : Nat) :
    (memory.realloc growth block bytes).2.accesses = memory.accesses := by
  cases growth <;> rfl

theorem le_realloc_fresh (growth : Growth) (bytes : Nat) :
    memory.fresh ≤ (memory.realloc growth block bytes).2.fresh := by
  cases growth with
  | failed => exact Nat.le_refl _
  | inPlace => exact Nat.le_refl _
  | moved => exact Nat.le_succ _

theorem mem_realloc_live {growth : Growth} {bytes : Nat} (known : other < memory.fresh) :
    other ∈ (memory.realloc growth block bytes).2.live ↔
      other ∈ memory.live ∧ (growth = .moved → other ≠ block) := by
  have old : other ≠ memory.fresh := Nat.ne_of_lt known
  cases growth with
  | failed => simp [realloc]
  | inPlace => simp [realloc]
  | moved => simp [realloc, old, and_comm]

theorem realloc_inPlace {bytes : Nat} (live : block ∈ memory.live)
    (larger : memory.size block ≤ bytes) :
    ∃ after, memory.realloc .inPlace block bytes = (some block, after) ∧
      Resized memory after block block bytes := by
  refine ⟨_, rfl, ?_⟩
  exact {
    live := live
    room := by simp
    chars := fun index _ => rfl
    oldRoom := by simpa using larger
    others := fun other _ different =>
      ⟨different, fun member => member, by simp [different], rfl⟩
    fresh := Nat.le_refl _
    accesses := rfl }

theorem realloc_moved (bytes : Nat) (live : block ∈ memory.live) :
    ∃ new after, memory.realloc .moved block bytes = (some new, after) ∧ new ≠ block ∧
      Resized memory after block new bytes := by
  have known := memory.liveBelow block live
  have different : block ≠ memory.fresh := Nat.ne_of_lt known
  refine ⟨memory.fresh, _, rfl, different.symm, ?_⟩
  exact {
    live := Finset.mem_insert_self _ _
    room := by simp
    chars := fun index within => by simp [within]
    oldRoom := by simp [different]
    others := fun other below elsewhere => by
      have old : other ≠ memory.fresh := Nat.ne_of_lt below
      refine ⟨old, ?_, by simp [old], by simp [old]⟩
      intro member
      exact Finset.mem_insert_of_mem (Finset.mem_erase.mpr ⟨elsewhere, member⟩)
    fresh := Nat.le_succ _
    accesses := rfl }

theorem realloc_resized {growth : Growth} {bytes : Nat} (live : block ∈ memory.live)
    (larger : memory.size block ≤ bytes) (succeeds : growth ≠ .failed) :
    ∃ new after, memory.realloc growth block bytes = (some new, after) ∧
      Resized memory after block new bytes ∧
      (growth = .moved → new ≠ block) ∧ (growth ≠ .moved → new = block) := by
  cases growth with
  | failed => exact absurd rfl succeeds
  | inPlace =>
      obtain ⟨after, called, resized⟩ := realloc_inPlace live larger
      refine ⟨block, after, called, resized, ?_, fun _ => rfl⟩
      intro moved
      cases moved
  | moved =>
      obtain ⟨new, after, called, different, resized⟩ := realloc_moved bytes live
      exact ⟨new, after, called, resized, fun _ => different, fun stays => absurd rfl stays⟩

end Lemmas

/-- The block holds this text and a NUL behind it from this offset on. -/
structure Holds (memory : Memory) (block offset : Nat) (text : List UInt8) : Prop where
  bytes : ∀ index (within : index < text.length), memory.chars block (offset + index) = text[index]
  noNul : (0 : UInt8) ∉ text
  ends : memory.chars block (offset + text.length) = 0

def Since (before after : Memory) (good : Access → Prop) : Prop :=
  ∃ news, after.accesses = news ++ before.accesses ∧ ∀ access ∈ news, good access

section Since

variable {before middle after : Memory} {good : Access → Prop}

theorem Since.of_accesses (same : after.accesses = before.accesses) : Since before after good := by
  refine ⟨[], same, ?_⟩
  intro access member
  cases member

theorem Since.refl (memory : Memory) (good : Access → Prop) : Since memory memory good :=
  Since.of_accesses rfl

theorem Since.trans (first : Since before middle good) (later : Since middle after good) :
    Since before after good := by
  obtain ⟨news, wrote, sound⟩ := first
  obtain ⟨more, wroteMore, soundMore⟩ := later
  refine ⟨more ++ news, ?_, ?_⟩
  · rw [wroteMore, wrote, List.append_assoc]
  · intro access member
    rcases List.mem_append.mp member with new | old
    · exact soundMore access new
    · exact sound access old

theorem Since.access {access : Access} (wrote : after.accesses = access :: before.accesses)
    (sound : good access) : Since before after good := by
  refine ⟨[access], wrote, ?_⟩
  intro other member
  rw [List.mem_singleton.mp member]
  exact sound

end Since

end Memory

end CS421.Shell
