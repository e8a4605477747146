/-
The read loop of the shell, for a line of any length.

The buffer starts at 1024 and doubles when it is full. Each doubling clears
input[1024] through the old pointer, once for each new element. After the first
doubling that place belongs to the line.
-/

import Mathlib.Tactic.ByContra
import CS421.Outcomes
import CS421.Shell.Program

set_option autoImplicit false

namespace CS421.Shell

open CS421.Outcomes
open Memory (Since Holds Resized)

def lineOf (stream : List UInt8) : List UInt8 := stream.takeWhile (fun byte => byte != newline)

def restOf (stream : List UInt8) : List UInt8 :=
  (stream.dropWhile (fun byte => byte != newline)).drop 1

def bufferAfter (doublings : Nat) : Nat := 1024 * 2 ^ doublings

theorem bufferAfter_zero : bufferAfter 0 = 1024 := rfl

theorem bufferAfter_succ (doublings : Nat) : bufferAfter (doublings + 1) = bufferAfter doublings * 2 := by
  rw [bufferAfter, bufferAfter, Nat.pow_succ, Nat.mul_assoc]

theorem bufferAfter_least (doublings : Nat) : 1024 ≤ bufferAfter doublings :=
  Nat.le_mul_of_pos_right 1024 (Nat.two_pow_pos doublings)

theorem bufferAfter_lt_iff (left right : Nat) : bufferAfter left < bufferAfter right ↔ left < right := by
  rw [bufferAfter, bufferAfter, Nat.mul_lt_mul_left (by decide),
    Nat.pow_lt_pow_iff_right (by decide)]

def Stop.memory : Stop → Memory
  | .exit _ _ memory => memory
  | .crash _ memory => memory

structure Blocks (reading : Reading) (input command : Nat) : Prop where
  inputIs : reading.input = some input
  commandIs : reading.command = some command
  apart : input ≠ command
  inputLive : input ∈ reading.memory.live
  commandLive : command ∈ reading.memory.live
  inputRoom : reading.memory.size input = pointerSize * reading.buffer
  commandRoom : reading.memory.size command = pointerSize * reading.buffer
  testerIs : reading.tester = 1024

/-- A line is in the buffer after so many doublings. The place 1024 keeps its
character while the input moves at every doubling after the first, and holds a NUL
once it has not moved. -/
structure Stored (growth : Nat → Growth × Growth) (typed : List UInt8) (doublings : Nat)
    (reading : Reading) (input command : Nat) : Prop extends Blocks reading input command where
  counted : reading.count = typed.length
  bufferIs : reading.buffer = bufferAfter doublings
  passed : ∀ earlier, earlier < doublings → bufferAfter earlier ≤ reading.count
  fits : reading.count ≤ reading.buffer
  kept : ∀ index (within : index < typed.length),
    (index = 1024 → ∀ earlier, 1 ≤ earlier → earlier < doublings →
      (growth (bufferAfter earlier)).1 = .moved) →
    reading.memory.chars input index = typed[index]
  struck : ∀ earlier, 1 ≤ earlier → earlier < doublings →
    (growth (bufferAfter earlier)).1 ≠ .moved → reading.memory.chars input 1024 = 0

structure Ready (growth : Nat → Growth × Growth) (typed : List UInt8) (doublings : Nat)
    (reading : Reading) (input command : Nat) : Prop
    extends Stored growth typed doublings reading input command where
  below : reading.count < reading.buffer
  ends : reading.memory.chars input reading.count = 0

/-- Why a loop that has come to this line may have stopped. -/
def Halts (growth : Nat → Growth × Growth) (typed : List UInt8) : Prop :=
  exitText <+: typed ∨ 2 ^ 30 ≤ typed.length ∨
    ∃ doublings, bufferAfter doublings ≤ typed.length ∧
      ((growth (bufferAfter doublings)).1 = .failed ∨ (growth (bufferAfter doublings)).2 = .failed)

theorem Halts.longer {growth : Nat → Growth × Growth} {typed : List UInt8} (halts : Halts growth typed)
    (more : List UInt8) : Halts growth (typed ++ more) := by
  rcases halts with exits | long | ⟨doublings, reached, failed⟩
  · exact .inl (exits.trans (List.prefix_append typed more))
  · refine .inr (.inl ?_)
    rw [List.length_append]
    omega
  · refine .inr (.inr ⟨doublings, ?_, failed⟩)
    rw [List.length_append]
    omega

theorem Memory.Since.release {memory after : Memory} (since : Since memory after Access.Inside)
    (place : Option Nat) : Since memory (release place after) Access.Inside := by
  cases place with
  | none => exact since
  | some block => exact since.trans (Since.access rfl trivial)

/-- All writes since a state of the heap were inside their blocks, and the shell
has stopped for a reason or gone on. -/
def Traced {Value : Type} (before : Memory) (place : Value → Memory)
    (result : Except Stop Value) (halts : Prop) (ended : Value → Prop) : Prop :=
  Meets result (fun stop => Since before stop.memory Access.Inside ∧ halts)
    (fun value => Since before (place value) Access.Inside ∧ ended value)

section Traced

variable {Value Next : Type} {before middle : Memory} {place : Value → Memory}
  {nextPlace : Next → Memory} {result : Except Stop Value} {halts other : Prop}
  {ended last : Value → Prop}

theorem Traced.imp (traced : Traced before place result halts ended) (stops : halts → other)
    (ends : ∀ value, ended value → last value) : Traced before place result other last := by
  refine Meets.imp traced ?_ ?_
  · intro stop ⟨since, halted⟩
    exact ⟨since, stops halted⟩
  · intro value ⟨since, holds⟩
    exact ⟨since, ends value holds⟩

theorem Traced.after (since : Since before middle Access.Inside)
    (traced : Traced middle place result halts ended) :
    Traced before place result halts ended := by
  refine Meets.imp traced ?_ ?_
  · intro stop ⟨later, halted⟩
    exact ⟨since.trans later, halted⟩
  · intro value ⟨later, holds⟩
    exact ⟨since.trans later, holds⟩

theorem Traced.bind {next : Value → Except Stop Next} {nextEnded : Next → Prop}
    (first : Traced before place result halts ended)
    (later : ∀ value, ended value →
      Traced (place value) nextPlace (next value) halts nextEnded) :
    Traced before nextPlace (result >>= next) halts nextEnded := by
  refine Meets.bind first ?_
  intro value ⟨since, holds⟩
  exact (later value holds).after since

end Traced

theorem strcmpEqual_iff (chars : Nat → UInt8) (offset : Nat) (text : List UInt8) :
    strcmpEqual chars offset text = true ↔
      (∀ index (within : index < text.length), chars (offset + index) = text[index]) ∧
        chars (offset + text.length) = 0 := by
  induction text generalizing offset with
  | nil => simp [strcmpEqual]
  | cons char rest ih =>
      rw [strcmpEqual, Bool.and_eq_true, beq_iff_eq, ih]
      have shift : ∀ index, offset + 1 + index = offset + (index + 1) := by
        intro index
        omega
      simp only [shift, List.length_cons]
      constructor
      · intro ⟨first, others, ends⟩
        refine ⟨?_, ends⟩
        intro index within
        cases index with
        | zero => exact first
        | succ index => exact others index (by omega)
      · intro ⟨all, ends⟩
        refine ⟨all 0 (by omega), ?_, ends⟩
        intro index within
        exact all (index + 1) (by omega)

section Turns

variable {growth : Nat → Growth × Growth} {typed : List UInt8} {doublings input command : Nat}
  {reading : Reading}

theorem Blocks.setChar (blocks : Blocks reading input command) (block index : Nat) (char : UInt8)
    (count : Nat) :
    Blocks { reading with
      memory := reading.memory.setChar block index char, count := count } input command where
  inputIs := blocks.inputIs
  commandIs := blocks.commandIs
  apart := blocks.apart
  inputLive := blocks.inputLive
  commandLive := blocks.commandLive
  inputRoom := blocks.inputRoom
  commandRoom := blocks.commandRoom
  testerIs := blocks.testerIs

theorem Stored.beyond (stored : Stored growth typed doublings reading input command) {earlier : Nat}
    (positive : 1 ≤ earlier) (before : earlier < doublings) : 1024 < reading.count := by
  have second : bufferAfter 0 < bufferAfter earlier := (bufferAfter_lt_iff 0 earlier).mpr positive
  have reached := stored.passed earlier before
  rw [bufferAfter_zero] at second
  omega

theorem Ready.store (ready : Ready growth typed doublings reading input command) (temp : UInt8) :
    Since reading.memory (reading.memory.setChar input reading.count temp) Access.Inside ∧
      Stored growth (typed ++ [temp]) doublings
        { reading with
          memory := reading.memory.setChar input reading.count temp
          count := reading.count + 1 } input command := by
  have counted := ready.counted
  constructor
  · refine Since.access rfl ?_
    show reading.count < reading.memory.size input
    rw [ready.inputRoom, pointerSize]
    have below := ready.below
    omega
  · exact {
      toBlocks := ready.toBlocks.setChar input reading.count temp (reading.count + 1)
      counted := by
        rw [List.length_append, ← counted]
        rfl
      bufferIs := ready.bufferIs
      passed := fun earlier before => Nat.le_succ_of_le (ready.passed earlier before)
      fits := ready.below
      kept := by
        intro index within moved
        by_cases last : index = reading.count
        · subst last
          rw [Memory.setChar_here]
          simp [counted]
        · rw [Memory.setChar_elsewhere last]
          rw [List.length_append, List.length_singleton] at within
          have earlier : index < typed.length := by omega
          rw [ready.kept index earlier moved, List.getElem_append_left earlier]
      struck := by
        intro earlier positive before stays
        rw [Memory.setChar_elsewhere (Nat.ne_of_lt (ready.beyond positive before))]
        exact ready.struck earlier positive before stays }

theorem Stored.ready (stored : Stored growth typed doublings reading input command)
    (below : reading.count < reading.buffer) :
    Since reading.memory (reading.memory.setChar input reading.count 0) Access.Inside ∧
      Ready growth typed doublings
        { reading with memory := reading.memory.setChar input reading.count 0 } input command := by
  have counted := stored.counted
  constructor
  · refine Since.access rfl ?_
    show reading.count < reading.memory.size input
    rw [stored.inputRoom, pointerSize]
    omega
  · exact {
      toBlocks := stored.toBlocks.setChar input reading.count 0 reading.count
      counted := counted
      bufferIs := stored.bufferIs
      passed := stored.passed
      fits := stored.fits
      kept := by
        intro index within moved
        have earlier : index ≠ reading.count := by omega
        rw [Memory.setChar_elsewhere earlier]
        exact stored.kept index within moved
      struck := by
        intro earlier positive before stays
        rw [Memory.setChar_elsewhere (Nat.ne_of_lt (stored.beyond positive before))]
        exact stored.struck earlier positive before stays
      below := below
      ends := Memory.setChar_here }

theorem Ready.exit_prefix (ready : Ready growth typed doublings reading input command)
    (equal : strcmpEqual (reading.memory.chars input) 0 exitText = true) : exitText <+: typed := by
  obtain ⟨same, _⟩ := (strcmpEqual_iff _ 0 exitText).mp equal
  have enough : 4 ≤ typed.length := by
    by_contra short
    have within : typed.length < exitText.length := Nat.lt_of_not_le short
    have ends : reading.memory.chars input typed.length = 0 := by
      rw [← ready.counted, ready.ends]
    have char := same typed.length within
    rw [Nat.zero_add, ends] at char
    have nonzero : (0 : UInt8) ∉ exitText := by decide
    have member : exitText[typed.length] ∈ exitText := List.getElem_mem within
    rw [← char] at member
    exact nonzero member
  rw [List.prefix_iff_getElem?]
  intro index within
  have small : index < 4 := within
  have inLine : index < typed.length := by omega
  have early : index ≠ 1024 := by omega
  have char := same index within
  rw [Nat.zero_add, ready.kept index inLine fun late => absurd late early] at char
  rw [List.getElem?_eq_getElem inLine, char]

theorem Stored.terminate (stored : Stored growth typed doublings reading input command)
    (below : reading.count < reading.buffer) :
    Traced reading.memory Reading.memory (terminate reading) (exitText <+: typed)
      (fun next => Ready growth typed doublings next input command) := by
  obtain ⟨since, ready⟩ := stored.ready below
  unfold CS421.Shell.terminate
  rw [stored.inputIs]
  dsimp only
  split
  · rename_i equal
    refine meets_error ⟨?_, ready.exit_prefix equal⟩
    exact (since.release _).release _
  · refine meets_ok ⟨since, ?_⟩
    have same := ready
    rw [stored.inputIs] at same
    exact same

/-! ### A doubling -/

/-- The loop over the new elements clears one place of the input, as long as
there is a new element at all. -/
theorem initialiseGrown_ends {tempArr tester : Nat} (turns tester2 : Nat) (memory : Memory)
    (argRoom : tester2 + turns ≤ memory.size tempArr / pointerSize)
    (charRoom : tester < memory.size input) :
    ∃ after, initialiseGrown (some tempArr) (some input) tester turns tester2 memory = .ok after ∧
      Since memory after Access.Inside ∧ after.size = memory.size ∧ after.live = memory.live ∧
      (∀ block index, ¬ (block = input ∧ index = tester) →
        after.chars block index = memory.chars block index) ∧
      (0 < turns ∨ memory.chars input tester = 0 → after.chars input tester = 0) := by
  induction turns generalizing tester2 memory with
  | zero =>
      refine ⟨memory, rfl, Since.refl _ _, rfl, rfl, fun _ _ _ => rfl, ?_⟩
      intro cleared
      rcases cleared with turned | zero
      · cases turned
      · exact zero
  | succ turns ih =>
      let turned := (memory.setArg tempArr tester2 none).setChar input tester 0
      obtain ⟨after, ran, since, sizes, live, others, cleared⟩ :=
        ih (tester2 + 1) turned (by
          show tester2 + 1 + turns ≤ memory.size tempArr / pointerSize
          omega) charRoom
      refine ⟨after, ran, ?_, sizes, live, ?_, ?_⟩
      · refine Since.trans ?_ since
        refine Since.trans (Since.access rfl ?_) (Since.access rfl ?_)
        · show tester2 < memory.size tempArr / pointerSize
          omega
        · exact charRoom
      · intro block index elsewhere
        rw [others block index elsewhere, Memory.setChar_chars, if_neg elsewhere,
          Memory.setArg_chars]
      · intro _
        exact cleared (.inr Memory.setChar_here)

theorem initialiseGrown_doubled {tempArr buffer : Nat} (memory : Memory) (large : 0 < buffer)
    (argRoom : memory.size tempArr = pointerSize * (buffer * 2))
    (charRoom : 1024 < memory.size input) :
    ∃ after, initialiseGrown (some tempArr) (some input) 1024 (buffer * 2 - buffer * 2 / 2)
        (buffer * 2 / 2) memory = .ok after ∧
      Since memory after Access.Inside ∧ after.size = memory.size ∧ after.live = memory.live ∧
      (∀ block index, ¬ (block = input ∧ index = 1024) →
        after.chars block index = memory.chars block index) ∧
      after.chars input 1024 = 0 := by
  have room : memory.size tempArr / pointerSize = buffer * 2 := by
    rw [argRoom]
    exact Nat.mul_div_cancel_left _ (by decide)
  obtain ⟨after, ran, since, sizes, live, others, cleared⟩ :=
    initialiseGrown_ends (buffer * 2 - buffer * 2 / 2) (buffer * 2 / 2) memory
      (by rw [room]; omega) charRoom
  exact ⟨after, ran, since, sizes, live, others, cleared (.inl (by omega))⟩

/-- Without a new array the first turn goes through NULL. -/
theorem initialiseGrown_null {place : Option Nat} {tester turns tester2 : Nat} (memory : Memory)
    (goes : 0 < turns) :
    initialiseGrown none place tester turns tester2 memory = .error (.crash .null memory) := by
  obtain ⟨before, rfl⟩ : ∃ before, turns = before + 1 := ⟨turns - 1, by omega⟩
  rfl

def GrowthFails (growth : Growth × Growth) (buffer : Nat) : Prop :=
  2 ^ 30 ≤ buffer ∨ growth.1 = .failed ∨ growth.2 = .failed

/-- Both blocks after two calls that succeed and the loop over the new elements.
The input keeps its characters, but for the one that is cleared when it stays. -/
structure Grown (before after : Memory) (input command newInput newCommand bytes : Nat) : Prop where
  since : Since before after Access.Inside
  apart : newInput ≠ newCommand
  inputLive : newInput ∈ after.live
  commandLive : newCommand ∈ after.live
  inputRoom : after.size newInput = bytes
  commandRoom : after.size newCommand = bytes
  kept : ∀ index, index < before.size input → ¬ (newInput = input ∧ index = 1024) →
    after.chars newInput index = before.chars input index
  struck : newInput = input → after.chars newInput 1024 = 0

theorem Stored.larger (stored : Stored growth typed doublings reading input command) :
    1024 ≤ reading.buffer ∧
      pointerSize * reading.buffer ≤ pointerSize * (reading.buffer * 2) := by
  have least := bufferAfter_least doublings
  rw [← stored.bufferIs] at least
  refine ⟨least, Nat.mul_le_mul_left _ ?_⟩
  omega

theorem Stored.resize_both (stored : Stored growth typed doublings reading input command)
    (inputSucceeds : (growth reading.buffer).1 ≠ .failed)
    (commandSucceeds : (growth reading.buffer).2 ≠ .failed) :
    ∃ newInput mid newCommand late after,
      reading.memory.realloc (growth reading.buffer).1 input (pointerSize * (reading.buffer * 2)) =
        (some newInput, mid) ∧
      mid.realloc (growth reading.buffer).2 command (pointerSize * (reading.buffer * 2)) =
        (some newCommand, late) ∧
      initialiseGrown (some newCommand) (some input) 1024
        (reading.buffer * 2 - reading.buffer * 2 / 2) (reading.buffer * 2 / 2) late = .ok after ∧
      Grown reading.memory after input command newInput newCommand
        (pointerSize * (reading.buffer * 2)) ∧
      ((growth reading.buffer).1 = .moved → newInput ≠ input) ∧
      ((growth reading.buffer).1 ≠ .moved → newInput = input) := by
  obtain ⟨least, larger⟩ := stored.larger
  have inputLarger := larger
  rw [← stored.inputRoom] at inputLarger
  obtain ⟨newInput, mid, inputCalled, input_resized, whenMoved, whenStays⟩ :=
    Memory.realloc_resized stored.inputLive inputLarger inputSucceeds
  have commandBelow := reading.memory.liveBelow command stored.commandLive
  obtain ⟨commandOther, commandStays, commandSize, _⟩ :=
    input_resized.others command commandBelow stored.apart.symm
  have commandLarger := larger
  rw [← stored.commandRoom, ← commandSize] at commandLarger
  obtain ⟨newCommand, late, commandCalled, command_resized, _, _⟩ :=
    Memory.realloc_resized (commandStays stored.commandLive) commandLarger commandSucceeds
  -- the new input block and the old one seen from behind the second call
  have newBelow := mid.liveBelow newInput input_resized.live
  obtain ⟨apart, newStays, newSize, newChars⟩ :=
    command_resized.others newInput newBelow commandOther.symm
  have oldBelow := Nat.lt_of_lt_of_le (reading.memory.liveBelow input stored.inputLive)
    input_resized.fresh
  obtain ⟨_, _, oldSize, _⟩ := command_resized.others input oldBelow stored.apart
  have oldRoom := input_resized.oldRoom
  rw [stored.inputRoom, ← oldSize, pointerSize] at oldRoom
  obtain ⟨after, ran, since, sizes, live, others, cleared⟩ :=
    initialiseGrown_doubled late (by omega) command_resized.room
      (show 1024 < late.size input by omega)
  refine ⟨newInput, mid, newCommand, late, after, inputCalled, commandCalled, ran, ?_,
    whenMoved, whenStays⟩
  exact {
    since := by
      obtain ⟨news, wrote, sound⟩ := since
      rw [command_resized.accesses, input_resized.accesses] at wrote
      exact ⟨news, wrote, sound⟩
    apart := apart
    inputLive := by
      rw [live]
      exact newStays input_resized.live
    commandLive := by
      rw [live]
      exact command_resized.live
    inputRoom := by rw [sizes, newSize, input_resized.room]
    commandRoom := by rw [sizes, command_resized.room]
    kept := by
      intro index within elsewhere
      rw [others newInput index elsewhere, newChars, input_resized.chars index within]
    struck := by
      intro stays
      rw [stays]
      exact cleared }

theorem Stored.grow_eq (stored : Stored growth typed doublings reading input command)
    (fits : ¬ intMax < reading.buffer * 2) {newInput newCommand : Nat} {mid late after : Memory}
    (inputCalled : reading.memory.realloc (growth reading.buffer).1 input
      (pointerSize * (reading.buffer * 2)) = (some newInput, mid))
    (commandCalled : mid.realloc (growth reading.buffer).2 command
      (pointerSize * (reading.buffer * 2)) = (some newCommand, late))
    (ran : initialiseGrown (some newCommand) (some input) 1024
      (reading.buffer * 2 - reading.buffer * 2 / 2) (reading.buffer * 2 / 2) late = .ok after) :
    grow growth reading = .ok { reading with
      memory := after, input := some newInput, command := some newCommand
      buffer := reading.buffer * 2 } := by
  unfold CS421.Shell.grow
  rw [stored.inputIs, stored.commandIs, stored.testerIs]
  dsimp only [resize]
  rw [if_neg fits, inputCalled]
  dsimp only
  rw [commandCalled]
  dsimp only
  rw [ran]
  rfl

theorem Stored.grow_ends (stored : Stored growth typed doublings reading input command)
    (full : reading.count = reading.buffer)
    (inputSucceeds : (growth reading.buffer).1 ≠ .failed)
    (commandSucceeds : (growth reading.buffer).2 ≠ .failed)
    (fits : ¬ intMax < reading.buffer * 2) :
    ∃ next newInput newCommand, grow growth reading = .ok next ∧
      Since reading.memory next.memory Access.Inside ∧ next.count < next.buffer ∧
      Stored growth typed (doublings + 1) next newInput newCommand := by
  obtain ⟨least, larger⟩ := stored.larger
  obtain ⟨newInput, mid, newCommand, late, after, inputCalled, commandCalled, ran, grown,
    whenMoved, whenStays⟩ := stored.resize_both inputSucceeds commandSucceeds
  refine ⟨{ reading with
    memory := after, input := some newInput, command := some newCommand
    buffer := reading.buffer * 2 }, newInput, newCommand,
    stored.grow_eq fits inputCalled commandCalled ran, grown.since, ?_, ?_⟩
  · show reading.count < reading.buffer * 2
    omega
  · have counted := stored.counted
    have room : reading.count ≤ reading.memory.size input := by
      rw [stored.inputRoom, pointerSize]
      omega
    exact {
      inputIs := rfl
      commandIs := rfl
      apart := grown.apart
      inputLive := grown.inputLive
      commandLive := grown.commandLive
      inputRoom := grown.inputRoom
      commandRoom := grown.commandRoom
      testerIs := stored.testerIs
      counted := counted
      bufferIs := by
        rw [bufferAfter_succ, ← stored.bufferIs]
      passed := by
        intro earlier before
        rcases Nat.lt_succ_iff_lt_or_eq.mp before with passed | last
        · exact stored.passed earlier passed
        · rw [last, ← stored.bufferIs]
          exact Nat.le_of_eq full.symm
      fits := by
        show reading.count ≤ reading.buffer * 2
        omega
      kept := by
        intro index within moved
        have before := stored.kept index within fun late earlier positive passed =>
          moved late earlier positive (Nat.lt_succ_of_lt passed)
        refine (grown.kept index (by omega) ?_).trans before
        intro ⟨stays, late⟩
        -- the place 1024 belongs to the line, so this is not the first doubling
        have positive : 1 ≤ doublings := by
          rcases Nat.eq_zero_or_pos doublings with first | positive
          · have small := stored.bufferIs
            rw [first, bufferAfter_zero] at small
            omega
          · exact positive
        have now := moved late doublings positive (Nat.lt_succ_self _)
        rw [← stored.bufferIs] at now
        exact whenMoved now stays
      struck := by
        intro earlier positive before stays
        by_cases same : newInput = input
        · exact grown.struck same
        · rcases Nat.lt_succ_iff_lt_or_eq.mp before with passed | last
          · have beyond := stored.beyond positive passed
            exact (grown.kept 1024 (by omega) fun both => same both.1).trans
              (stored.struck earlier positive passed stays)
          · rw [last, ← stored.bufferIs] at stays
            exact absurd (whenStays stays) same }

theorem Stored.grow_inputFails (stored : Stored growth typed doublings reading input command)
    (inputFails : (growth reading.buffer).1 = .failed)
    (commandSucceeds : (growth reading.buffer).2 ≠ .failed)
    (fits : ¬ intMax < reading.buffer * 2) :
    ∃ newCommand late after,
      reading.memory.realloc (growth reading.buffer).2 command (pointerSize * (reading.buffer * 2)) =
        (some newCommand, late) ∧
      initialiseGrown (some newCommand) (some input) 1024
        (reading.buffer * 2 - reading.buffer * 2 / 2) (reading.buffer * 2 / 2) late = .ok after ∧
      grow growth reading = .error (.exit 0 "Error: Unable to make bigger buffer\n"
        (release (some command) (release (some input) after))) ∧
      Since reading.memory after Access.Inside := by
  obtain ⟨least, larger⟩ := stored.larger
  have commandLarger := larger
  rw [← stored.commandRoom] at commandLarger
  obtain ⟨newCommand, late, commandCalled, resized, _, _⟩ :=
    Memory.realloc_resized stored.commandLive commandLarger commandSucceeds
  have inputBelow := reading.memory.liveBelow input stored.inputLive
  obtain ⟨_, _, inputSize, _⟩ := resized.others input inputBelow stored.apart
  rw [stored.inputRoom, pointerSize] at inputSize
  obtain ⟨after, ran, since, _⟩ :=
    initialiseGrown_doubled late (by omega) resized.room (show 1024 < late.size input by omega)
  refine ⟨newCommand, late, after, commandCalled, ran, ?_,
    (Since.of_accesses resized.accesses).trans since⟩
  unfold CS421.Shell.grow
  rw [stored.inputIs, stored.commandIs, stored.testerIs]
  dsimp only [resize]
  rw [if_neg fits, inputFails, Memory.realloc_failed]
  dsimp only
  rw [commandCalled]
  dsimp only
  rw [ran]
  rfl

theorem Stored.grow_commandFails (stored : Stored growth typed doublings reading input command)
    (commandFails : (growth reading.buffer).2 = .failed)
    (fits : ¬ intMax < reading.buffer * 2) :
    grow growth reading = .error (.crash .null
      (reading.memory.realloc (growth reading.buffer).1 input
        (pointerSize * (reading.buffer * 2))).2) := by
  obtain ⟨least, _⟩ := stored.larger
  unfold CS421.Shell.grow
  rw [stored.inputIs, stored.commandIs]
  dsimp only [resize]
  rw [if_neg fits, commandFails, Memory.realloc_failed]
  dsimp only
  rw [initialiseGrown_null _ (by omega)]

theorem Stored.grow (stored : Stored growth typed doublings reading input command)
    (full : reading.count = reading.buffer) :
    Traced reading.memory Reading.memory (grow growth reading)
      (GrowthFails (growth reading.buffer) reading.buffer)
      (fun next => next.count < next.buffer ∧
        ∃ newInput newCommand, Stored growth typed (doublings + 1) next newInput newCommand) := by
  by_cases fits : intMax < reading.buffer * 2
  · have long : 2 ^ 30 ≤ reading.buffer := by
      unfold intMax at fits
      omega
    unfold CS421.Shell.grow
    rw [if_pos fits]
    exact meets_error ⟨Since.refl _ _, .inl long⟩
  · by_cases commandFails : (growth reading.buffer).2 = .failed
    · rw [stored.grow_commandFails commandFails fits]
      exact meets_error
        ⟨Since.of_accesses (Memory.realloc_accesses _ _), .inr (.inr commandFails)⟩
    · by_cases inputFails : (growth reading.buffer).1 = .failed
      · obtain ⟨newCommand, _, _, _, _, ran, since⟩ :=
          stored.grow_inputFails inputFails commandFails fits
        rw [ran]
        exact meets_error ⟨(since.release (some input)).release (some command),
          .inr (.inl inputFails)⟩
      · obtain ⟨next, newInput, newCommand, ran, since, below, grown⟩ :=
          stored.grow_ends full inputFails commandFails fits
        rw [ran]
        exact meets_ok ⟨since, below, newInput, newCommand, grown⟩

theorem Stored.halts_of_growthFails
    (stored : Stored growth typed doublings reading input command)
    (full : reading.count = reading.buffer)
    (fails : GrowthFails (growth reading.buffer) reading.buffer) : Halts growth typed := by
  have length : typed.length = reading.buffer := stored.counted.symm.trans full
  rcases fails with long | failed
  · rw [← length] at long
    exact .inr (.inl long)
  · rw [stored.bufferIs] at failed
    refine .inr (.inr ⟨doublings, ?_, failed⟩)
    rw [length, stored.bufferIs]

theorem Stored.growIfFull (stored : Stored growth typed doublings reading input command) :
    Traced reading.memory Reading.memory (growIfFull growth reading) (Halts growth typed)
      (fun next => next.count < next.buffer ∧
        ∃ doublings input command, Stored growth typed doublings next input command) := by
  unfold CS421.Shell.growIfFull
  by_cases full : reading.count = reading.buffer
  · rw [if_pos full]
    refine (stored.grow full).imp (stored.halts_of_growthFails full) ?_
    intro next ⟨below, newInput, newCommand, again⟩
    exact ⟨below, doublings + 1, newInput, newCommand, again⟩
  · rw [if_neg full]
    have below := Nat.lt_of_le_of_ne stored.fits full
    exact meets_ok ⟨Since.refl _ _, below, doublings, input, command, stored⟩

theorem Ready.readChar_eq (ready : Ready growth typed doublings reading input command)
    (temp : UInt8) :
    CS421.Shell.readChar growth temp reading =
      CS421.Shell.growIfFull growth { reading with
        memory := reading.memory.setChar input reading.count temp
        count := reading.count + 1 } >>= CS421.Shell.terminate := by
  unfold CS421.Shell.readChar
  rw [ready.inputIs]
  rfl

theorem Ready.readChar (ready : Ready growth typed doublings reading input command) (temp : UInt8) :
    Traced reading.memory Reading.memory (readChar growth temp reading)
      (Halts growth (typed ++ [temp]))
      (fun next => ∃ doublings input command,
        Ready growth (typed ++ [temp]) doublings next input command) := by
  obtain ⟨wrote, stored⟩ := ready.store temp
  rw [ready.readChar_eq]
  refine (stored.growIfFull.after wrote).bind ?_
  intro next ⟨below, doublings, input, command, again⟩
  refine (again.terminate below).imp Or.inl ?_
  intro last readyAgain
  exact ⟨doublings, input, command, readyAgain⟩

theorem lineOf_newline (rest : List UInt8) : lineOf (newline :: rest) = [] := rfl

theorem lineOf_cons {temp : UInt8} (other : temp ≠ newline) (rest : List UInt8) :
    lineOf (temp :: rest) = temp :: lineOf rest := by
  simp [lineOf, other]

theorem restOf_cons {temp : UInt8} (other : temp ≠ newline) (rest : List UInt8) :
    restOf (temp :: rest) = restOf rest := by
  simp [restOf, other]

theorem Ready.readLoop (stream : List UInt8)
    (ready : Ready growth typed doublings reading input command) :
    Traced reading.memory (fun final => final.1.memory) (readLoop growth stream reading)
      (Halts growth (typed ++ lineOf stream))
      (fun final => final.2 = restOf stream ∧ ∃ doublings input command,
        Ready growth (typed ++ lineOf stream) doublings final.1 input command) := by
  induction stream generalizing typed doublings reading input command with
  | nil =>
      refine meets_ok ⟨Since.refl _ _, rfl, doublings, input, command, ?_⟩
      rw [lineOf, List.takeWhile_nil, List.append_nil]
      exact ready
  | cons temp rest ih =>
      unfold CS421.Shell.readLoop
      by_cases ends : temp = newline
      · rw [if_pos ends]
        refine meets_ok ⟨Since.refl _ _, ?_, doublings, input, command, ?_⟩
        · rw [ends]
          rfl
        · rw [ends, lineOf_newline, List.append_nil]
          exact ready
      · have whole : typed ++ temp :: lineOf rest = (typed ++ [temp]) ++ lineOf rest := by
          rw [List.append_assoc]
          rfl
        rw [if_neg ends, lineOf_cons ends, restOf_cons ends, whole]
        have turned := (ready.readChar temp).imp (fun halts => halts.longer (lineOf rest))
          (fun _ holds => holds)
        refine turned.bind ?_
        intro next ⟨doublings, input, command, readyAgain⟩
        exact ih readyAgain

end Turns

end CS421.Shell
