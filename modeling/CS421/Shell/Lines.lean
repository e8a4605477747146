/-
A whole line: the two blocks, the read loop, and what the buffer holds at its end.

The line survives as long as the input moves at every doubling after the first.
A block that grows in place loses the character at 1024.
-/

import CS421.Shell.Reading

set_option autoImplicit false

namespace CS421.Shell

open CS421.Outcomes
open Memory (Since Holds)

theorem initialise_ends {command input : Nat} (turns tester : Nat) (memory : Memory)
    (argRoom : tester + turns ≤ memory.size command / pointerSize)
    (charRoom : tester + turns ≤ memory.size input) :
    ∃ after, initialise (some command) (some input) turns tester memory = .ok after ∧
      Since memory after Access.Inside ∧ after.size = memory.size ∧ after.live = memory.live ∧
      (∀ index, (tester ≤ index ∧ index < tester + turns) ∨ memory.chars input index = 0 →
        after.chars input index = 0) := by
  induction turns generalizing tester memory with
  | zero =>
      refine ⟨memory, rfl, Since.refl _ _, rfl, rfl, ?_⟩
      intro index cleared
      rcases cleared with within | zero
      · omega
      · exact zero
  | succ turns ih =>
      let turned := (memory.setArg command tester none).setChar input tester 0
      obtain ⟨after, ran, since, sizes, live, cleared⟩ :=
        ih (tester + 1) turned
          (show tester + 1 + turns ≤ memory.size command / pointerSize by omega)
          (show tester + 1 + turns ≤ memory.size input by omega)
      refine ⟨after, ran, ?_, sizes, live, ?_⟩
      · refine Since.trans ?_ since
        refine Since.trans (Since.access rfl ?_) (Since.access rfl ?_)
        · show tester < memory.size command / pointerSize
          omega
        · show tester < memory.size input
          omega
      · intro index place
        by_cases here : index = tester
        · exact cleared index (.inr (by rw [here, Memory.setChar_here]))
        · refine cleared index ?_
          rcases place with within | zero
          · exact .inl ⟨by omega, by omega⟩
          · refine .inr ?_
            rw [Memory.setChar_elsewhere here, Memory.setArg_chars, zero]

def Allocations.Succeed (allocations : Allocations) : Prop :=
  allocations.command = true ∧ allocations.input = true ∧
    ∀ buffer, (allocations.growth buffer).1 ≠ .failed ∧ (allocations.growth buffer).2 ≠ .failed

theorem openLine_ends {allocations : Allocations} (memory : Memory)
    (commandGiven : allocations.command = true) (inputGiven : allocations.input = true) :
    ∃ reading input command, openLine allocations memory = .ok reading ∧
      Since memory reading.memory Access.Inside ∧
      Ready allocations.growth [] 0 reading input command := by
  obtain ⟨command, mid, commandCalled, commandLive, commandSize, midWrote, _⟩ :=
    Memory.malloc_succeeds memory (pointerSize * 1024)
  obtain ⟨input, late, inputCalled, inputLive, inputSize, lateWrote, others⟩ :=
    Memory.malloc_succeeds mid (pointerSize * 1024)
  obtain ⟨apart, commandStays, commandSame⟩ := others command commandLive
  rw [commandSize] at commandSame
  obtain ⟨after, ran, since, sizes, live, cleared⟩ :=
    initialise_ends 1024 0 late (by rw [commandSame, pointerSize]) (by rw [inputSize, pointerSize]; decide)
  refine ⟨{ memory := after, input := some input, command := some command, buffer := 1024
            count := 0, tester := 1024 }, input, command, ?_, ?_, ?_⟩
  · unfold openLine
    dsimp only
    rw [commandGiven, inputGiven, commandCalled]
    dsimp only
    rw [inputCalled]
    dsimp only
    rw [ran]
    rfl
  · exact (Since.of_accesses (lateWrote.trans midWrote)).trans since
  · exact {
      inputIs := rfl
      commandIs := rfl
      apart := apart.symm
      inputLive := by
        rw [live]
        exact inputLive
      commandLive := by
        rw [live]
        exact commandStays
      inputRoom := by rw [sizes, inputSize]
      commandRoom := by rw [sizes, commandSame]
      testerIs := rfl
      counted := rfl
      bufferIs := rfl
      passed := fun earlier before => absurd before (Nat.not_lt_zero _)
      fits := Nat.zero_le _
      kept := fun index within => absurd within (Nat.not_lt_zero _)
      struck := fun earlier _ before => absurd before (Nat.not_lt_zero _)
      below := show 0 < 1024 by decide
      ends := cleared 0 (.inl ⟨Nat.le_refl _, by decide⟩) }

def Allocations.Given (allocations : Allocations) : Prop :=
  allocations.command = true ∧ allocations.input = true

/-- The first turn of the loop goes through NULL before malloc is tested. -/
theorem openLine_fails {allocations : Allocations} (memory : Memory)
    (missing : ¬ allocations.Given) :
    ∃ left, openLine allocations memory = .error (.crash .null left) ∧
      Since memory left Access.Inside := by
  cases commandGiven : allocations.command with
  | false =>
      refine ⟨_, ?_, Since.of_accesses (Memory.malloc_accesses allocations.input (pointerSize * 1024))⟩
      unfold openLine
      dsimp only
      rw [commandGiven, Memory.malloc_failed]
      rfl
  | true =>
      have inputMissing : allocations.input = false :=
        Bool.eq_false_iff.mpr (fun inputGiven => missing ⟨commandGiven, inputGiven⟩)
      obtain ⟨command, mid, called, _, size, wrote, _⟩ :=
        Memory.malloc_succeeds memory (pointerSize * 1024)
      have inside : (0 : Nat) < mid.size command / pointerSize := by
        rw [size]
        decide
      refine ⟨mid.setArg command 0 none, ?_,
        (Since.of_accesses wrote).trans (Since.access rfl inside)⟩
      unfold openLine
      dsimp only
      rw [commandGiven, inputMissing, called]
      dsimp only
      rw [Memory.malloc_failed]
      rfl

theorem openLine_meets (allocations : Allocations) (memory : Memory) :
    Traced memory Reading.memory (openLine allocations memory) (¬ allocations.Given)
      (fun reading => ∃ input command, Ready allocations.growth [] 0 reading input command) := by
  by_cases given : allocations.Given
  · obtain ⟨reading, input, command, ran, since, ready⟩ := openLine_ends memory given.1 given.2
    rw [ran]
    exact meets_ok ⟨since, input, command, ready⟩
  · obtain ⟨left, ran, since⟩ := openLine_fails memory given
    rw [ran]
    exact meets_error ⟨since, given⟩

theorem readLine_meets (allocations : Allocations) (stream : List UInt8) (memory : Memory) :
    Traced memory (fun final => final.1.memory) (readLine allocations stream memory)
      (allocations.Succeed → Halts allocations.growth (lineOf stream))
      (fun final => final.2 = restOf stream ∧ ∃ doublings input command,
        Ready allocations.growth (lineOf stream) doublings final.1 input command) := by
  refine Traced.bind ((openLine_meets allocations memory).imp ?_ fun _ holds => holds) ?_
  · intro missing ⟨commandGiven, inputGiven, _⟩
    exact absurd ⟨commandGiven, inputGiven⟩ missing
  · intro reading ⟨input, command, ready⟩
    exact (ready.readLoop stream).imp (fun halts _ => halts) fun _ holds => holds

theorem not_halts {allocations : Allocations} {typed : List UInt8} (succeed : allocations.Succeed)
    (short : typed.length < 2 ^ 30) (noExit : ¬ exitText <+: typed) :
    ¬ Halts allocations.growth typed := by
  intro halts
  rcases halts with exits | long | ⟨doublings, _, failed⟩
  · exact noExit exits
  · exact absurd short (Nat.not_lt_of_le long)
  · obtain ⟨inputSucceeds, commandSucceeds⟩ := succeed.2.2 (bufferAfter doublings)
    rcases failed with inputFails | commandFails
    · exact inputSucceeds inputFails
    · exact commandSucceeds commandFails

theorem readLine_ends {allocations : Allocations} (stream : List UInt8) (memory : Memory)
    (succeed : allocations.Succeed) (short : (lineOf stream).length < 2 ^ 30)
    (noExit : ¬ exitText <+: lineOf stream) :
    ∃ reading doublings input command,
      readLine allocations stream memory = .ok (reading, restOf stream) ∧
      Ready allocations.growth (lineOf stream) doublings reading input command := by
  obtain ⟨final, ran, _, left, doublings, input, command, ready⟩ :=
    (readLine_meets allocations stream memory).ok_of_not_stopped fun _ stopped =>
      not_halts succeed short noExit (stopped.2 succeed)
  refine ⟨final.1, doublings, input, command, ?_, ready⟩
  rw [ran, ← left]

/-! ### The line in the buffer -/

def Intact (typed : List UInt8) (reading : Reading) : Prop :=
  ∃ input, reading.input = some input ∧ Holds reading.memory input 0 typed

theorem Ready.intact_iff {growth : Nat → Growth × Growth} {typed : List UInt8}
    {doublings input command : Nat} {reading : Reading}
    (ready : Ready growth typed doublings reading input command) (noNul : (0 : UInt8) ∉ typed) :
    Intact typed reading ↔ ∀ earlier, 1 ≤ earlier → bufferAfter earlier ≤ typed.length →
      (growth (bufferAfter earlier)).1 = .moved := by
  have counted := ready.counted
  have bufferIs := ready.bufferIs
  constructor
  · intro ⟨block, held, holds⟩ earlier positive reached
    rw [ready.inputIs] at held
    cases held
    by_contra stays
    have before : earlier < doublings := by
      rw [← bufferAfter_lt_iff, ← bufferIs]
      have below := ready.below
      omega
    have struck := ready.struck earlier positive before stays
    have beyond := ready.beyond positive before
    have within : 1024 < typed.length := by omega
    have char := holds.bytes 1024 within
    rw [Nat.zero_add, struck] at char
    rw [char] at noNul
    exact noNul (List.getElem_mem within)
  · intro moved
    refine ⟨input, ready.inputIs, ?_⟩
    exact {
      bytes := by
        intro index within
        rw [Nat.zero_add]
        refine ready.kept index within fun _ earlier positive before => ?_
        have passed := ready.passed earlier before
        exact moved earlier positive (by omega)
      noNul := noNul
      ends := by
        rw [Nat.zero_add, ← counted]
        exact ready.ends }

theorem lineOf_append {typed : List UInt8} (noNewline : newline ∉ typed) (rest : List UInt8) :
    lineOf (typed ++ newline :: rest) = typed ∧ restOf (typed ++ newline :: rest) = rest := by
  induction typed with
  | nil => exact ⟨rfl, rfl⟩
  | cons temp typed ih =>
      obtain ⟨first, others⟩ := List.ne_and_not_mem_of_not_mem_cons noNewline
      obtain ⟨same, left⟩ := ih others
      rw [List.cons_append, lineOf_cons first.symm, restOf_cons first.symm, same, left]
      exact ⟨rfl, rfl⟩

/-- The read loop keeps a line exactly when the input block moves at every doubling
after the first that the line is long enough for. -/
theorem line_intact_iff (typed : List UInt8) (noNul : (0 : UInt8) ∉ typed)
    (noNewline : newline ∉ typed) (short : typed.length < 2 ^ 30) (noExit : ¬ exitText <+: typed)
    (rest : List UInt8) (allocations : Allocations) (succeed : allocations.Succeed)
    (memory : Memory) :
    ∃ reading, readLine allocations (typed ++ newline :: rest) memory = .ok (reading, rest) ∧
      (Intact typed reading ↔ ∀ doublings, 1 ≤ doublings → bufferAfter doublings ≤ typed.length →
        (allocations.growth (bufferAfter doublings)).1 = .moved) := by
  obtain ⟨same, left⟩ := lineOf_append noNewline rest
  obtain ⟨reading, doublings, input, command, ran, ready⟩ :=
    readLine_ends (typed ++ newline :: rest) memory succeed (by rw [same]; exact short)
      (by rw [same]; exact noExit)
  rw [left] at ran
  rw [same] at ready
  exact ⟨reading, ran, ready.intact_iff noNul⟩

def stay : Allocations := ⟨true, true, fun _ => (.inPlace, .inPlace)⟩

theorem stay_succeeds : stay.Succeed := by
  have given : Growth.inPlace ≠ Growth.failed := by decide
  exact ⟨rfl, rfl, fun _ => ⟨given, given⟩⟩

theorem line_intact_iff_ls :
    ∃ reading, readLine stay ([108, 115] ++ [newline]) Memory.initial = .ok (reading, []) ∧
      Intact [108, 115] reading := by
  obtain ⟨reading, ran, intact⟩ := line_intact_iff [108, 115] (by decide) (by decide) (by decide)
    (by decide) [] stay stay_succeeds Memory.initial
  refine ⟨reading, ran, intact.mpr ?_⟩
  intro doublings positive reached
  have least := bufferAfter_least doublings
  exact absurd (Nat.le_trans least reached) (by decide)

theorem replicate_plain (length : Nat) :
    (0 : UInt8) ∉ List.replicate length (97 : UInt8) ∧
      newline ∉ List.replicate length (97 : UInt8) ∧
      ¬ exitText <+: List.replicate length (97 : UInt8) := by
  refine ⟨?_, ?_, ?_⟩
  · intro member
    exact absurd (List.eq_of_mem_replicate member) (by decide)
  · intro member
    exact absurd (List.eq_of_mem_replicate member) (by decide)
  · intro exits
    have first : (101 : UInt8) ∈ List.replicate length (97 : UInt8) := exits.mem (by decide)
    exact absurd (List.eq_of_mem_replicate first) (by decide)

/-- 2048 times a and a newline: the second doubling clears the character at 1024. -/
theorem second_doubling_strikes :
    (∃ reading, readLine stay (List.replicate 2048 97 ++ [newline]) Memory.initial =
        .ok (reading, []) ∧
      ∃ input, reading.input = some input ∧ reading.memory.chars input 1024 = 0) ∧
    ¬ ∀ (typed : List UInt8), (0 : UInt8) ∉ typed → newline ∉ typed → typed.length < 2 ^ 30 →
      ¬ exitText <+: typed → ∀ (rest : List UInt8) (allocations : Allocations),
      allocations.Succeed → ∀ (memory : Memory),
        ∃ reading, readLine allocations (typed ++ newline :: rest) memory = .ok (reading, rest) ∧
          Intact typed reading := by
  obtain ⟨noNul, noNewline, noExit⟩ := replicate_plain 2048
  have length : (List.replicate 2048 (97 : UInt8)).length = 2048 := List.length_replicate
  have short : (List.replicate 2048 (97 : UInt8)).length < 2 ^ 30 := by
    rw [length]
    decide
  obtain ⟨same, left⟩ := lineOf_append noNewline []
  obtain ⟨reading, doublings, input, command, ran, ready⟩ :=
    readLine_ends (List.replicate 2048 97 ++ [newline]) Memory.initial stay_succeeds
      (by rw [same]; exact short) (by rw [same]; exact noExit)
  rw [left] at ran
  rw [same] at ready
  have second : 1 < doublings := by
    rw [← bufferAfter_lt_iff, ← ready.bufferIs]
    have below := ready.below
    rw [ready.counted, length] at below
    exact below
  have struck := ready.struck 1 (Nat.le_refl 1) second (by decide)
  refine ⟨⟨reading, ran, input, ready.inputIs, struck⟩, ?_⟩
  intro intact
  obtain ⟨again, reran, kept⟩ := intact _ noNul noNewline short noExit [] stay stay_succeeds
    Memory.initial
  rw [ran] at reran
  cases reran
  have moved := (ready.intact_iff noNul).mp kept 1 (Nat.le_refl 1) (by rw [length]; decide)
  cases moved

end CS421.Shell
