/-
A doubling, for every outcome of its two calls of realloc.

The new elements are cleared before anything is tested, one of the two writes goes
through the old input pointer, and the frees of the error branch take the old
pointers too. Which blocks are live at those places is what decides.
-/

import CS421.Shell.Lines

set_option autoImplicit false

namespace CS421.Shell

open CS421.Outcomes
open Memory (Since)

def Access.Live : Access → Prop
  | .char _ _ _ live => live = true
  | .arg _ _ _ live => live = true
  | .free _ live => live = true

section Touches

variable {before middle after : Memory} {bad : Access} {good : Access → Prop}

def Touches (before after : Memory) (bad : Access) : Prop :=
  ∃ news, after.accesses = news ++ before.accesses ∧ bad ∈ news

theorem Touches.not_since (touches : Touches before after bad) (unsound : ¬ good bad) :
    ¬ Since before after good := by
  rintro ⟨news, wrote, sound⟩
  obtain ⟨others, same, member⟩ := touches
  have equal : news = others := List.append_cancel_right (wrote.symm.trans same)
  rw [← equal] at member
  exact unsound (sound bad member)

theorem Touches.later (touches : Touches before middle bad)
    (since : Since middle after good) : Touches before after bad := by
  obtain ⟨news, wrote, member⟩ := touches
  obtain ⟨more, wroteMore, _⟩ := since
  refine ⟨more ++ news, ?_, List.mem_append_right more member⟩
  rw [wroteMore, wrote, List.append_assoc]

theorem Touches.earlier (touches : Touches middle after bad) (since : Since before middle good) :
    Touches before after bad := by
  obtain ⟨news, wrote, member⟩ := touches
  obtain ⟨less, wroteLess, _⟩ := since
  refine ⟨news ++ less, ?_, List.mem_append_left less member⟩
  rw [wrote, wroteLess, List.append_assoc]

end Touches

theorem initialiseGrown_live {tempArr input tester : Nat} (turns tester2 : Nat) {memory after : Memory}
    (ran : initialiseGrown (some tempArr) (some input) tester turns tester2 memory = .ok after) :
    after.live = memory.live ∧ Since memory after (fun _ => True) ∧
      (tempArr ∈ memory.live → input ∈ memory.live → Since memory after Access.Live) ∧
      (input ∉ memory.live → 0 < turns →
        Touches memory after (.char input tester (memory.size input) false)) := by
  induction turns generalizing tester2 memory with
  | zero =>
      cases ran
      exact ⟨rfl, Since.refl _ _, fun _ _ => Since.refl _ _, fun _ turned => absurd turned (Nat.lt_irrefl 0)⟩
  | succ turns ih =>
      let turned := (memory.setArg tempArr tester2 none).setChar input tester 0
      have later : initialiseGrown (some tempArr) (some input) tester turns (tester2 + 1) turned =
          .ok after := ran
      obtain ⟨same, extends_it, lives, _⟩ := ih (tester2 + 1) later
      have goes : Since memory turned (fun _ => True) :=
        (Since.access rfl trivial).trans (Since.access rfl trivial)
      refine ⟨same, goes.trans extends_it, ?_, ?_⟩
      · intro arrLive inputLive
        have first : Since memory turned Access.Live :=
          (Since.access rfl (decide_eq_true arrLive)).trans
            (Since.access rfl (decide_eq_true inputLive))
        exact first.trans (lives arrLive inputLive)
      · intro released _
        have wrote : turned.accesses = [.char input tester (memory.size input) false,
            .arg tempArr tester2 (memory.size tempArr / pointerSize) (tempArr ∈ memory.live)] ++
              memory.accesses := by
          have flag : decide (input ∈ memory.live) = false := decide_eq_false released
          rw [← flag]
          rfl
        have touched : Touches memory turned (.char input tester (memory.size input) false) :=
          ⟨_, wrote, List.mem_cons_self⟩
        exact touched.later extends_it

/-- No write and no free of the step goes through NULL or a released block, and when
a call of realloc fails the shell exits without any block of the line. -/
def SafeGrowth (growth : Nat → Growth × Growth) (full : Reading) : Prop :=
  Meets (grow growth full)
      (fun stop => Since full.memory stop.memory Access.Live ∧ ∀ memory, stop ≠ .crash .null memory)
      (fun next => Since full.memory next.memory Access.Live) ∧
    (full.buffer * 2 ≤ intMax →
      (growth full.buffer).1 = .failed ∨ (growth full.buffer).2 = .failed →
      ∃ status printed memory, grow growth full = .error (.exit status printed memory) ∧
        ∀ block, block ∈ memory.live ↔
          block ∈ full.memory.live ∧ full.input ≠ some block ∧ full.command ≠ some block)

/-- What the two calls may come to: both leave their blocks, the array moves, or the
call for the input fails and the array stays. -/
def Tolerated (growth : Growth × Growth) : Prop :=
  growth = (.inPlace, .inPlace) ∨ growth = (.inPlace, .moved) ∨ growth = (.failed, .inPlace)

section Doubling

variable {growth : Nat → Growth × Growth} {typed : List UInt8} {doublings input command : Nat}
  {full : Reading}

theorem safeGrowth_overflow (tooLarge : intMax < full.buffer * 2) : SafeGrowth growth full := by
  refine ⟨?_, fun fits => absurd tooLarge (Nat.not_lt_of_le fits)⟩
  unfold grow
  rw [if_pos tooLarge]
  refine meets_error ⟨Since.refl _ _, ?_⟩
  intro memory same
  cases same

theorem Stored.unsafe_commandFails
    (stored : Stored growth typed doublings full input command)
    (fits : ¬ intMax < full.buffer * 2) (commandFails : (growth full.buffer).2 = .failed) :
    ¬ SafeGrowth growth full := by
  rintro ⟨safe, _⟩
  rw [stored.grow_commandFails commandFails fits] at safe
  exact safe.2 _ rfl

/-- Both calls succeed: the input is cleared through its old pointer. -/
theorem Stored.safe_iff_of_succeed
    (stored : Stored growth typed doublings full input command)
    (fits : ¬ intMax < full.buffer * 2) (inputSucceeds : (growth full.buffer).1 ≠ .failed)
    (commandSucceeds : (growth full.buffer).2 ≠ .failed) :
    SafeGrowth growth full ↔ (growth full.buffer).1 ≠ .moved := by
  have least := stored.larger.1
  obtain ⟨newInput, mid, newCommand, late, after, inputCalled, commandCalled, ran, grown, _, _⟩ :=
    stored.resize_both inputSucceeds commandSucceeds
  have midIs : mid = (full.memory.realloc _ input _).2 := (congrArg Prod.snd inputCalled).symm
  have lateIs : late = (mid.realloc _ command _).2 := (congrArg Prod.snd commandCalled).symm
  have inputKnown := full.memory.liveBelow input stored.inputLive
  have inputKnownMid : input < mid.fresh := by
    rw [midIs]
    exact Nat.lt_of_lt_of_le inputKnown (Memory.le_realloc_fresh _ _)
  have inputStays : input ∈ late.live ↔ (growth full.buffer).1 ≠ .moved := by
    rw [lateIs, Memory.mem_realloc_live inputKnownMid, midIs, Memory.mem_realloc_live inputKnown]
    constructor
    · intro both moved
      exact both.1.2 moved rfl
    · intro stays
      exact ⟨⟨stored.inputLive, fun moved => absurd moved stays⟩, fun _ => stored.apart⟩
  have untouched : late.accesses = full.memory.accesses := by
    rw [lateIs, Memory.realloc_accesses, midIs, Memory.realloc_accesses]
  obtain ⟨same, _, lives, dies⟩ := initialiseGrown_live _ _ ran
  have arrLive : newCommand ∈ late.live := same ▸ grown.commandLive
  have safe : SafeGrowth growth full ↔ Since full.memory after Access.Live := by
    unfold SafeGrowth
    rw [stored.grow_eq fits inputCalled commandCalled ran]
    refine and_iff_left (fun _ failed => ?_)
    rcases failed with inputFails | commandFails
    · exact absurd inputFails inputSucceeds
    · exact absurd commandFails commandSucceeds
  rw [safe, ← inputStays]
  constructor
  · intro since
    by_contra released
    have since_late : Since full.memory late Access.Live := Since.of_accesses untouched
    exact ((dies released (by omega)).earlier since_late).not_since Bool.false_ne_true since
  · intro inputLive
    exact (Since.of_accesses untouched).trans (lives arrLive inputLive)

theorem Stored.live_of_inputFails
    (stored : Stored growth typed doublings full input command) {newCommand : Nat}
    {late after : Memory}
    (commandCalled : full.memory.realloc (growth full.buffer).2 command
      (pointerSize * (full.buffer * 2)) = (some newCommand, late))
    (same : after.live = late.live) :
    late.accesses = full.memory.accesses ∧ input ∈ late.live ∧
      (command ∈ (after.free input).live ↔ (growth full.buffer).2 ≠ .moved) := by
  have lateIs : late = (full.memory.realloc _ command _).2 := (congrArg Prod.snd commandCalled).symm
  refine ⟨?_, ?_, ?_⟩
  · rw [lateIs, Memory.realloc_accesses]
  · rw [lateIs, Memory.mem_realloc_live (full.memory.liveBelow input stored.inputLive)]
    exact ⟨stored.inputLive, fun _ => stored.apart⟩
  · have freed : command ∈ (after.free input).live ↔ command ∈ late.live := by
      rw [← same]
      exact Finset.mem_erase.trans (and_iff_right stored.apart.symm)
    rw [freed, lateIs, Memory.mem_realloc_live (full.memory.liveBelow command stored.commandLive)]
    constructor
    · intro both moved
      exact both.2 moved rfl
    · intro stays
      exact ⟨stored.commandLive, fun moved => absurd moved stays⟩

/-- The call for the input fails and the array has moved: it is freed through its old
pointer. -/
theorem Stored.unsafe_commandMoved
    (stored : Stored growth typed doublings full input command)
    (fits : ¬ intMax < full.buffer * 2) (inputFails : (growth full.buffer).1 = .failed)
    (moved : (growth full.buffer).2 = .moved) : ¬ SafeGrowth growth full := by
  have commandSucceeds : (growth full.buffer).2 ≠ .failed := by
    rw [moved]
    decide
  obtain ⟨newCommand, late, after, commandCalled, ran, stopped, _⟩ :=
    stored.grow_inputFails inputFails commandSucceeds fits
  obtain ⟨same, goes, _, _⟩ := initialiseGrown_live _ _ ran
  obtain ⟨untouched, _, freed⟩ := stored.live_of_inputFails commandCalled same
  rintro ⟨safe, _⟩
  rw [stopped] at safe
  have wrong : decide (command ∈ (after.free input).live) = false :=
    decide_eq_false (fun live => freed.mp live moved)
  have bad : Touches (after.free input) ((after.free input).free command) (.free command false) :=
    ⟨[_], rfl, wrong ▸ List.mem_cons_self⟩
  have before : Since full.memory (after.free input) (fun _ => True) :=
    ((Since.of_accesses untouched).trans goes).trans (Since.access rfl trivial)
  exact (bad.earlier before).not_since Bool.false_ne_true safe.1

theorem Stored.safe_of_commandStays
    (stored : Stored growth typed doublings full input command)
    (fits : ¬ intMax < full.buffer * 2) (inputFails : (growth full.buffer).1 = .failed)
    (inPlace : (growth full.buffer).2 = .inPlace) : SafeGrowth growth full := by
  have commandSucceeds : (growth full.buffer).2 ≠ .failed := by
    rw [inPlace]
    decide
  have stays : (growth full.buffer).2 ≠ .moved := by
    rw [inPlace]
    decide
  obtain ⟨newCommand, late, after, commandCalled, ran, stopped, _⟩ :=
    stored.grow_inputFails inputFails commandSucceeds fits
  obtain ⟨same, _, lives, _⟩ := initialiseGrown_live _ _ ran
  obtain ⟨untouched, inputLive, freed⟩ := stored.live_of_inputFails commandCalled same
  have whole : late.live = full.memory.live ∧ newCommand = command := by
    rw [inPlace] at commandCalled
    cases commandCalled
    exact ⟨rfl, rfl⟩
  have arrLive : newCommand ∈ late.live := by
    rw [whole.1, whole.2]
    exact stored.commandLive
  refine ⟨?_, fun _ _ => ⟨_, _, _, stopped, ?_⟩⟩
  · rw [stopped]
    refine meets_error ⟨?_, fun memory crashed => by cases crashed⟩
    have cleared : Since full.memory after Access.Live :=
      (Since.of_accesses untouched).trans (lives arrLive inputLive)
    have inputFreed : Since after (after.free input) Access.Live :=
      Since.access rfl (decide_eq_true (same ▸ inputLive))
    exact (cleared.trans inputFreed).trans
      (Since.access rfl (decide_eq_true (freed.mpr stays)))
  · intro block
    rw [stored.inputIs, stored.commandIs]
    change block ∈ (after.live.erase input).erase command ↔ _
    rw [Finset.mem_erase, Finset.mem_erase, same, whole.1]
    constructor
    · rintro ⟨notCommand, notInput, live⟩
      exact ⟨live, fun is => notInput (Option.some.inj is).symm,
        fun is => notCommand (Option.some.inj is).symm⟩
    · rintro ⟨live, notInput, notCommand⟩
      exact ⟨fun is => notCommand (congrArg some is.symm),
        fun is => notInput (congrArg some is.symm), live⟩

theorem Stored.safe_iff_of_inputFails
    (stored : Stored growth typed doublings full input command)
    (fits : ¬ intMax < full.buffer * 2) (inputFails : (growth full.buffer).1 = .failed)
    (commandSucceeds : (growth full.buffer).2 ≠ .failed) :
    SafeGrowth growth full ↔ (growth full.buffer).2 ≠ .moved := by
  cases outcome : (growth full.buffer).2 with
  | failed => exact absurd outcome commandSucceeds
  | moved =>
      exact iff_of_false (stored.unsafe_commandMoved fits inputFails outcome) (not_not_intro rfl)
  | inPlace =>
      exact iff_of_true (stored.safe_of_commandStays fits inputFails outcome) (by decide)

theorem tolerated_iff (first second : Growth) : Tolerated (first, second) ↔
    second ≠ .failed ∧ (first ≠ .failed → first ≠ .moved) ∧ (first = .failed → second ≠ .moved) := by
  unfold Tolerated
  cases first <;> cases second <;> decide

theorem Stored.safe_iff (stored : Stored growth typed doublings full input command) :
    SafeGrowth growth full ↔ intMax < full.buffer * 2 ∨ Tolerated (growth full.buffer) := by
  by_cases fits : intMax < full.buffer * 2
  · exact iff_of_true (safeGrowth_overflow fits) (Or.inl fits)
  · rw [or_iff_right fits]
    change _ ↔ Tolerated ((growth full.buffer).1, (growth full.buffer).2)
    rw [tolerated_iff]
    by_cases commandFails : (growth full.buffer).2 = .failed
    · exact iff_of_false (stored.unsafe_commandFails fits commandFails)
        (fun asked => asked.1 commandFails)
    · rw [and_iff_right commandFails]
      by_cases inputFails : (growth full.buffer).1 = .failed
      · rw [stored.safe_iff_of_inputFails fits inputFails commandFails,
          and_iff_right (fun succeeds => absurd inputFails succeeds)]
        exact ⟨fun stays _ => stays, fun asked => asked inputFails⟩
      · rw [stored.safe_iff_of_succeed fits inputFails commandFails,
          and_iff_left (fun failed => absurd failed inputFails)]
        exact ⟨fun stays _ => stays, fun asked => asked inputFails⟩

end Doubling

/-- The loop has come through a part of the line and has stored the character that
fills the buffer. -/
def AtDoubling (allocations : Allocations) (memory : Memory) (full : Reading) : Prop :=
  ∃ typed temp reading stored, newline ∉ typed ∧ temp ≠ newline ∧
    readLine allocations typed memory = .ok (reading, []) ∧
    storeChar reading.input reading.count temp reading.memory = .ok stored ∧
    full = { reading with memory := stored, count := reading.count + 1 } ∧
    full.count = full.buffer

theorem readLine_append (allocations : Allocations) (memory : Memory) {typed : List UInt8}
    (noNewline : newline ∉ typed) (rest : List UInt8) :
    readLine allocations (typed ++ rest) memory =
      readLine allocations typed memory >>= fun final =>
        readLoop allocations.growth rest final.1 := by
  have loop : ∀ reading, readLoop allocations.growth (typed ++ rest) reading =
      readLoop allocations.growth typed reading >>= fun final =>
        readLoop allocations.growth rest final.1 := by
    induction typed with
    | nil => exact fun reading => rfl
    | cons temp typed ih =>
        intro reading
        obtain ⟨first, others⟩ := List.ne_and_not_mem_of_not_mem_cons noNewline
        rw [List.cons_append, readLoop, readLoop, if_neg first.symm, if_neg first.symm]
        cases readChar allocations.growth temp reading with
        | error stop => rfl
        | ok next => exact ih others next
  unfold readLine
  cases openLine allocations memory with
  | error stop => rfl
  | ok reading => exact loop reading

theorem lineOf_self {typed : List UInt8} (noNewline : newline ∉ typed) :
    lineOf typed = typed ∧ restOf typed = [] := by
  induction typed with
  | nil => exact ⟨rfl, rfl⟩
  | cons temp typed ih =>
      obtain ⟨first, others⟩ := List.ne_and_not_mem_of_not_mem_cons noNewline
      obtain ⟨same, left⟩ := ih others
      rw [lineOf_cons first.symm, restOf_cons first.symm, same, left]
      exact ⟨rfl, rfl⟩

theorem AtDoubling.stored {allocations : Allocations} {memory : Memory} {full : Reading}
    (doubling : AtDoubling allocations memory full) :
    ∃ typed doublings input command,
      Stored allocations.growth typed doublings full input command := by
  obtain ⟨typed, temp, reading, stored, noNewline, _, ran, wrote, rfl, _⟩ := doubling
  obtain ⟨_, _, doublings, input, command, ready⟩ :=
    (readLine_meets allocations typed memory).ends ran
  rw [(lineOf_self noNewline).1] at ready
  rw [ready.inputIs] at wrote
  cases wrote
  exact ⟨typed ++ [temp], doublings, input, command, (ready.store temp).2⟩

/-- A doubling is safe exactly when its two calls come to one of three of the nine
pairs of outcomes, or the new size is too large and none is made. -/
theorem safeGrowth_iff (allocations : Allocations) (memory : Memory) (full : Reading)
    (doubling : AtDoubling allocations memory full) :
    SafeGrowth allocations.growth full ↔
      intMax < full.buffer * 2 ∨ Tolerated (allocations.growth full.buffer) := by
  obtain ⟨typed, doublings, input, command, stored⟩ := doubling.stored
  exact stored.safe_iff

theorem exists_doubling {allocations : Allocations} (succeed : allocations.Succeed)
    (memory : Memory) : ∃ full, AtDoubling allocations memory full ∧ full.buffer = 1024 := by
  obtain ⟨_, noNewline, noExit⟩ := replicate_plain 1023
  obtain ⟨same, left⟩ := lineOf_self noNewline
  have length : (List.replicate 1023 (97 : UInt8)).length = 1023 := List.length_replicate
  have short : (List.replicate 1023 (97 : UInt8)).length < 2 ^ 30 := by
    rw [length]
    decide
  obtain ⟨reading, doublings, input, command, ran, ready⟩ :=
    readLine_ends (List.replicate 1023 97) memory succeed (same.symm ▸ short) (same.symm ▸ noExit)
  rw [left] at ran
  rw [same] at ready
  have counted := ready.counted
  rw [length] at counted
  have bufferIs : reading.buffer = 1024 := by
    cases doublings with
    | zero => exact ready.bufferIs
    | succ before =>
        have passed := ready.passed 0 (Nat.succ_pos before)
        rw [bufferAfter_zero] at passed
        omega
  refine ⟨_, ⟨List.replicate 1023 97, 97, reading, _, noNewline, by decide, ran,
    congrArg (fun place => storeChar place reading.count 97 reading.memory) ready.inputIs, rfl, ?_⟩,
    bufferIs⟩
  change reading.count + 1 = reading.buffer
  omega

def inputMoves : Allocations := ⟨true, true, fun _ => (.moved, .inPlace)⟩

theorem inputMoves_succeeds : inputMoves.Succeed := by
  have moved : Growth.moved ≠ Growth.failed := by decide
  have given : Growth.inPlace ≠ Growth.failed := by decide
  exact ⟨rfl, rfl, fun _ => ⟨moved, given⟩⟩

theorem safeGrowth_iff_stay :
    ∃ full, AtDoubling stay Memory.initial full ∧ SafeGrowth stay.growth full := by
  obtain ⟨full, doubling, _⟩ := exists_doubling stay_succeeds Memory.initial
  exact ⟨full, doubling,
    (safeGrowth_iff stay Memory.initial full doubling).mpr (Or.inr (Or.inl rfl))⟩

/-- A line of 1024 characters, and realloc moves the input: it is cleared through
the block that the call has released. -/
theorem moved_input_cleared :
    ¬ ∀ (allocations : Allocations) (memory : Memory) (full : Reading),
      AtDoubling allocations memory full → SafeGrowth allocations.growth full := by
  intro safe
  obtain ⟨full, doubling, bufferIs⟩ := exists_doubling inputMoves_succeeds Memory.initial
  obtain ⟨typed, doublings, input, command, stored⟩ := doubling.stored
  rcases stored.safe_iff.mp (safe inputMoves Memory.initial full doubling) with
    tooLarge | same | same | same
  · rw [bufferIs] at tooLarge
    exact absurd tooLarge (by decide)
  · cases same
  · cases same
  · cases same

end CS421.Shell
