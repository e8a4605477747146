/-
When the read loop stops the shell, and how.

The loop stops at the first prefix of the line that gives it a reason: the word
exit, a doubling that fails, or one that is too large. Which it is decides whether
the shell exits or crashes. A line that gives no reason is read to its end.
-/

import CS421.Shell.Lines

set_option autoImplicit false

namespace CS421.Shell

open CS421.Outcomes

def Stop.IsExit : Stop → Prop
  | .exit _ _ _ => True
  | .crash _ _ => False

def Doubles (growth : Nat → Growth × Growth) (doubling : Nat) : Prop :=
  (growth (bufferAfter doubling)).1 ≠ .failed ∧ (growth (bufferAfter doubling)).2 ≠ .failed

def FailsAtInput (growth : Nat → Growth × Growth) (doubling : Nat) : Prop :=
  bufferAfter doubling * 2 ≤ intMax ∧ (growth (bufferAfter doubling)).1 = .failed ∧
    (growth (bufferAfter doubling)).2 ≠ .failed ∧ ∀ earlier, earlier < doubling → Doubles growth earlier

/-- The line has the shell exit, which is one way to halt. -/
def Exits (growth : Nat → Growth × Growth) (typed : List UInt8) : Prop :=
  exitText <+: typed ∨
    ∃ doubling, bufferAfter doubling ≤ typed.length ∧ FailsAtInput growth doubling

section Halting

variable {growth : Nat → Growth × Growth} {typed : List UInt8} {doublings input command : Nat}
  {reading : Reading} {temp : UInt8}

theorem Exits.halts (exits : Exits growth typed) : Halts growth typed := by
  rcases exits with word | ⟨doubling, reached, fails⟩
  · exact Or.inl word
  · exact Or.inr (Or.inr ⟨doubling, reached, Or.inl fails.2.1⟩)

theorem not_halts_iff : ¬ Halts growth typed ↔
    ¬ exitText <+: typed ∧ typed.length < 2 ^ 30 ∧
      ∀ doubling, bufferAfter doubling ≤ typed.length → Doubles growth doubling := by
  unfold Halts Doubles
  constructor
  · intro goes
    refine ⟨fun word => goes (Or.inl word), ?_, fun doubling reached => ⟨?_, ?_⟩⟩
    · exact Nat.lt_of_not_le (fun long => goes (Or.inr (Or.inl long)))
    · exact fun fails => goes (Or.inr (Or.inr ⟨doubling, reached, Or.inl fails⟩))
    · exact fun fails => goes (Or.inr (Or.inr ⟨doubling, reached, Or.inr fails⟩))
  · rintro ⟨noWord, short, doubles⟩ (word | long | ⟨doubling, reached, fails⟩)
    · exact noWord word
    · exact absurd short (Nat.not_lt_of_le long)
    · obtain ⟨first, second⟩ := doubles doubling reached
      exact fails.elim first second

theorem bufferAfter_le_iff (left right : Nat) : bufferAfter left ≤ bufferAfter right ↔ left ≤ right := by
  rw [← Nat.not_lt, bufferAfter_lt_iff, Nat.not_lt]

theorem Halts.exits_iff (halts : Halts growth typed) (more : List UInt8) :
    Exits growth (typed ++ more) ↔ Exits growth typed := by
  constructor
  · rintro (word | ⟨doubling, reached, fails⟩)
    · have long : exitText.length ≤ typed.length := by
        rcases halts with word | long | ⟨doubling, reached, _⟩
        · exact word.length_le
        · exact Nat.le_trans (by decide) long
        · exact Nat.le_trans (by decide) (Nat.le_trans (bufferAfter_least doubling) reached)
      exact Or.inl (List.prefix_of_prefix_length_le word (List.prefix_append typed more) long)
    · rcases halts with word | long | ⟨other, passed, failed⟩
      · exact Or.inl word
      · refine Or.inr ⟨doubling, ?_, fails⟩
        have fits := fails.1
        unfold intMax at fits
        omega
      · refine Or.inr ⟨doubling, Nat.le_trans ((bufferAfter_le_iff _ _).mpr ?_) passed, fails⟩
        refine Nat.le_of_not_lt (fun before => ?_)
        obtain ⟨first, second⟩ := fails.2.2.2 other before
        exact failed.elim first second
  · rintro (word | ⟨doubling, reached, fails⟩)
    · exact Or.inl (word.trans (List.prefix_append typed more))
    · refine Or.inr ⟨doubling, ?_, fails⟩
      rw [List.length_append]
      omega

theorem Ready.reached_iff (ready : Ready growth typed doublings reading input command)
    (doubling : Nat) : bufferAfter doubling ≤ typed.length ↔ doubling < doublings := by
  have counted := ready.counted
  have below := ready.below
  have bufferIs := ready.bufferIs
  constructor
  · intro reached
    rw [← bufferAfter_lt_iff, ← bufferIs]
    omega
  · intro before
    rw [← counted]
    exact ready.passed doubling before

theorem Ready.reached_next_iff (ready : Ready growth typed doublings reading input command)
    (temp : UInt8) (doubling : Nat) :
    bufferAfter doubling ≤ (typed ++ [temp]).length ↔
      doubling < doublings ∨ (reading.count + 1 = reading.buffer ∧ doubling = doublings) := by
  have counted := ready.counted
  have below := ready.below
  have bufferIs := ready.bufferIs
  rw [List.length_append, List.length_singleton, ← ready.reached_iff, ← counted]
  constructor
  · intro reached
    rcases Nat.lt_or_ge reading.count (bufferAfter doubling) with beyond | before
    · have atMost : doubling ≤ doublings := by
        rw [← bufferAfter_le_iff, ← bufferIs]
        omega
      have atLeast : ¬ doubling < doublings := by
        rw [← ready.reached_iff, ← counted]
        omega
      have last : doubling = doublings := Nat.le_antisymm atMost (Nat.le_of_not_lt atLeast)
      refine Or.inr ⟨?_, last⟩
      rw [last, ← bufferIs] at reached
      omega
    · exact Or.inl before
  · rintro (before | ⟨full, rfl⟩)
    · exact Nat.le_succ_of_le before
    · rw [← bufferIs]
      exact Nat.le_of_eq full.symm

theorem Ready.exits_next_iff (ready : Ready growth typed doublings reading input command)
    (goes : ¬ Halts growth typed) (full : reading.count + 1 = reading.buffer) :
    Exits growth (typed ++ [temp]) ↔ reading.buffer * 2 ≤ intMax ∧
      (growth reading.buffer).1 = .failed ∧ (growth reading.buffer).2 ≠ .failed := by
  obtain ⟨noWord, _, doubles⟩ := not_halts_iff.mp goes
  have bufferIs := ready.bufferIs
  have counted := ready.counted
  have earlier : ∀ doubling, doubling < doublings → Doubles growth doubling :=
    fun doubling before => doubles doubling ((ready.reached_iff doubling).mpr before)
  constructor
  · rintro (word | ⟨doubling, reached, fails⟩)
    · rcases List.prefix_concat_iff.mp word with same | within
      · have long := congrArg List.length same
        have least := bufferAfter_least doublings
        rw [List.length_append, List.length_singleton, ← counted, full, bufferIs] at long
        rw [← long] at least
        exact absurd least (by decide)
      · exact absurd within noWord
    · rcases (ready.reached_next_iff temp doubling).mp reached with before | ⟨_, rfl⟩
      · exact absurd fails.2.1 (earlier doubling before).1
      · rw [bufferIs]
        exact ⟨fails.1, fails.2.1, fails.2.2.1⟩
  · rintro ⟨fits, inputFails, commandSucceeds⟩
    rw [bufferIs] at fits inputFails commandSucceeds
    exact Or.inr ⟨doublings, (ready.reached_next_iff temp doublings).mpr (Or.inr ⟨full, rfl⟩),
      fits, inputFails, commandSucceeds, earlier⟩

/-- How a step stops the shell, and that it goes on where nothing halts it. -/
def Decides (growth : Nat → Growth × Growth) (typed : List UInt8) {Value : Type}
    (result : Except Stop Value) : Prop :=
  Meets result (fun stop => Halts growth typed ∧ (stop.IsExit ↔ Exits growth typed))
    (fun _ => ¬ Halts growth typed)

section Decides

variable {Value : Type} {result : Except Stop Value}

theorem Decides.exits_iff (decides : Decides growth typed result) :
    (∃ stop, result = .error stop ∧ stop.IsExit) ↔ Exits growth typed := by
  cases result with
  | error stop =>
      obtain ⟨_, exits⟩ := decides
      constructor
      · rintro ⟨_, ⟨⟩, exit⟩
        exact exits.mp exit
      · exact fun holds => ⟨stop, rfl, exits.mpr holds⟩
  | ok value =>
      have goes : ¬ Halts growth typed := decides
      constructor
      · rintro ⟨_, ⟨⟩, _⟩
      · exact fun exits => absurd exits.halts goes

theorem Decides.ends_iff (decides : Decides growth typed result) :
    (∃ value, result = .ok value) ↔ ¬ Halts growth typed := by
  cases result with
  | error stop =>
      obtain ⟨halts, _⟩ := decides
      refine iff_of_false ?_ (not_not_intro halts)
      rintro ⟨_, ⟨⟩⟩
  | ok value => exact iff_of_true ⟨value, rfl⟩ decides

end Decides

theorem Ready.word_equal (ready : Ready growth exitText doublings reading input command) :
    strcmpEqual (reading.memory.chars input) 0 exitText = true := by
  refine (strcmpEqual_iff _ 0 exitText).mpr ⟨?_, ?_⟩
  · intro index within
    have early : index ≠ 1024 := Nat.ne_of_lt (Nat.lt_of_lt_of_le within (by decide))
    rw [Nat.zero_add]
    exact ready.kept index within fun late => absurd late early
  · have ends := ready.ends
    rw [ready.counted] at ends
    rw [Nat.zero_add]
    exact ends

/-- The comparison with the word, on a line that has no other reason to halt. -/
theorem Stored.terminate_decides
    (stored : Stored growth (typed ++ [temp]) doublings reading input command)
    (below : reading.count < reading.buffer) (noWord : ¬ exitText <+: typed)
    (short : (typed ++ [temp]).length < 2 ^ 30)
    (doubles : ∀ doubling, bufferAfter doubling ≤ (typed ++ [temp]).length →
      Doubles growth doubling) :
    Decides growth (typed ++ [temp]) (CS421.Shell.terminate reading) := by
  obtain ⟨_, ready⟩ := stored.ready below
  unfold CS421.Shell.terminate
  rw [stored.inputIs]
  dsimp only
  split
  · rename_i equal
    have word := ready.exit_prefix equal
    exact meets_error ⟨Or.inl word, iff_of_true trivial (Or.inl word)⟩
  · rename_i different
    refine meets_ok (not_halts_iff.mpr ⟨fun word => ?_, short, doubles⟩)
    rcases List.prefix_concat_iff.mp word with same | within
    · rw [← same] at ready
      exact different ready.word_equal
    · exact noWord within

theorem Ready.doubles_next (ready : Ready growth typed doublings reading input command)
    (doubles : ∀ doubling, bufferAfter doubling ≤ typed.length → Doubles growth doubling)
    (atFull : reading.count + 1 = reading.buffer → Doubles growth doublings) :
    ∀ doubling, bufferAfter doubling ≤ (typed ++ [temp]).length → Doubles growth doubling := by
  intro doubling reached
  rcases (ready.reached_next_iff temp doubling).mp reached with before | ⟨full, rfl⟩
  · exact doubles doubling ((ready.reached_iff doubling).mpr before)
  · exact atFull full

theorem Ready.grow_decides (ready : Ready growth typed doublings reading input command)
    (goes : ¬ Halts growth typed) (full : reading.count + 1 = reading.buffer) {stored : Reading}
    (storedIs : stored.buffer = reading.buffer) (countIs : stored.count = reading.count + 1)
    (kept : Stored growth (typed ++ [temp]) doublings stored input command) :
    Decides growth (typed ++ [temp])
      (CS421.Shell.grow growth stored >>= CS421.Shell.terminate) := by
  obtain ⟨noWord, _, doubles⟩ := not_halts_iff.mp goes
  have exits_iff : Exits growth (typed ++ [temp]) ↔ _ := ready.exits_next_iff goes full
  rw [← storedIs] at exits_iff
  have atFull : stored.count = stored.buffer := by rw [countIs, storedIs, full]
  by_cases fits : intMax < stored.buffer * 2
  · have long : 2 ^ 30 ≤ stored.buffer := by
      unfold intMax at fits
      omega
    unfold CS421.Shell.grow
    rw [if_pos fits]
    exact meets_error ⟨kept.halts_of_growthFails atFull (Or.inl long),
      iff_of_false id (fun exits => Nat.not_le_of_lt fits (exits_iff.mp exits).1)⟩
  · by_cases commandFails : (growth stored.buffer).2 = .failed
    · rw [kept.grow_commandFails commandFails fits]
      exact meets_error ⟨kept.halts_of_growthFails atFull (Or.inr (Or.inr commandFails)),
        iff_of_false id (fun exits => (exits_iff.mp exits).2.2 commandFails)⟩
    · by_cases inputFails : (growth stored.buffer).1 = .failed
      · obtain ⟨_, _, _, _, _, ran, _⟩ := kept.grow_inputFails inputFails commandFails fits
        rw [ran]
        exact meets_error ⟨kept.halts_of_growthFails atFull (Or.inr (Or.inl inputFails)),
          iff_of_true trivial (exits_iff.mpr ⟨Nat.le_of_not_lt fits, inputFails, commandFails⟩)⟩
      · obtain ⟨next, newInput, newCommand, ran, _, below, again⟩ :=
          kept.grow_ends atFull inputFails commandFails fits
        rw [ran]
        refine again.terminate_decides below noWord ?_ (ready.doubles_next doubles fun _ => ?_)
        · rw [← kept.counted, atFull]
          unfold intMax at fits
          omega
        · rw [kept.bufferIs] at inputFails commandFails
          exact ⟨inputFails, commandFails⟩

theorem Ready.readChar_decides (ready : Ready growth typed doublings reading input command)
    (goes : ¬ Halts growth typed) (temp : UInt8) :
    Decides growth (typed ++ [temp]) (CS421.Shell.readChar growth temp reading) := by
  obtain ⟨noWord, short, doubles⟩ := not_halts_iff.mp goes
  obtain ⟨_, stored⟩ := ready.store temp
  rw [ready.readChar_eq]
  unfold CS421.Shell.growIfFull
  by_cases full : reading.count + 1 = reading.buffer
  · rw [if_pos full]
    exact ready.grow_decides goes full rfl rfl stored
  · rw [if_neg full]
    have below : reading.count + 1 < reading.buffer := Nat.lt_of_le_of_ne ready.below full
    refine stored.terminate_decides below noWord ?_
      (ready.doubles_next doubles fun atFull => absurd atFull full)
    -- 2 ^ 30 is the size of a buffer, and a line comes to it with the buffer full
    have notReached : ¬ bufferAfter 20 ≤ (typed ++ [temp]).length := by
      rw [ready.reached_next_iff]
      rintro (before | ⟨atFull, _⟩)
      · exact absurd ((ready.reached_iff 20).mpr before) (Nat.not_le_of_lt short)
      · exact full atFull
    exact Nat.lt_of_not_le notReached

/-- The loop stops the shell exactly when the line halts, and with an exit exactly
when the line has one. -/
theorem Ready.readLoop_decides (stream : List UInt8)
    (ready : Ready growth typed doublings reading input command) (goes : ¬ Halts growth typed) :
    Decides growth (typed ++ lineOf stream) (CS421.Shell.readLoop growth stream reading) := by
  induction stream generalizing typed doublings reading input command with
  | nil =>
      rw [lineOf, List.takeWhile_nil, List.append_nil]
      exact meets_ok goes
  | cons temp rest ih =>
      unfold CS421.Shell.readLoop
      by_cases ends : temp = newline
      · rw [if_pos ends, ends, lineOf_newline, List.append_nil]
        exact meets_ok goes
      · have whole : typed ++ temp :: lineOf rest = (typed ++ [temp]) ++ lineOf rest := by
          rw [List.append_assoc]
          rfl
        rw [if_neg ends, lineOf_cons ends, whole]
        have turned := ready.readChar_decides goes temp
        have readyAgain := ready.readChar temp
        cases ran : CS421.Shell.readChar growth temp reading with
        | error stop =>
            rw [ran] at turned
            obtain ⟨halts, exits⟩ := turned
            exact meets_error ⟨halts.longer (lineOf rest), exits.trans (halts.exits_iff _).symm⟩
        | ok next =>
            rw [ran] at turned readyAgain
            obtain ⟨_, doublings, input, command, again⟩ := readyAgain
            exact ih again turned

theorem not_halts_nil : ¬ Halts growth [] := by
  rintro (word | long | ⟨doubling, reached, _⟩)
  · exact absurd word.length_le (by decide)
  · exact absurd long (by decide)
  · exact absurd (Nat.le_trans (bufferAfter_least doubling) reached) (by decide)

end Halting

section Lines

variable {allocations : Allocations}

theorem readLine_decides (stream : List UInt8) (memory : Memory) (given : allocations.Given) :
    Decides allocations.growth (lineOf stream) (readLine allocations stream memory) := by
  obtain ⟨reading, input, command, opened, _, ready⟩ := openLine_ends memory given.1 given.2
  unfold readLine
  rw [opened]
  exact ready.readLoop_decides stream not_halts_nil

theorem readLine_crashes (stream : List UInt8) (memory : Memory) (missing : ¬ allocations.Given) :
    ∃ left, readLine allocations stream memory = .error (.crash .null left) := by
  obtain ⟨left, crashed, _⟩ := openLine_fails memory missing
  refine ⟨left, ?_⟩
  unfold readLine
  rw [crashed]
  rfl

theorem readLine_exits_iff (stream : List UInt8) (memory : Memory) :
    (∃ stop, readLine allocations stream memory = .error stop ∧ stop.IsExit) ↔
      allocations.Given ∧ Exits allocations.growth (lineOf stream) := by
  by_cases given : allocations.Given
  · rw [(readLine_decides stream memory given).exits_iff, and_iff_right given]
  · obtain ⟨left, crashed⟩ := readLine_crashes stream memory given
    refine iff_of_false ?_ fun both => given both.1
    rintro ⟨stop, stopped, exit⟩
    rw [crashed] at stopped
    cases stopped
    exact exit

theorem readLine_ends_iff (stream : List UInt8) (memory : Memory) :
    (∃ final, readLine allocations stream memory = .ok final) ↔
      allocations.Given ∧ ¬ Halts allocations.growth (lineOf stream) := by
  by_cases given : allocations.Given
  · rw [(readLine_decides stream memory given).ends_iff, and_iff_right given]
  · obtain ⟨left, crashed⟩ := readLine_crashes stream memory given
    refine iff_of_false ?_ fun both => given both.1
    rintro ⟨final, ended⟩
    rw [crashed] at ended
    cases ended

theorem exits_iff_of_succeed {typed : List UInt8} (succeed : allocations.Succeed) :
    Exits allocations.growth typed ↔ exitText <+: typed := by
  refine or_iff_left ?_
  rintro ⟨doubling, _, fails⟩
  exact (succeed.2.2 (bufferAfter doubling)).1 fails.2.1

end Lines

end CS421.Shell
