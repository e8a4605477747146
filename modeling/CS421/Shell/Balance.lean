/-
The heap of the shell over a whole run, and what its children find.

Each line takes two blocks, which may move while they grow, and gives them back. So
the blocks in use between two lines are those in use before the first, and no block
is freed twice, however many lines there were. Each child finds the words of its line
in its array.
-/

import CS421.Shell.EndOfInput
import Mathlib.Data.Finset.Basic

set_option autoImplicit false

namespace CS421.Shell

open CS421.Outcomes
open Memory (Holds Since)

def Access.IsWrite : Access → Prop
  | .char _ _ _ _ | .arg _ _ _ _ => True
  | .free _ _ => False

def Access.Sound : Access → Prop
  | .char _ _ _ _ | .arg _ _ _ _ => True
  | .free _ live => live = true

theorem Access.IsWrite.sound {access : Access} (write : access.IsWrite) : access.Sound := by
  cases access with
  | char => trivial
  | arg => trivial
  | free => exact write.elim

structure Written (before after : Memory) : Prop where
  live : after.live = before.live
  fresh : after.fresh = before.fresh
  writes : Since before after Access.IsWrite

/-- In use are the blocks of the heap before the line, and the two of the line. -/
structure Takes (base memory : Memory) (input command : Nat) : Prop where
  live : memory.live = insert input (insert command base.live)
  inputNew : input ∉ insert command base.live
  commandNew : command ∉ base.live
  later : base.fresh ≤ memory.fresh
  writes : Since base memory Access.IsWrite

def Borrows (base : Memory) (reading : Reading) : Prop :=
  ∃ input command, reading.input = some input ∧ reading.command = some command ∧
    Takes base reading.memory input command

section Blocks

variable {base before memory after : Memory} {input command block bytes : Nat} {growth : Growth}

theorem Since.imp {good other : Access → Prop} (since : Since before after good)
    (weaker : ∀ access, good access → other access) : Since before after other := by
  obtain ⟨news, wrote, sound⟩ := since
  exact ⟨news, wrote, fun access member => weaker access (sound access member)⟩

theorem written_refl (memory : Memory) : Written memory memory := ⟨rfl, rfl, Since.refl _ _⟩

theorem Written.trans (first : Written before memory) (second : Written memory after) :
    Written before after :=
  ⟨second.live.trans first.live, second.fresh.trans first.fresh, first.writes.trans second.writes⟩

theorem setChar_written (memory : Memory) (block index : Nat) (char : UInt8) :
    Written memory (memory.setChar block index char) :=
  ⟨rfl, rfl, Since.access rfl trivial⟩

theorem setArg_written (memory : Memory) (block index : Nat) (arg : Pointer) :
    Written memory (memory.setArg block index arg) :=
  ⟨rfl, rfl, Since.access rfl trivial⟩

theorem Takes.written (takes : Takes base before input command) (written : Written before after) :
    Takes base after input command where
  live := written.live.trans takes.live
  inputNew := takes.inputNew
  commandNew := takes.commandNew
  later := takes.later.trans (Nat.le_of_eq written.fresh.symm)
  writes := takes.writes.trans written.writes

theorem fresh_notMem (later : base.fresh ≤ memory.fresh) : memory.fresh ∉ base.live := by
  intro member
  have below := base.liveBelow memory.fresh member
  omega

theorem Takes.resizeInput (takes : Takes base memory input command) {new : Nat}
    (resized : memory.realloc growth input bytes = (some new, after)) :
    Takes base after new command := by
  cases growth with
  | failed => cases resized
  | inPlace =>
      cases resized
      exact takes.written ⟨rfl, rfl, Since.of_accesses rfl⟩
  | moved =>
      cases resized
      have known : memory.fresh ∉ memory.live := fresh_notMem (Nat.le_refl _)
      rw [takes.live] at known
      refine ⟨?_, fun member => known (Finset.mem_insert_of_mem member), takes.commandNew,
        Nat.le_succ_of_le takes.later, takes.writes.trans (Since.of_accesses rfl)⟩
      change insert memory.fresh (memory.live.erase input) = _
      rw [takes.live, Finset.erase_insert takes.inputNew]

theorem Takes.resizeCommand (takes : Takes base memory input command) {new : Nat}
    (resized : memory.realloc growth command bytes = (some new, after)) :
    Takes base after input new := by
  cases growth with
  | failed => cases resized
  | inPlace =>
      cases resized
      exact takes.written ⟨rfl, rfl, Since.of_accesses rfl⟩
  | moved =>
      cases resized
      have apart : command ≠ input := fun same =>
        takes.inputNew (same ▸ Finset.mem_insert_self command base.live)
      have inputUsed : input ∈ memory.live := takes.live ▸ Finset.mem_insert_self _ _
      have inputOther : input ≠ memory.fresh := Nat.ne_of_lt (memory.liveBelow input inputUsed)
      have inputNew : input ∉ base.live := fun member =>
        takes.inputNew (Finset.mem_insert_of_mem member)
      refine ⟨?_, ?_, fresh_notMem takes.later, Nat.le_succ_of_le takes.later,
        takes.writes.trans (Since.of_accesses rfl)⟩
      · change insert memory.fresh (memory.live.erase command) = _
        rw [takes.live, Finset.erase_insert_of_ne apart.symm, Finset.erase_insert takes.commandNew,
          Finset.insert_comm]
      · intro member
        rcases Finset.mem_insert.mp member with same | old
        · exact inputOther same
        · exact inputNew old

theorem Takes.released (takes : Takes base memory input command) :
    (release (some command) (release (some input) memory)).live = base.live ∧
      Since base (release (some command) (release (some input) memory)) Access.Sound := by
  have inputUsed : input ∈ memory.live := takes.live ▸ Finset.mem_insert_self _ _
  have left : (memory.free input).live = insert command base.live := by
    change memory.live.erase input = _
    rw [takes.live, Finset.erase_insert takes.inputNew]
  have commandUsed : command ∈ (memory.free input).live := left ▸ Finset.mem_insert_self _ _
  constructor
  · change (memory.free input).live.erase command = base.live
    rw [left, Finset.erase_insert takes.commandNew]
  · have first : Since memory (memory.free input) Access.Sound :=
      Since.access rfl (decide_eq_true inputUsed)
    have second : Since (memory.free input) ((memory.free input).free command) Access.Sound :=
      Since.access rfl (decide_eq_true commandUsed)
    exact (Since.imp takes.writes fun _ => Access.IsWrite.sound).trans (first.trans second)

end Blocks

/-- Nothing is said of a computation that stops. -/
abbrev IfOk {Value : Type} (result : Except Stop Value) (ended : Value → Prop) : Prop :=
  Meets result (fun _ => True) ended

section Lines

variable {base memory : Memory} {reading : Reading}

theorem storeChar_written (place : Option Nat) (index : Nat) (char : UInt8) (memory : Memory) :
    IfOk (storeChar place index char memory) (Written memory) := by
  cases place with
  | none => exact meets_error trivial
  | some block => exact meets_ok (setChar_written memory block index char)

theorem storeArg_written (place : Option Nat) (index : Nat) (arg : Pointer) (memory : Memory) :
    IfOk (storeArg place index arg memory) (Written memory) := by
  cases place with
  | none => exact meets_error trivial
  | some block => exact meets_ok (setArg_written memory block index arg)

theorem initialise_written (command input : Option Nat) (turns tester : Nat) (memory : Memory) :
    IfOk (initialise command input turns tester memory) (Written memory) := by
  induction turns generalizing tester memory with
  | zero => exact meets_ok (written_refl memory)
  | succ turns ih =>
      refine Meets.bind (storeArg_written command tester none memory) fun middle first => ?_
      refine Meets.bind (storeChar_written input tester 0 middle) fun late second => ?_
      exact (ih (tester + 1) late).imp (fun _ _ => trivial)
        fun _ rest => (first.trans second).trans rest

theorem initialiseGrown_written (tempArr input : Option Nat) (tester turns tester2 : Nat)
    (memory : Memory) :
    IfOk (initialiseGrown tempArr input tester turns tester2 memory) (Written memory) := by
  induction turns generalizing tester2 memory with
  | zero => exact meets_ok (written_refl memory)
  | succ turns ih =>
      refine Meets.bind (storeArg_written tempArr tester2 none memory) fun middle first => ?_
      refine Meets.bind (storeChar_written input tester 0 middle) fun late second => ?_
      exact (ih (tester2 + 1) late).imp (fun _ _ => trivial)
        fun _ rest => (first.trans second).trans rest

theorem openLine_borrows (allocations : Allocations) (memory : Memory) :
    IfOk (openLine allocations memory) (Borrows memory) := by
  by_cases given : allocations.Given
  · unfold openLine
    rw [given.1, given.2]
    dsimp only [Memory.malloc, if_true]
    split
    · exact meets_error trivial
    · rename_i cleared ran
      have written := (initialise_written _ _ _ _ _).ends ran
      refine meets_ok ⟨memory.fresh + 1, memory.fresh, rfl, rfl, Takes.written ?_ written⟩
      refine ⟨rfl, ?_, fresh_notMem (Nat.le_refl _), Nat.le_add_right _ 2, Since.of_accesses rfl⟩
      intro member
      rcases Finset.mem_insert.mp member with same | old
      · exact absurd same (Nat.succ_ne_self _)
      · have below := memory.liveBelow _ old
        omega
  · obtain ⟨left, ran, _⟩ := openLine_fails memory given
    rw [ran]
    exact meets_error trivial

theorem Borrows.grow (growth : Nat → Growth × Growth) (borrows : Borrows base reading) :
    IfOk (grow growth reading) (Borrows base) := by
  obtain ⟨input, command, inputIs, commandIs, takes⟩ := borrows
  unfold CS421.Shell.grow
  dsimp only
  split
  · exact meets_error trivial
  · rw [inputIs, commandIs]
    dsimp only [resize]
    split
    · exact meets_error trivial
    · rename_i cleared ran
      refine Meets.ite (fun _ => meets_error trivial) fun given => ?_
      obtain ⟨inputGiven, commandGiven⟩ := not_or.mp given
      obtain ⟨newInput, inputCalled⟩ :=
        Option.ne_none_iff_exists'.mp (mt Option.isNone_iff_eq_none.mpr inputGiven)
      obtain ⟨newCommand, commandCalled⟩ :=
        Option.ne_none_iff_exists'.mp (mt Option.isNone_iff_eq_none.mpr commandGiven)
      have grown := (takes.resizeInput (Prod.ext inputCalled rfl)).resizeCommand
        (Prod.ext commandCalled rfl)
      have written := (initialiseGrown_written _ _ _ _ _ _).ends ran
      exact meets_ok ⟨newInput, newCommand, inputCalled, commandCalled, grown.written written⟩

theorem Borrows.terminate (borrows : Borrows base reading) :
    IfOk (terminate reading) (Borrows base) := by
  obtain ⟨input, command, inputIs, commandIs, takes⟩ := borrows
  unfold CS421.Shell.terminate
  rw [inputIs]
  dsimp only
  split
  · exact meets_error trivial
  · exact meets_ok ⟨input, command, rfl, commandIs,
      takes.written (setChar_written reading.memory input reading.count 0)⟩

theorem Borrows.readChar (growth : Nat → Growth × Growth) (temp : UInt8)
    (borrows : Borrows base reading) : IfOk (readChar growth temp reading) (Borrows base) := by
  obtain ⟨input, command, inputIs, commandIs, takes⟩ := borrows
  refine Meets.bind (storeChar_written reading.input reading.count temp reading.memory) ?_
  intro memory written
  have kept : Borrows base { reading with memory, count := reading.count + 1 } :=
    ⟨input, command, inputIs, commandIs, takes.written written⟩
  have grown : IfOk (growIfFull growth { reading with memory, count := reading.count + 1 })
      (Borrows base) :=
    Meets.ite (fun _ => kept.grow growth) fun _ => meets_ok kept
  exact grown.bind fun _ borrows => borrows.terminate

theorem Borrows.readLoop (growth : Nat → Growth × Growth) (stream : List UInt8)
    (borrows : Borrows base reading) :
    IfOk (readLoop growth stream reading) (fun final => Borrows base final.1) := by
  induction stream generalizing reading with
  | nil => exact meets_ok borrows
  | cons temp rest ih =>
      unfold CS421.Shell.readLoop
      split
      · exact meets_ok borrows
      · exact (borrows.readChar growth temp).bind fun _ again => ih again

theorem readLine_borrows (allocations : Allocations) (stream : List UInt8) (memory : Memory) :
    IfOk (readLine allocations stream memory) (fun final => Borrows memory final.1) :=
  (openLine_borrows allocations memory).bind fun _ borrows =>
    borrows.readLoop allocations.growth stream

end Lines

theorem strtok_written (start : Pointer) (memory : Memory) :
    IfOk (strtok start memory) (fun out => Written memory out.2.2) := by
  unfold strtok
  split
  · exact meets_error trivial
  · split
    · exact meets_error trivial
    · split
      · exact meets_ok (written_refl memory)
      · split
        · exact meets_error trivial
        · split
          · exact meets_ok (written_refl memory)
          · exact meets_ok (setChar_written memory _ _ 0)

theorem process_written {fuel : Nat} {input command : Option Nat} {memory after : Memory}
    (ran : process fuel input command memory = some (.ok after)) : Written memory after := by
  have cut := strtok_written (input.map fun block => (block, 0)) memory
  unfold process at ran
  cases fetched : strtok (input.map fun block => (block, 0)) memory with
  | error stop =>
      rw [fetched] at ran
      cases ran
  | ok out =>
      obtain ⟨token, saved, middle⟩ := out
      rw [fetched] at ran
      dsimp only at ran
      have stored := storeArg_written command 0 token middle
      cases put : storeArg command 0 token middle with
      | error stop =>
          rw [put] at ran
          cases ran
      | ok late =>
          rw [put] at ran
          obtain ⟨last, reaches, ends⟩ := Loops.reaches_of_run ran
          have start : Written memory late := (cut.ends fetched).trans (stored.ends put)
          have written : Written memory last.memory := by
            refine Loops.invariant_reaches (fun state => Written memory state.memory) ?_ start
              reaches
            intro state next holds turned
            unfold processBody at turned
            split at turned
            · cases turned
            · cases turned
            · split at turned
              · cases turned
              · rename_i called
                split at turned
                · cases turned
                · rename_i put
                  cases turned
                  exact (holds.trans ((strtok_written _ _).ends called)).trans
                    ((storeArg_written _ _ _ _).ends put)
          unfold processBody at ends
          split at ends
          · cases ends
          · cases ends
            exact written
          · split at ends
            · cases ends
            · split at ends <;> cases ends

/-! ### Iterations -/

/-- The buffer holds the string when the line has been read, and the child finds the
words of this string in its array, with NULL behind them. -/
structure Child.Gets (child : Child) (reading : Reading) (text : List UInt8) : Prop where
  held : ∃ input command runs, reading.input = some input ∧ reading.command = some command ∧
    Holds reading.memory input 0 text ∧
    Tokenized reading.memory child.memory input command reading.buffer text runs
  command : child.command = reading.command
  atMost : text.length ≤ reading.count

section Iterations

variable {system : System} {session next : Session} {stream : List UInt8} {memory : Memory}
  {count : Nat}

theorem Continues.parts (continues : Continues system session next) :
    ∃ reading rest after turns child,
      readLine (system.allocations session.line) session.stream session.memory =
        .ok (reading, rest) ∧
      process turns reading.input reading.command reading.memory = some (.ok after) ∧
      child = { line := session.line, memory := after, command := reading.command } ∧
      next = session.next reading rest after (session.children ++ [child]) := by
  obtain ⟨turns, waits, ran⟩ := continues
  have unfolded := ran
  unfold iteration at unfolded
  cases read : readLine (system.allocations session.line) session.stream session.memory with
  | error stop =>
      rw [read] at unfolded
      cases unfolded
  | ok final =>
      obtain ⟨reading, rest⟩ := final
      rw [read] at unfolded
      dsimp only at unfolded
      cases split : process turns reading.input reading.command reading.memory with
      | none =>
          rw [split] at unfolded
          cases unfolded
      | some outcome =>
          cases outcome with
          | error stop =>
              rw [split] at unfolded
              cases unfolded
          | ok after =>
              rw [iteration_eq read split] at ran
              obtain ⟨ranChild, childRan, same⟩ := Option.map_eq_some_iff.mp ran
              cases ranChild with
              | error stop => cases same
              | ok child =>
                  cases same
                  rcases run_decides childRan with ⟨_, ⟨⟩⟩ | ⟨_, alone⟩
                  exact ⟨reading, rest, after, turns, child, rfl, split, Except.ok.inj alone, rfl⟩

theorem Continues.balanced (continues : Continues system session next) :
    next.memory.live = session.memory.live ∧
      Since session.memory next.memory Access.Sound := by
  obtain ⟨reading, rest, after, turns, child, read, split, _, rfl⟩ := continues.parts
  obtain ⟨input, command, inputIs, commandIs, takes⟩ :=
    (readLine_borrows (system.allocations session.line) session.stream session.memory).ends read
  have taken := takes.written (process_written split)
  rw [Session.next, inputIs, commandIs]
  exact taken.released

theorem Continues.child (continues : Continues system session next) :
    ∃ child reading rest text, next.children = session.children ++ [child] ∧
      child.line = session.line ∧
      readLine (system.allocations session.line) session.stream session.memory =
        .ok (reading, rest) ∧
      child.Gets reading text ∧
      ((0 : UInt8) ∉ lineOf session.stream →
        Kept (system.allocations session.line) (lineOf session.stream) →
          text = lineOf session.stream) := by
  obtain ⟨reading, rest, after, turns, child, read, split, rfl, rfl⟩ := continues.parts
  obtain ⟨_, _, doublings, input, command, ready⟩ :=
    (readLine_meets (system.allocations session.line) session.stream session.memory).ends read
  have gets (text : List UInt8) (holds : Holds reading.memory input 0 text)
      (atMost : text.length ≤ reading.count) :
      Child.Gets { line := session.line, memory := after, command := reading.command } reading
        text := by
    obtain ⟨fuel, final, runs, processed, tokenized⟩ := ready.process_ends holds atMost
    cases process_unique split processed
    exact ⟨⟨input, command, runs, ready.inputIs, ready.commandIs, holds, tokenized⟩, rfl, atMost⟩
  by_cases kept : (0 : UInt8) ∉ lineOf session.stream ∧
      Kept (system.allocations session.line) (lineOf session.stream)
  · obtain ⟨noNul, _, _, moved⟩ := kept
    obtain ⟨other, otherIs, holds⟩ := (ready.intact_iff noNul).mpr moved
    cases ready.inputIs.symm.trans otherIs
    exact ⟨_, reading, rest, _, rfl, rfl, read, gets _ holds (Nat.le_of_eq ready.counted.symm),
      fun _ _ => rfl⟩
  · obtain ⟨text, atMost, holds⟩ := ready.exists_holds
    exact ⟨_, reading, rest, text, rfl, rfl, read, gets text holds atMost,
      fun noNul intact => absurd ⟨noNul, intact⟩ kept⟩

/-- The child of a line of the run got the words of what the buffer held when that line
had been read, and of the line itself where the buffer has kept it. -/
def Child.Served (system : System) (stream : List UInt8) (memory : Memory) (child : Child) : Prop :=
  ∃ session reading rest text,
    Iterates system (Session.start stream memory) child.line session ∧
      readLine (system.allocations child.line) session.stream session.memory =
        .ok (reading, rest) ∧
      child.Gets reading text ∧
      ((0 : UInt8) ∉ lineAt stream child.line →
        Kept (system.allocations child.line) (lineAt stream child.line) →
          text = lineAt stream child.line)

/-- However many lines the shell has served: the blocks in use are those in use
before the first line, every release was of a block in use, and each line has had
one child, which got the words of what the buffer held. -/
theorem run_balanced (iterates : Iterates system (Session.start stream memory) count session) :
    session.memory.live = memory.live ∧ Since memory session.memory Access.Sound ∧
      session.children.map Child.line = List.range count ∧
      ∀ child ∈ session.children, child.Served system stream memory := by
  refine ⟨?_, ?_, iterates.served.2.2.1, ?_⟩
  · induction iterates with
    | start => rfl
    | next earlier continues ih => exact continues.balanced.1.trans ih
  · induction iterates with
    | start => exact Since.refl _ _
    | next earlier continues ih => exact ih.trans continues.balanced.2
  · induction iterates with
    | start => exact fun child member => absurd member List.not_mem_nil
    | next earlier continues ih =>
        obtain ⟨streamIs, lineIs, _, _⟩ := earlier.served
        obtain ⟨child, reading, rest, text, added, childLine, read, gets, same⟩ := continues.child
        intro other member
        rw [added] at member
        rcases List.mem_append.mp member with before | last
        · exact ih other before
        · rw [List.mem_singleton.mp last]
          have line := childLine.trans lineIs
          rw [streamIs, ← childLine] at same
          rw [← childLine] at read
          refine ⟨_, reading, rest, text, line ▸ earlier, read, gets, ?_⟩
          rw [line] at same ⊢
          exact same

end Iterations

theorem run_balanced_ls :
    ∃ session, Iterates calm (Session.start [108, 115, newline] Memory.initial) 1 session ∧
      session.memory.live = Memory.initial.live ∧
      Since Memory.initial session.memory Access.Sound ∧
      session.children.map Child.line = List.range 1 ∧
      ∀ child ∈ session.children, child.Served calm [108, 115, newline] Memory.initial := by
  have served : ∀ line, line < 1 → Served calm line (lineAt [108, 115, newline] line) := by
    intro line before
    rw [Nat.lt_one_iff.mp before]
    exact ⟨⟨rfl, rfl⟩, not_halts stay_succeeds (by decide) (by decide), Option.some_ne_none 1⟩
  obtain ⟨session, iterates⟩ := exists_iterates calm_terminates Memory.initial served
  exact ⟨session, iterates, run_balanced iterates⟩

end CS421.Shell
