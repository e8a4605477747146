/-
The outer loop of the shell.

An iteration reads a line, splits it, and waits for the child that runs it. The test
of the loop never changes, so the shell goes on until a line or a failed fork stops
it. The child, which sees 0 from fork, is not followed: execvp or exit ends it.
-/

import CS421.Shell.Halting
import CS421.Shell.Tokens

set_option autoImplicit false

namespace CS421.Shell

open CS421.Outcomes
open Memory (Holds)

/-- What the shell asks of the system in each iteration: its blocks, the pid that
fork returns, and the pids that the calls of wait return. None stands for -1. -/
structure System where
  allocations : Nat → Allocations
  fork : Nat → Option Nat
  wait : Nat → Nat → Option Nat

/-- A child gets a copy of the heap, and of the pointer to the array. -/
structure Child where
  line : Nat
  memory : Memory
  command : Option Nat

structure Session where
  stream : List UInt8
  memory : Memory
  line : Nat
  children : List Child

def waitBody (wait : Nat → Option Nat) (pid : Nat) : Loops.Body Nat Unit Stop := fun calls =>
  if wait calls = some pid then .done () else .again (calls + 1)

def run (system : System) (waits line : Nat) (command : Option Nat) (memory : Memory) :
    Option (Except Stop Child) :=
  match system.fork line with
  | none => some (.error (.exit 1 "Error: Failed to fork, please get new fork\n" memory))
  | some pid =>
      (Loops.run (waitBody (system.wait line) pid) waits 0).map
        (Except.map fun _ => { line, memory, command })

/-- Lines 127 and 128, and the next iteration. -/
def Session.next (session : Session) (reading : Reading) (rest : List UInt8) (memory : Memory)
    (children : List Child) : Session :=
  { stream := rest, memory := release reading.command (release reading.input memory)
    line := session.line + 1, children }

/-- Lines 58 to 128, for so many turns of the loops of process and run. -/
def iteration (system : System) (turns waits : Nat) (session : Session) :
    Option (Except Stop Session) :=
  match readLine (system.allocations session.line) session.stream session.memory with
  | .error stop => some (.error stop)
  | .ok (reading, rest) =>
      match process turns reading.input reading.command reading.memory with
      | none => none
      | some (.error stop) => some (.error stop)
      | some (.ok memory) =>
          if reading.command.isNone then
            some (.ok (session.next reading rest memory session.children))
          else
            (run system waits session.line reading.command memory).map
              (Except.map fun child =>
                session.next reading rest memory (session.children ++ [child]))

def Session.start (stream : List UInt8) (memory : Memory) : Session :=
  { stream, memory, line := 0, children := [] }

/-- Each child terminates, so wait returns its pid at some time. -/
def System.Terminates (system : System) : Prop :=
  ∀ line pid, system.fork line = some pid → ∃ calls, system.wait line calls = some pid

section Run

variable {system : System} {line waits : Nat} {command : Option Nat} {memory : Memory}

theorem wait_ends {wait : Nat → Option Nat} {pid last : Nat} (returns : wait last = some pid) :
    Loops.Ends (waitBody wait pid) 0 () := by
  have turns : ∀ rank calls, (calls ≤ last ∧ rank = last - calls) →
      (waitBody wait pid calls).Meets
        (fun next => ∃ smaller, smaller < rank ∧ next ≤ last ∧ smaller = last - next)
        (fun _ => True) := by
    rintro rank calls ⟨atMost, rfl⟩
    unfold waitBody
    split
    · trivial
    · rename_i other
      have before : calls ≠ last := fun same => other (same ▸ returns)
      exact ⟨last - (calls + 1), by omega, by omega, rfl⟩
  obtain ⟨_, ends, _⟩ := Loops.ends_of_rank
    (fun rank calls => calls ≤ last ∧ rank = last - calls) (fun _ => True) turns
    ⟨Nat.zero_le last, rfl⟩
  exact ends

theorem run_forkFails (failed : system.fork line = none) : run system waits line command memory =
    some (.error (.exit 1 "Error: Failed to fork, please get new fork\n" memory)) := by
  unfold run
  rw [failed]

theorem run_ends (terminates : system.Terminates) (forked : system.fork line ≠ none) :
    ∃ waits, run system waits line command memory = some (.ok { line, memory, command }) := by
  obtain ⟨pid, parent⟩ := Option.ne_none_iff_exists'.mp forked
  obtain ⟨calls, returns⟩ := terminates line pid parent
  obtain ⟨waits, waited⟩ := wait_ends returns
  refine ⟨waits, ?_⟩
  unfold run
  rw [parent]
  dsimp only
  rw [waited]
  rfl

theorem wait_result {wait : Nat → Option Nat} {pid calls : Nat} {result : Except Stop Unit}
    (ran : Loops.run (waitBody wait pid) waits calls = some result) : result = .ok () := by
  induction waits generalizing calls with
  | zero => cases ran
  | succ waits ih =>
      rw [Loops.run] at ran
      cases turned : waitBody wait pid calls with
      | again next =>
          rw [turned] at ran
          exact ih ran
      | done _ =>
          rw [turned] at ran
          exact (Option.some.inj ran).symm
      | stop _ =>
          unfold waitBody at turned
          split at turned <;> cases turned

theorem run_decides {result : Except Stop Child}
    (ran : run system waits line command memory = some result) :
    (system.fork line = none ∧
      result = .error (.exit 1 "Error: Failed to fork, please get new fork\n" memory)) ∨
    (system.fork line ≠ none ∧ result = .ok { line, memory, command }) := by
  cases forked : system.fork line with
  | none =>
      rw [run_forkFails forked] at ran
      exact Or.inl ⟨rfl, (Option.some.inj ran).symm⟩
  | some pid =>
      unfold run at ran
      rw [forked] at ran
      obtain ⟨waited, ended, rfl⟩ := Option.map_eq_some_iff.mp ran
      rw [wait_result ended]
      exact Or.inr ⟨Option.some_ne_none pid, rfl⟩

end Run

theorem process_unique {fuel other : Nat} {input command : Option Nat} {memory : Memory}
    {first second : Except Stop Memory} (ran : process fuel input command memory = some first)
    (reran : process other input command memory = some second) : first = second := by
  unfold process at ran reran
  cases fetched : strtok (input.map fun block => (block, 0)) memory with
  | error stop =>
      rw [fetched] at ran reran
      exact Option.some.inj (ran.symm.trans reran)
  | ok token =>
      obtain ⟨token, saved, middle⟩ := token
      rw [fetched] at ran reran
      dsimp only at ran reran
      cases stored : storeArg command 0 token middle with
      | error stop =>
          rw [stored] at ran reran
          exact Option.some.inj (ran.symm.trans reran)
      | ok late =>
          rw [stored] at ran reran
          exact Loops.run_unique ran reran

/-- The iteration has come to its end, and the shell stands before the next line. -/
def Continues (system : System) (session next : Session) : Prop :=
  ∃ turns waits, iteration system turns waits session = some (.ok next)

def Leaves (system : System) (session : Session) : Prop :=
  ∃ turns waits stop, iteration system turns waits session = some (.error stop) ∧ stop.IsExit

def Served (system : System) (line : Nat) (typed : List UInt8) : Prop :=
  (system.allocations line).Given ∧ ¬ Halts (system.allocations line).growth typed ∧
    system.fork line ≠ none

section Iterations

variable {system : System} {session next : Session} {reading : Reading} {rest : List UInt8}

theorem process_of_read
    (read : readLine (system.allocations session.line) session.stream session.memory =
      .ok (reading, rest)) :
    rest = restOf session.stream ∧ reading.command ≠ none ∧
      ∃ fuel after, process fuel reading.input reading.command reading.memory =
        some (.ok after) := by
  obtain ⟨_, left, _, _, _, ready⟩ :=
    (readLine_meets (system.allocations session.line) session.stream session.memory).ends read
  obtain ⟨_, atMost, holds⟩ := ready.exists_holds
  obtain ⟨fuel, after, _, processed, _⟩ := ready.process_ends holds atMost
  refine ⟨left, ?_, fuel, after, processed⟩
  rw [ready.commandIs]
  exact Option.some_ne_none _

theorem iteration_eq {turns : Nat} {after : Memory}
    (read : readLine (system.allocations session.line) session.stream session.memory =
      .ok (reading, rest))
    (processed : process turns reading.input reading.command reading.memory = some (.ok after))
    (waits : Nat) :
    iteration system turns waits session =
      (run system waits session.line reading.command after).map (Except.map fun child =>
        session.next reading rest after (session.children ++ [child])) := by
  obtain ⟨_, given, _⟩ := process_of_read read
  unfold iteration
  rw [read]
  dsimp only
  rw [processed]
  dsimp only
  rw [if_neg (fun missing => given (Option.isNone_iff_eq_none.mp missing))]

theorem iteration_cases {turns waits : Nat} {result : Except Stop Session}
    (ran : iteration system turns waits session = some result) :
    (∃ stop, readLine (system.allocations session.line) session.stream session.memory =
      .error stop ∧ result = .error stop) ∨
    ∃ reading rest after ranChild,
      readLine (system.allocations session.line) session.stream session.memory =
        .ok (reading, rest) ∧ rest = restOf session.stream ∧
      run system waits session.line reading.command after = some ranChild ∧
      result = ranChild.map fun child =>
        session.next reading rest after (session.children ++ [child]) := by
  cases read : readLine (system.allocations session.line) session.stream session.memory with
  | error stop =>
      unfold iteration at ran
      rw [read] at ran
      exact Or.inl ⟨stop, rfl, (Option.some.inj ran).symm⟩
  | ok final =>
      obtain ⟨reading, rest⟩ := final
      obtain ⟨left, _, _, after, processed⟩ := process_of_read read
      have unfolded := ran
      unfold iteration at unfolded
      rw [read] at unfolded
      dsimp only at unfolded
      cases again : process turns reading.input reading.command reading.memory with
      | none =>
          rw [again] at unfolded
          cases unfolded
      | some outcome =>
          cases process_unique again processed
          rw [iteration_eq read again] at ran
          obtain ⟨ranChild, childRan, same⟩ := Option.map_eq_some_iff.mp ran
          exact Or.inr ⟨reading, rest, after, ranChild, rfl, left, childRan, same.symm⟩

theorem Continues.served (continues : Continues system session next) :
    Served system session.line (lineOf session.stream) ∧
      next.stream = restOf session.stream ∧ next.line = session.line + 1 ∧
      ∃ child, child.line = session.line ∧ next.children = session.children ++ [child] := by
  obtain ⟨turns, waits, ran⟩ := continues
  rcases iteration_cases ran with ⟨_, _, ⟨⟩⟩ | ⟨_, _, _, _, read, left, childRan, same⟩
  obtain ⟨given, goes⟩ := (readLine_ends_iff session.stream session.memory).mp ⟨_, read⟩
  rcases run_decides childRan with ⟨_, rfl⟩ | ⟨parent, rfl⟩
  · cases same
  · cases same
    exact ⟨⟨given, goes, parent⟩, left, rfl, _, rfl, rfl⟩

theorem Served.continues (terminates : system.Terminates)
    (served : Served system session.line (lineOf session.stream)) :
    ∃ next, Continues system session next := by
  obtain ⟨given, goes, parent⟩ := served
  obtain ⟨⟨reading, rest⟩, read⟩ :=
    (readLine_ends_iff session.stream session.memory).mpr ⟨given, goes⟩
  obtain ⟨_, _, turns, after, processed⟩ := process_of_read read
  obtain ⟨waits, ended⟩ := run_ends terminates parent
  have ran := iteration_eq read processed waits
  rw [ended] at ran
  exact ⟨_, turns, waits, ran⟩

/-- An iteration exits for its line, or because it gets no child. -/
theorem leaves_iff : Leaves system session ↔
    (system.allocations session.line).Given ∧
      (Exits (system.allocations session.line).growth (lineOf session.stream) ∨
        ¬ Halts (system.allocations session.line).growth (lineOf session.stream) ∧
          system.fork session.line = none) := by
  constructor
  · rintro ⟨turns, waits, stop, ran, exit⟩
    rcases iteration_cases ran with ⟨_, read, ⟨⟩⟩ | ⟨_, _, _, _, read, _, childRan, same⟩
    · obtain ⟨given, exits⟩ :=
        (readLine_exits_iff session.stream session.memory).mp ⟨stop, read, exit⟩
      exact ⟨given, Or.inl exits⟩
    · obtain ⟨given, goes⟩ := (readLine_ends_iff session.stream session.memory).mp ⟨_, read⟩
      rcases run_decides childRan with ⟨failed, _⟩ | ⟨_, rfl⟩
      · exact ⟨given, Or.inr ⟨goes, failed⟩⟩
      · cases same
  · rintro ⟨given, exits | ⟨goes, failed⟩⟩
    · obtain ⟨stop, read, exit⟩ :=
        (readLine_exits_iff session.stream session.memory).mpr ⟨given, exits⟩
      refine ⟨0, 0, stop, ?_, exit⟩
      unfold iteration
      rw [read]
    · obtain ⟨⟨reading, rest⟩, read⟩ :=
        (readLine_ends_iff session.stream session.memory).mpr ⟨given, goes⟩
      obtain ⟨_, _, turns, after, processed⟩ := process_of_read read
      refine ⟨turns, 0, .exit 1 "Error: Failed to fork, please get new fork\n" after, ?_, trivial⟩
      rw [iteration_eq read processed, run_forkFails failed]
      rfl

end Iterations

end CS421.Shell
