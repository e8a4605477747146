/-
The word that ends the shell, against the first token of the line.

The read loop compares what it has read so far after each character, so the word at
the start of a longer one is enough, and a space in front of it is too much.
-/

import Mathlib.Data.List.TakeWhile
import CS421.Shell.Main

set_option autoImplicit false

namespace CS421.Shell

open CS421.Outcomes
open Memory (Holds)
open Words (IsRun Scan)

/-- The first token of the string that begins with the line, or nothing. -/
def firstToken (line : List UInt8) : List UInt8 :=
  (line.dropWhile (fun char => char == space)).takeWhile
    fun char => char != space && char != 0

section FirstToken

variable {line : List UInt8}

theorem firstToken_parts (noNul : (0 : UInt8) ∉ line) :
    ∃ skipped tail, line = skipped ++ firstToken line ++ tail ∧
      (∀ char ∈ skipped, char = space) ∧ (∀ char ∈ firstToken line, char ≠ space) ∧
      ∀ char ∈ tail.head?, char = space := by
  let isSpace := fun char : UInt8 => char == space
  let isLetter := fun char : UInt8 => char != space && char != 0
  refine ⟨line.takeWhile isSpace, (line.dropWhile isSpace).dropWhile isLetter, ?_, ?_, ?_, ?_⟩
  · rw [List.append_assoc]
    change line = _ ++ ((line.dropWhile isSpace).takeWhile isLetter ++ _)
    rw [List.takeWhile_append_dropWhile, List.takeWhile_append_dropWhile]
  · intro char member
    have same : isSpace char = true := List.mem_takeWhile_imp member
    exact eq_of_beq same
  · intro char member
    have letter := List.mem_takeWhile_imp member
    exact bne_iff_ne.mp (Bool.and_eq_true_iff.mp letter).1
  · intro char here
    have stopped := List.head?_dropWhile_not isLetter (line.dropWhile isSpace)
    rw [Option.mem_def.mp here] at stopped
    have member : char ∈ line := by
      refine (List.dropWhile_sublist isSpace).subset ((List.dropWhile_sublist isLetter).subset ?_)
      exact List.mem_of_mem_head? here
    have nonzero : char ≠ 0 := fun zero => noNul (zero ▸ member)
    by_contra other
    have letter : isLetter char = true := by
      rw [Bool.and_eq_true_iff]
      exact ⟨bne_iff_ne.mpr other, bne_iff_ne.mpr nonzero⟩
    simp [letter] at stopped

theorem firstToken_scan (noNul : (0 : UInt8) ∉ line) (some_token : firstToken line ≠ []) :
    ∃ first last, Scan IsSpace line 0 first last ∧ line.extract first last = firstToken line := by
  obtain ⟨skipped, tail, whole, spaces, letters, right⟩ := firstToken_parts noNul
  have positive := List.length_pos_iff.mpr some_token
  generalize firstToken line = token at whole letters positive
  subst whole
  refine ⟨skipped.length, skipped.length + token.length, ?_, ?_⟩
  · exact {
      low := Nat.zero_le _
      nonempty := Nat.lt_add_of_pos_right positive
      within := by
        simp only [List.length_append]
        omega
      skipped := by
        intro index _ before char here
        rw [List.append_assoc, List.getElem?_append_left before] at here
        exact spaces char (List.mem_of_getElem? here)
      letters := by
        intro index from_start before char here
        rw [List.append_assoc, List.getElem?_append_right from_start,
          List.getElem?_append_left (by omega)] at here
        exact letters char (List.mem_of_getElem? here)
      right := by
        intro char here
        rw [← List.length_append, List.getElem?_append_right (Nat.le_refl _), Nat.sub_self,
          ← List.head?_eq_getElem?] at here
        exact right char here }
  · rw [List.extract_eq_take_drop, Nat.add_sub_cancel_left, List.append_assoc, List.drop_left,
      List.take_left]

theorem firstToken_isRun (noNul : (0 : UInt8) ∉ line) (some_token : firstToken line ≠ []) :
    ∃ start stop, IsRun IsSpace line start stop ∧ line.extract start stop = firstToken line ∧
      ∀ other last, IsRun IsSpace line other last → start ≤ other := by
  obtain ⟨first, last, scan, same⟩ := firstToken_scan noNul some_token
  have run := scan.isRun fun before next => absurd next (Nat.succ_ne_zero before)
  refine ⟨first, last, run, same, ?_⟩
  intro other stop another
  by_contra earlier
  have nonempty := scan.nonempty
  obtain ⟨equal, _⟩ := scan.unique another (Nat.zero_le other) (by omega)
  exact earlier (Nat.le_of_eq equal.symm)

theorem Tokenized.first {before after : Memory} {input command buffer : Nat}
    {runs : List (Nat × Nat)} (tokenized : Tokenized before after input command buffer line runs)
    (noNul : (0 : UInt8) ∉ line) (some_token : firstToken line ≠ []) :
    ∃ offset, after.args command 0 = some (input, offset) ∧
      Holds after input offset (firstToken line) := by
  obtain ⟨start, stop, run, same, least⟩ := firstToken_isRun noNul some_token
  have member := (tokenized.exactly start stop).mpr run
  have inside : 0 < runs.length := List.length_pos_of_mem member
  have head : runs[0] = (start, stop) := by
    obtain ⟨index, within, found⟩ := List.getElem_of_mem member
    rcases Nat.eq_zero_or_pos index with rfl | later
    · exact found
    · have ordered := List.pairwise_iff_getElem.mp tokenized.ordered 0 index inside within later
      have headRun := (tokenized.exactly runs[0].1 runs[0].2).mp (List.getElem_mem inside)
      have nonempty := headRun.nonempty
      have atLeast := least _ _ headRun
      rw [found] at ordered
      exact absurd (Nat.lt_of_lt_of_le nonempty (Nat.le_of_lt ordered)) (Nat.not_lt_of_le atLeast)
  obtain ⟨place, holds⟩ := tokenized.tokens 0 inside
  rw [head] at place holds
  rw [same] at holds
  exact ⟨start, place, holds⟩

end FirstToken

def Executed (system : System) (session : Session) : Prop :=
  ∃ reading fuel after input command runs,
    readLine (system.allocations session.line) session.stream session.memory =
      .ok (reading, restOf session.stream) ∧
    reading.input = some input ∧ reading.command = some command ∧
    reading.count = (lineOf session.stream).length ∧
    Holds reading.memory input 0 (lineOf session.stream) ∧
    process fuel (some input) (some command) reading.memory = some (.ok after) ∧
    Tokenized reading.memory after input command reading.buffer (lineOf session.stream) runs ∧
    ∀ waits, iteration system fuel waits session =
      (run system waits session.line (some command) after).map (Except.map fun child =>
        session.next reading (restOf session.stream) after (session.children ++ [child]))

def MerelyBegins (line : List UInt8) : Prop :=
  exitText <+: firstToken line ∧ firstToken line ≠ exitText

/-- The read loop exits exactly for the command exit, and a command that merely
begins so is run. -/
def OnlyExitLeaves (system : System) (session : Session) : Prop :=
  ((∃ stop, readLine (system.allocations session.line) session.stream session.memory =
      .error stop ∧ stop.IsExit) ↔ firstToken (lineOf session.stream) = exitText) ∧
  (MerelyBegins (lineOf session.stream) → Executed system session)

def Kept (allocations : Allocations) (line : List UInt8) : Prop :=
  allocations.Given ∧ ¬ Halts allocations.growth line ∧
    ∀ doubling, 1 ≤ doubling → bufferAfter doubling ≤ line.length →
      (allocations.growth (bufferAfter doubling)).1 = .moved

def ExitMatches (allocations : Allocations) (line : List UInt8) : Prop :=
  (allocations.Given ∧ Exits allocations.growth line ↔ firstToken line = exitText) ∧
  (MerelyBegins line → Kept allocations line)

theorem executed_iff {system : System} {session : Session}
    (noNul : (0 : UInt8) ∉ lineOf session.stream) :
    Executed system session ↔
      Kept (system.allocations session.line) (lineOf session.stream) := by
  have met := readLine_meets (system.allocations session.line) session.stream session.memory
  constructor
  · rintro ⟨reading, _, _, input, _, _, read, inputIs, _, _, holds, _⟩
    obtain ⟨given, goes⟩ := (readLine_ends_iff session.stream session.memory).mp ⟨_, read⟩
    obtain ⟨_, _, _, _, _, ready⟩ := met.ends read
    exact ⟨given, goes, (ready.intact_iff noNul).mp ⟨input, inputIs, holds⟩⟩
  · rintro ⟨given, goes, moved⟩
    obtain ⟨⟨reading, rest⟩, read⟩ :=
      (readLine_ends_iff session.stream session.memory).mpr ⟨given, goes⟩
    obtain ⟨_, left, _, _, command, ready⟩ := met.ends read
    obtain ⟨input, inputIs, holds⟩ := (ready.intact_iff noNul).mpr moved
    have inputSame := Option.some.inj (ready.inputIs.symm.trans inputIs)
    rw [inputSame] at ready
    have counted := ready.counted
    obtain ⟨fuel, after, runs, processed, tokenized⟩ :=
      ready.process_ends holds (Nat.le_of_eq counted.symm)
    change rest = restOf session.stream at left
    rw [left] at read
    refine ⟨reading, fuel, after, input, command, runs, read, inputIs, ready.commandIs, counted,
      holds, ?_, tokenized, ?_⟩
    · rw [← inputIs, ← ready.commandIs]
      exact processed
    · intro waits
      rw [iteration_eq read processed, ready.commandIs]

/-- For the word and the first token to agree, a line that begins with the word must
have it as its first token, and a token that begins with it must stand behind a
space, in a line that is kept. -/
theorem onlyExitLeaves_iff (system : System) (session : Session)
    (noNul : (0 : UInt8) ∉ lineOf session.stream) :
    OnlyExitLeaves system session ↔
      ExitMatches (system.allocations session.line) (lineOf session.stream) := by
  unfold OnlyExitLeaves ExitMatches
  rw [readLine_exits_iff, executed_iff noNul]

def calm : System := ⟨fun _ => stay, fun _ => some 1, fun _ _ => some 1⟩

theorem onlyExitLeaves_iff_exit :
    OnlyExitLeaves calm (Session.start (exitText ++ [newline]) Memory.initial) := by
  refine (onlyExitLeaves_iff calm _ (by decide)).mpr ⟨?_, ?_⟩
  · exact iff_of_true ⟨⟨rfl, rfl⟩, Or.inl (by decide)⟩ (by decide)
  · rintro ⟨_, different⟩
    exact absurd (by decide) different

/-- The line exited ends the shell, and the line exit with a space in front does
not. -/
theorem exited_leaves :
    (∃ stop, readLine stay (exitText ++ [101, 100, newline]) Memory.initial = .error stop ∧
      stop.IsExit) ∧
    (¬ ∃ stop, readLine stay ([space] ++ exitText ++ [newline]) Memory.initial = .error stop ∧
      stop.IsExit) ∧
    ¬ ∀ (system : System) (session : Session), (0 : UInt8) ∉ lineOf session.stream →
      OnlyExitLeaves system session := by
  have leaves : ∃ stop, readLine stay (exitText ++ [101, 100, newline]) Memory.initial =
      .error stop ∧ stop.IsExit :=
    (readLine_exits_iff _ _).mpr ⟨⟨rfl, rfl⟩, (exits_iff_of_succeed stay_succeeds).mpr (by decide)⟩
  refine ⟨leaves, ?_, ?_⟩
  · rw [readLine_exits_iff, exits_iff_of_succeed stay_succeeds]
    rintro ⟨_, word⟩
    exact absurd word (by decide)
  · intro only
    have token := (only calm (Session.start (exitText ++ [101, 100, newline]) Memory.initial)
      (by decide)).1.mp leaves
    exact absurd token (by decide)

end CS421.Shell
