/-
The shell at the end of its input.

Behind the end there is one empty line after the other, and an empty line gets a
child like any other. So the shell comes to its end only at a line that has an exit,
or at a fork that fails.
-/

import CS421.Shell.Leaving

set_option autoImplicit false

namespace CS421.Shell

def streamAt (stream : List UInt8) : (line : Nat) → List UInt8
  | 0 => stream
  | line + 1 => restOf (streamAt stream line)

def lineAt (stream : List UInt8) (line : Nat) : List UInt8 := lineOf (streamAt stream line)

inductive Iterates (system : System) (first : Session) : Nat → Session → Prop where
  | start : Iterates system first 0 first
  | next {count : Nat} {session last : Session} (earlier : Iterates system first count session)
      (continues : Continues system session last) : Iterates system first (count + 1) last

/-- The shell exits when nothing is left of the input, or for the command exit. Until
then each line with a token has had one child, and no other line has had any. -/
def StopsAtEnd (system : System) (stream : List UInt8) (memory : Memory) : Prop :=
  ∃ last session, Iterates system (Session.start stream memory) last session ∧
    Leaves system session ∧
    (streamAt stream last = [] ∨ firstToken (lineAt stream last) = exitText) ∧
    (∀ line, line < last → firstToken (lineAt stream line) ≠ [] →
      (session.children.map Child.line).count line = 1) ∧
    ∀ child ∈ session.children, firstToken (lineAt stream child.line) ≠ []

def EndsAt (system : System) (line : Nat) (typed : List UInt8) : Prop :=
  (system.allocations line).Given ∧
    (Exits (system.allocations line).growth typed ∨
      ¬ Halts (system.allocations line).growth typed ∧ system.fork line = none)

/-- The first line that the shell does not get past ends it, and every line before
has a token. -/
def ReachesEnd (system : System) (stream : List UInt8) : Prop :=
  ∃ last, (∀ line, line < last →
      Served system line (lineAt stream line) ∧ firstToken (lineAt stream line) ≠ []) ∧
    EndsAt system last (lineAt stream last) ∧
    (streamAt stream last = [] ∨ firstToken (lineAt stream last) = exitText)

section Runs

variable {system : System} {stream : List UInt8} {memory : Memory} {count : Nat}
  {session : Session}

theorem Iterates.served (iterates : Iterates system (Session.start stream memory) count session) :
    session.stream = streamAt stream count ∧ session.line = count ∧
      session.children.map Child.line = List.range count ∧
      ∀ line, line < count → Served system line (lineAt stream line) := by
  induction iterates with
  | start => exact ⟨rfl, rfl, rfl, fun line before => absurd before (Nat.not_lt_zero line)⟩
  | next earlier continues ih =>
      obtain ⟨streamIs, lineIs, children, served⟩ := ih
      obtain ⟨now, left, next, child, childLine, added⟩ := continues.served
      rw [streamIs, lineIs] at now
      refine ⟨?_, ?_, ?_, ?_⟩
      · rw [left, streamIs]
        rfl
      · rw [next, lineIs]
      · rw [added, List.map_append, children, List.range_succ, List.map_singleton, childLine, lineIs]
      · intro line before
        rcases Nat.lt_succ_iff_lt_or_eq.mp before with passed | last
        · exact served line passed
        · rw [last]
          exact now

theorem exists_iterates (terminates : system.Terminates) (memory : Memory)
    (served : ∀ line, line < count → Served system line (lineAt stream line)) :
    ∃ session, Iterates system (Session.start stream memory) count session := by
  induction count with
  | zero => exact ⟨_, .start⟩
  | succ count ih =>
      obtain ⟨session, earlier⟩ := ih fun line before => served line (Nat.lt_succ_of_lt before)
      obtain ⟨streamIs, lineIs, _, _⟩ := earlier.served
      have now := served count (Nat.lt_succ_self count)
      rw [lineAt, ← streamIs, ← lineIs] at now
      obtain ⟨next, continues⟩ := now.continues terminates
      rw [lineIs] at now
      exact ⟨next, .next earlier continues⟩

theorem StopsAtEnd.reaches (stops : StopsAtEnd system stream memory) : ReachesEnd system stream := by
  obtain ⟨last, session, iterates, leaves, ended, _, tokens⟩ := stops
  obtain ⟨streamIs, lineIs, children, served⟩ := iterates.served
  refine ⟨last, fun line before => ⟨served line before, ?_⟩, ?_, ended⟩
  · have member : line ∈ session.children.map Child.line := by
      rw [children]
      exact List.mem_range.mpr before
    obtain ⟨child, inside, rfl⟩ := List.mem_map.mp member
    exact tokens child inside
  · have ends := leaves_iff.mp leaves
    rw [streamIs, lineIs] at ends
    exact ends

theorem ReachesEnd.stops (terminates : system.Terminates) (memory : Memory)
    (reaches : ReachesEnd system stream) : StopsAtEnd system stream memory := by
  obtain ⟨last, earlier, ends, ended⟩ := reaches
  obtain ⟨session, iterates⟩ :=
    exists_iterates terminates memory fun line before => (earlier line before).1
  obtain ⟨streamIs, lineIs, children, _⟩ := iterates.served
  refine ⟨last, session, iterates, leaves_iff.mpr ?_, ended, ?_, ?_⟩
  · rw [streamIs, lineIs]
    exact ends
  · intro line before _
    rw [children]
    exact List.count_eq_one_of_mem List.nodup_range (List.mem_range.mpr before)
  · intro child inside
    have member : child.line ∈ session.children.map Child.line := List.mem_map_of_mem inside
    rw [children] at member
    exact (earlier child.line (List.mem_range.mp member)).2

/-- Where nothing fails, the shell has to come to the command exit, and every line
before it must have a token and not start with the word. -/
theorem reachesEnd_iff_of_succeed (succeed : ∀ line, (system.allocations line).Succeed)
    (forked : ∀ line, system.fork line ≠ none)
    (short : ∀ line, (lineAt stream line).length < 2 ^ 30) :
    ReachesEnd system stream ↔ ∃ last,
      (∀ line, line < last → ¬ exitText <+: lineAt stream line ∧
        firstToken (lineAt stream line) ≠ []) ∧
      exitText <+: lineAt stream last ∧ firstToken (lineAt stream last) = exitText := by
  have given : ∀ line, (system.allocations line).Given := fun line =>
    ⟨(succeed line).1, (succeed line).2.1⟩
  have served_iff : ∀ line, Served system line (lineAt stream line) ↔
      ¬ exitText <+: lineAt stream line := by
    intro line
    constructor
    · exact fun served word => served.2.1 (Or.inl word)
    · exact fun noWord => ⟨given line, not_halts (succeed line) (short line) noWord, forked line⟩
  have ends_iff : ∀ line, EndsAt system line (lineAt stream line) ↔
      exitText <+: lineAt stream line := by
    intro line
    rw [← exits_iff_of_succeed (succeed line)]
    constructor
    · rintro ⟨_, exits | ⟨_, failed⟩⟩
      · exact exits
      · exact absurd failed (forked line)
    · exact fun exits => ⟨given line, Or.inl exits⟩
  unfold ReachesEnd
  simp only [served_iff, ends_iff]
  refine exists_congr fun last => and_congr_right fun _ => and_congr_right fun word => ?_
  refine or_iff_right ?_
  intro exhausted
  rw [lineAt, exhausted] at word
  exact absurd word.length_le (by decide)

/-- The shell stops as it should exactly when the line that stops it is the end of
the input or the command exit, and no line before it lacks a token. -/
theorem stopsAtEnd_iff (system : System) (terminates : system.Terminates) (stream : List UInt8)
    (memory : Memory) : StopsAtEnd system stream memory ↔ ReachesEnd system stream :=
  ⟨fun stops => stops.reaches, fun reaches => reaches.stops terminates memory⟩

end Runs

theorem calm_terminates : calm.Terminates := fun _ _ forked => ⟨0, forked⟩

theorem stopsAtEnd_iff_ls :
    StopsAtEnd calm ([108, 115, newline] ++ exitText ++ [newline]) Memory.initial := by
  refine (stopsAtEnd_iff calm calm_terminates _ Memory.initial).mpr ⟨1, ?_, ?_, Or.inr (by decide)⟩
  · intro line before
    rw [Nat.lt_one_iff.mp before]
    have goes : ¬ Halts stay.growth [108, 115] :=
      not_halts stay_succeeds (by decide) (by decide)
    exact ⟨⟨⟨rfl, rfl⟩, goes, Option.some_ne_none 1⟩, by decide⟩
  · exact ⟨⟨rfl, rfl⟩, Or.inl (Or.inl (by decide))⟩

/-- At the end of the input the shell starts one child after the other. -/
theorem empty_input_goes_on :
    (∀ count, ∃ session, Iterates calm (Session.start [] Memory.initial) count session ∧
      session.children.length = count) ∧
    ¬ ∀ (system : System), system.Terminates → ∀ (stream : List UInt8) (memory : Memory),
      StopsAtEnd system stream memory := by
  have exhausted : ∀ line, streamAt [] line = [] := by
    intro line
    induction line with
    | zero => rfl
    | succ line ih =>
        rw [streamAt, ih]
        rfl
  have empty : ∀ line, lineAt [] line = [] := fun line => congrArg lineOf (exhausted line)
  constructor
  · intro count
    have served : ∀ line, line < count → Served calm line (lineAt [] line) := by
      intro line _
      rw [empty]
      exact ⟨⟨rfl, rfl⟩, not_halts_nil, Option.some_ne_none 1⟩
    obtain ⟨session, iterates⟩ := exists_iterates calm_terminates Memory.initial served
    obtain ⟨_, _, children, _⟩ := iterates.served
    refine ⟨session, iterates, ?_⟩
    have length := congrArg List.length children
    rw [List.length_map, List.length_range] at length
    exact length
  · intro stops
    have reaches := (stops calm calm_terminates [] Memory.initial).reaches
    obtain ⟨last, _, word, _⟩ := (reachesEnd_iff_of_succeed (fun _ => stay_succeeds)
      (fun _ => Option.some_ne_none 1) (fun line => by rw [empty]; decide)).mp reaches
    rw [empty] at word
    exact absurd word.length_le (by decide)

end CS421.Shell
