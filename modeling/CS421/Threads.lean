/-
Threads over one memory.

A program makes one access to memory at a time, and what it does next may depend on
what it has seen. Threads take turns in any order. When each of them keeps to cells
of its own, reads no others but those that none writes to, and takes over only cells
that are not in use, each call goes as it goes alone, and the calls answer what they
answer one after the other in the order in which they are made.
-/

import CS421.Runs
import Mathlib.Data.Set.Basic
import Mathlib.Logic.Function.Basic

set_option autoImplicit false

namespace CS421.Threads

open Runs

/-! ### Programs -/

/-- A thread waits as long as its next access is not ready. -/
inductive Program (State Fault Result : Type) where
  | done (result : Result)
  | stop (fault : Fault)
  | step (ready : State → Bool) (act : State → Except Fault State)
      (next : State → Program State Fault Result)

namespace Program

variable {State Fault Result Other : Type}

def bind : Program State Fault Result → (Result → Program State Fault Other) →
    Program State Fault Other
  | .done result, rest => rest result
  | .stop fault, _ => .stop fault
  | .step ready act next, rest => .step ready act fun state => (next state).bind rest

def load (read : State → Except Fault Result) : Program State Fault Result :=
  .step (fun _ => true) (fun state => (read state).map fun _ => state)
    fun state =>
      match read state with
      | .error fault => .stop fault
      | .ok value => .done value

def await (ready : State → Bool) (write : State → Except Fault State) : Program State Fault Unit :=
  .step ready write fun _ => .done ()

def store (write : State → Except Fault State) : Program State Fault Unit :=
  await (fun _ => true) write

def alone : Program State Fault Result → State → Except Fault (Result × State)
  | .done result, state => .ok (result, state)
  | .stop fault, _ => .error fault
  | .step _ act next, state =>
      match act state with
      | .error fault => .error fault
      | .ok after => (next state).alone after

section Alone

variable {state : State}

theorem alone_bind (program : Program State Fault Result)
    (rest : Result → Program State Fault Other) :
    (program.bind rest).alone state =
      program.alone state >>= fun out => (rest out.1).alone out.2 := by
  induction program generalizing state with
  | done result => rfl
  | stop fault => rfl
  | step ready act next ih =>
      rw [bind, alone, alone]
      cases act state with
      | error fault => rfl
      | ok after => exact ih state

theorem alone_load (read : State → Except Fault Result) :
    (load read).alone state = (read state).map fun value => (value, state) := by
  rw [load, alone]
  cases seen : read state with
  | error fault => rfl
  | ok value => rfl

theorem alone_await (ready : State → Bool) (write : State → Except Fault State) :
    (await ready write).alone state = (write state).map fun after => ((), after) := by
  rw [await, alone]
  cases write state with
  | error fault => rfl
  | ok after => rfl

theorem alone_store (write : State → Except Fault State) :
    (store write).alone state = (write state).map fun after => ((), after) :=
  alone_await (fun _ => true) write

end Alone

end Program

/-- How a memory is shared. No thread writes to a common cell. -/
structure Sharing (State Cell Shown : Type) where
  view : State → Cell → Shown
  unused : State → Cell → Prop
  common : Set Cell

namespace Sharing

variable {State Cell Shown Fault Result Other : Type} (sharing : Sharing State Cell Shown)

def Agree (cells : Set Cell) (state other : State) : Prop :=
  ∀ cell ∈ cells, sharing.view other cell = sharing.view state cell

/-- The cells are in use, whatever the cells of others hold. -/
def Firm (own : Set Cell) (state : State) : Prop :=
  ∀ other, sharing.Agree (own ∪ sharing.common) state other → ∀ cell ∈ own,
    ¬ sharing.unused other cell

/-- An access of a thread with cells of its own, which leaves it with these cells. -/
structure Acts (own taken : Set Cell) (state after : State) : Prop where
  changes : ∀ cell, cell ∉ own → cell ∉ taken → sharing.view after cell = sharing.view state cell
  takes : ∀ cell ∈ taken, cell ∈ own ∨ sharing.unused state cell

/-- The program keeps to the cells of its thread, and ends so. It says the same of
all states that agree on these cells and the common ones; `ghost` is one of them. -/
def Keeps (ends : Result → Set Cell → State → Prop) :
    Program State Fault Result → (own : Set Cell) → (ghost : State) → Prop
  | .done result, own, ghost => ends result own ghost
  | .stop _, _, _ => False
  | .step ready act next, own, ghost =>
      ∀ state, sharing.Agree (own ∪ sharing.common) ghost state → ready state = true →
        ∃ after taken changed, act state = .ok after ∧ sharing.Acts own taken state after ∧
          sharing.Agree (taken ∪ sharing.common) changed after ∧ sharing.Firm taken changed ∧
          Keeps ends (next state) taken changed

variable {sharing} {own taken cells : Set Cell} {state other last ghost changed : State}
  {ends later : Result → Set Cell → State → Prop}

theorem agree_refl (cells : Set Cell) (state : State) : sharing.Agree cells state state :=
  fun _ _ => rfl

theorem Agree.trans (first : sharing.Agree cells state other)
    (second : sharing.Agree cells other last) : sharing.Agree cells state last :=
  fun cell member => (second cell member).trans (first cell member)

theorem Agree.mono {fewer : Set Cell} (agree : sharing.Agree cells state other)
    (within : fewer ⊆ cells) : sharing.Agree fewer state other :=
  fun cell member => agree cell (within member)

theorem Firm.agree (firm : sharing.Firm own state)
    (agree : sharing.Agree (own ∪ sharing.common) state other) : sharing.Firm own other :=
  fun last same => firm last (agree.trans same)

theorem acts_refl (own : Set Cell) (state : State) : sharing.Acts own own state state :=
  ⟨fun _ _ _ => rfl, fun _ member => Or.inl member⟩

theorem keeps_mono {program : Program State Fault Result} (keeps : sharing.Keeps ends program own ghost)
    (weaker : ∀ result own state, ends result own state → later result own state) :
    sharing.Keeps later program own ghost := by
  induction program generalizing own ghost with
  | done result => exact weaker result own ghost keeps
  | stop fault => exact keeps
  | step ready act next ih =>
      intro state agree isReady
      obtain ⟨after, taken, changed, acted, acts, same, firm, rest⟩ := keeps state agree isReady
      exact ⟨after, taken, changed, acted, acts, same, firm, ih state rest⟩

theorem keeps_bind {ends : Other → Set Cell → State → Prop} {program : Program State Fault Result}
    {rest : Result → Program State Fault Other}
    (keeps : sharing.Keeps (fun result own ghost => sharing.Keeps ends (rest result) own ghost)
      program own ghost) : sharing.Keeps ends (program.bind rest) own ghost := by
  induction program generalizing own ghost with
  | done result => exact keeps
  | stop fault => exact keeps
  | step ready act next ih =>
      intro state agree isReady
      obtain ⟨after, taken, changed, acted, acts, same, firm, kept⟩ := keeps state agree isReady
      exact ⟨after, taken, changed, acted, acts, same, firm, ih state kept⟩

theorem keeps_load {read : State → Except Fault Result} {value : Result}
    (firm : sharing.Firm own ghost)
    (seen : ∀ state, sharing.Agree (own ∪ sharing.common) ghost state → read state = .ok value)
    (ended : ends value own ghost) : sharing.Keeps ends (Program.load read) own ghost := by
  intro state agree _
  refine ⟨state, own, ghost, ?_, acts_refl own state, agree, firm, ?_⟩
  · dsimp only
    rw [seen state agree]
    rfl
  · dsimp only
    rw [seen state agree]
    exact ended

/-- A write that waits. What it leaves may depend on what it found in cells that
were not in use. -/
theorem keeps_await {ready : State → Bool} {write : State → Except Fault State}
    {ends : Unit → Set Cell → State → Prop}
    (wrote : ∀ state, sharing.Agree (own ∪ sharing.common) ghost state → ready state = true →
      ∃ after changed, write state = .ok after ∧ sharing.Acts own taken state after ∧
        sharing.Agree (taken ∪ sharing.common) changed after ∧ sharing.Firm taken changed ∧
        ends () taken changed) :
    sharing.Keeps ends (Program.await ready write) own ghost := by
  intro state agree isReady
  obtain ⟨after, changed, acted, acts, same, firm, ended⟩ := wrote state agree isReady
  exact ⟨after, taken, changed, acted, acts, same, firm, ended⟩

theorem keeps_store {write : State → Except Fault State} {ends : Unit → Set Cell → State → Prop}
    (wrote : ∀ state, sharing.Agree (own ∪ sharing.common) ghost state →
      ∃ after, write state = .ok after ∧ sharing.Acts own taken state after ∧
        sharing.Agree (taken ∪ sharing.common) changed after)
    (firm : sharing.Firm taken changed) (ended : ends () taken changed) :
    sharing.Keeps ends (Program.store write) own ghost := by
  apply keeps_await
  intro state agree _
  obtain ⟨after, acted, acts, same⟩ := wrote state agree
  exact ⟨after, changed, acted, acts, same, firm, ended⟩

end Sharing

/-! ### Threads -/

structure Tasks (State Thread Call Fault Result : Type) where
  memory : State
  running : Thread → Option (Call × Program State Fault Result)

inductive Move (Thread Call : Type) where
  | enter (thread : Thread) (call : Call)
  | next (thread : Thread)

inductive Pause (Fault : Type) where
  | disabled
  | waits
  | fault (fault : Fault)

section Machine

variable {State Thread Call Fault Result : Type} [DecidableEq Thread]

def idleTasks (memory : State) : Tasks State Thread Call Fault Result :=
  { memory := memory, running := fun _ => none }

def Tasks.moved (tasks : Tasks State Thread Call Fault Result) (memory : State) (thread : Thread)
    (running : Option (Call × Program State Fault Result)) : Tasks State Thread Call Fault Result :=
  { memory := memory, running := Function.update tasks.running thread running }

section Moved

variable {tasks : Tasks State Thread Call Fault Result} {memory : State} {thread other : Thread}
  {running : Option (Call × Program State Fault Result)}

theorem moved_self : (tasks.moved memory thread running).running thread = running := by
  apply Function.update_self

theorem moved_other (apart : other ≠ thread) :
    (tasks.moved memory thread running).running other = tasks.running other := by
  exact Function.update_of_ne apart _ _

end Moved

/-- A thread that is in no call makes one, or a call takes its next access or returns. -/
def act (program : Thread → Call → Program State Fault Result) :
    Machine (Tasks State Thread Call Fault Result) (Move Thread Call)
      (Option ((Thread × Call) × Result)) (Pause Fault)
  | .enter thread call, tasks =>
      match tasks.running thread with
      | some _ => .error .disabled
      | none => .ok (none, tasks.moved tasks.memory thread (some (call, program thread call)))
  | .next thread, tasks =>
      match tasks.running thread with
      | none => .error .disabled
      | some (call, .done result) =>
          .ok (some ((thread, call), result), tasks.moved tasks.memory thread none)
      | some (_, .stop fault) => .error (.fault fault)
      | some (call, .step ready act next) =>
          if ready tasks.memory then
            match act tasks.memory with
            | .error fault => .error (.fault fault)
            | .ok after => .ok (none, tasks.moved after thread (some (call, next tasks.memory)))
          else .error .waits

section Moves

variable {program : Thread → Call → Program State Fault Result}
  {tasks after : Tasks State Thread Call Fault Result} {thread : Thread} {call : Call}
  {event : Option ((Thread × Call) × Result)} {fault : Fault}

theorem act_enter (acted : act program (.enter thread call) tasks = .ok (event, after)) :
    tasks.running thread = none ∧ event = none ∧
      after = tasks.moved tasks.memory thread (some (call, program thread call)) := by
  rw [act] at acted
  cases idle : tasks.running thread with
  | some task =>
      rw [idle] at acted
      cases acted
  | none =>
      rw [idle] at acted
      cases acted
      exact ⟨rfl, rfl, rfl⟩

theorem act_next (acted : act program (.next thread) tasks = .ok (event, after)) :
    (∃ call result, tasks.running thread = some (call, .done result) ∧
      event = some ((thread, call), result) ∧ after = tasks.moved tasks.memory thread none) ∨
    ∃ call ready write next changed,
      tasks.running thread = some (call, .step ready write next) ∧ ready tasks.memory = true ∧
        write tasks.memory = .ok changed ∧ event = none ∧
        after = tasks.moved changed thread (some (call, next tasks.memory)) := by
  rw [act] at acted
  rcases midway : tasks.running thread with _ | ⟨call, result | fault | ⟨ready, write, next⟩⟩
  · rw [midway] at acted
    cases acted
  · rw [midway] at acted
    cases acted
    exact Or.inl ⟨call, result, rfl, rfl, rfl⟩
  · rw [midway] at acted
    cases acted
  · rw [midway] at acted
    dsimp only at acted
    cases isReady : ready tasks.memory with
    | false =>
        rw [isReady] at acted
        cases acted
    | true =>
        rw [if_pos isReady] at acted
        cases wrote : write tasks.memory with
        | error fault =>
            rw [wrote] at acted
            cases acted
        | ok changed =>
            rw [wrote] at acted
            cases acted
            exact Or.inr ⟨call, ready, write, next, changed, rfl, isReady, wrote, rfl, rfl⟩

theorem act_fault (acted : act program (.next thread) tasks = .error (.fault fault)) :
    (∃ call, tasks.running thread = some (call, .stop fault)) ∨
    ∃ call ready write next, tasks.running thread = some (call, .step ready write next) ∧
      ready tasks.memory = true ∧ write tasks.memory = .error fault := by
  rw [act] at acted
  rcases midway : tasks.running thread with _ | ⟨call, result | stopped | ⟨ready, write, next⟩⟩
  · rw [midway] at acted
    cases acted
  · rw [midway] at acted
    cases acted
  · rw [midway] at acted
    cases acted
    exact Or.inl ⟨call, rfl⟩
  · rw [midway] at acted
    dsimp only at acted
    cases isReady : ready tasks.memory with
    | false =>
        rw [isReady] at acted
        cases acted
    | true =>
        rw [if_pos isReady] at acted
        cases wrote : write tasks.memory with
        | error fault =>
            rw [wrote] at acted
            cases acted
            exact Or.inr ⟨call, ready, write, next, rfl, isReady, wrote⟩
        | ok changed =>
            rw [wrote] at acted
            cases acted

end Moves

abbrev Log (Thread Call Result : Type) :=
  History (Move Thread Call) (Option ((Thread × Call) × Result))

def Move.call? : Move Thread Call → Option (Thread × Call)
  | .enter thread call => some (thread, call)
  | .next _ => none

def entered (moves : List (Move Thread Call)) : List (Thread × Call) := moves.filterMap Move.call?

def returned (log : Log Thread Call Result) : List ((Thread × Call) × Result) :=
  log.filterMap Prod.snd

def ofThread (thread : Thread) (events : List ((Thread × Call) × Result)) :
    List ((Thread × Call) × Result) :=
  events.filter fun event => event.1.1 = thread

omit [DecidableEq Thread] in
theorem entered_concat (moves : List (Move Thread Call)) (move : Move Thread Call) :
    entered (moves ++ [move]) = entered moves ++ move.call?.toList := by
  rw [entered, List.filterMap_append]
  cases move with
  | enter thread call => rfl
  | next thread => rfl

omit [DecidableEq Thread] in
theorem returned_concat (log : Log Thread Call Result) (move : Move Thread Call)
    (event : Option ((Thread × Call) × Result)) :
    returned (log ++ [(move, event)]) = returned log ++ event.toList := by
  cases event <;> simp [returned]

theorem ofThread_concat (thread : Thread) (events : List ((Thread × Call) × Result))
    (event : (Thread × Call) × Result) :
    ofThread thread (events ++ [event]) =
      ofThread thread events ++ if event.1.1 = thread then [event] else [] := by
  rw [ofThread, List.filter_append]
  by_cases own : event.1.1 = thread
  · simp [ofThread, own]
  · simp [ofThread, own]

end Machine

/-! ### Threads that do not disturb each other -/

section Separate

variable {State Cell Shown Thread Call Global Fault Refusal Result : Type}

/-- What is asked of the calls. `serve` is what they do one after the other, on some
other state, and `stands` says what a thread in no call finds in its own cells. -/
structure Separate (sharing : Sharing State Cell Shown)
    (program : Thread → Call → Program State Fault Result)
    (serve : Machine Global (Thread × Call) Result Refusal)
    (stands : Thread → Global → Set Cell → State → Prop) (start : State) : Prop where
  steady : ∀ state, sharing.Agree sharing.common start state → ∀ cell ∈ sharing.common,
    ¬ sharing.unused state cell
  seen : ∀ thread global own state other, stands thread global own state →
    sharing.Agree (own ∪ sharing.common) state other → stands thread global own other
  firm : ∀ thread global own state, stands thread global own state → sharing.Firm own state
  others : ∀ thread call global result next, serve (thread, call) global = .ok (result, next) →
    ∀ other own state, other ≠ thread → stands other global own state → stands other next own state
  calls : ∀ thread call global result next own state,
    serve (thread, call) global = .ok (result, next) → stands thread global own state →
      sharing.Agree sharing.common start state →
        sharing.Keeps (fun answer own state => answer = result ∧ stands thread next own state)
          (program thread call) own state

/-- A thread in no call stands where the calls made so far have left it. One in a call
comes to stand there. -/
def Placed [DecidableEq Thread] (sharing : Sharing State Cell Shown)
    (stands : Thread → Global → Set Cell → State → Prop)
    (events history : List ((Thread × Call) × Result)) (global : Global) (memory : State)
    (thread : Thread) (own : Set Cell) : Option (Call × Program State Fault Result) → Prop
  | none => stands thread global own memory ∧ ofThread thread history = ofThread thread events
  | some (call, program) =>
      ∃ ghost result, sharing.Agree (own ∪ sharing.common) ghost memory ∧
        sharing.Firm own ghost ∧
        sharing.Keeps (fun answer own state => answer = result ∧ stands thread global own state)
          program own ghost ∧
        ofThread thread history = ofThread thread events ++ [((thread, call), result)]

structure Sound [DecidableEq Thread] (sharing : Sharing State Cell Shown)
    (stands : Thread → Global → Set Cell → State → Prop) (start : State)
    (log : Log Thread Call Result) (tasks : Tasks State Thread Call Fault Result)
    (history : List ((Thread × Call) × Result)) (global : Global) (own : Thread → Set Cell) :
    Prop where
  apart : ∀ thread other, thread ≠ other → ∀ cell ∈ own thread, cell ∉ own other
  shared : ∀ thread, ∀ cell ∈ own thread, cell ∉ sharing.common
  common : sharing.Agree sharing.common start tasks.memory
  placed : ∀ thread, Placed sharing stands (returned log) history global tasks.memory thread
    (own thread) (tasks.running thread)

variable [DecidableEq Thread] {sharing : Sharing State Cell Shown}
  {program : Thread → Call → Program State Fault Result}
  {serve : Machine Global (Thread × Call) Result Refusal}
  {stands : Thread → Global → Set Cell → State → Prop} {start : State}
  {log : Log Thread Call Result} {tasks : Tasks State Thread Call Fault Result}
  {history : List ((Thread × Call) × Result)} {global : Global} {own : Thread → Set Cell}
  {events : List ((Thread × Call) × Result)} {memory after : State} {thread other : Thread}
  {cells taken : Set Cell} {running : Option (Call × Program State Fault Result)}

theorem Placed.firm (separate : Separate sharing program serve stands start)
    (placed : Placed sharing stands events history global memory thread cells running) :
    sharing.Firm cells memory := by
  cases running with
  | none => exact separate.firm thread global cells memory placed.1
  | some task =>
      obtain ⟨ghost, _, agree, firm, _⟩ := placed
      exact firm.agree agree

theorem Placed.elsewhere (separate : Separate sharing program serve stands start)
    (placed : Placed sharing stands events history global memory thread cells running)
    (agree : sharing.Agree (cells ∪ sharing.common) memory after) :
    Placed sharing stands events history global after thread cells running := by
  cases running with
  | none => exact ⟨separate.seen thread global cells memory after placed.1 agree, placed.2⟩
  | some task =>
      obtain ⟨ghost, result, same, rest⟩ := placed
      exact ⟨ghost, result, same.trans agree, rest⟩

theorem Placed.entered (separate : Separate sharing program serve stands start) {next : Global}
    {call : Call} {result : Result} (served : serve (other, call) global = .ok (result, next))
    (apart : thread ≠ other)
    (placed : Placed sharing stands events history global memory thread cells running) :
    Placed sharing stands events (history ++ [((other, call), result)]) next memory thread cells
      running := by
  have same : ofThread thread (history ++ [((other, call), result)]) = ofThread thread history := by
    rw [ofThread_concat, if_neg (Ne.symm apart), List.append_nil]
  have kept := separate.others other call global result next served thread
  cases running with
  | none => exact ⟨kept cells memory apart placed.1, same.trans placed.2⟩
  | some task =>
      obtain ⟨ghost, answer, agree, firm, keeps, expected⟩ := placed
      refine ⟨ghost, answer, agree, firm, ?_, same.trans expected⟩
      exact Sharing.keeps_mono keeps fun _ own state ended =>
        ⟨ended.1, kept own state apart ended.2⟩

theorem Placed.returned {event : (Thread × Call) × Result} (apart : event.1.1 ≠ thread)
    (placed : Placed sharing stands events history global memory thread cells running) :
    Placed sharing stands (events ++ [event]) history global memory thread cells running := by
  have same : ofThread thread (events ++ [event]) = ofThread thread events := by
    rw [ofThread_concat, if_neg apart, List.append_nil]
  cases running with
  | none => exact ⟨placed.1, placed.2.trans same.symm⟩
  | some task =>
      obtain ⟨ghost, answer, agree, firm, keeps, expected⟩ := placed
      refine ⟨ghost, answer, agree, firm, keeps, ?_⟩
      rw [same]
      exact expected

theorem Sound.common_kept (separate : Separate sharing program serve stands start)
    (sound : Sound sharing stands start log tasks history global own)
    (acts : sharing.Acts (own thread) taken tasks.memory after) :
    sharing.Agree sharing.common tasks.memory after ∧ ∀ cell ∈ taken, cell ∉ sharing.common := by
  have foreign (cell : Cell) (member : cell ∈ sharing.common) :
      cell ∉ own thread ∧ cell ∉ taken := by
    have notOwn : cell ∉ own thread := fun mine => sound.shared thread cell mine member
    refine ⟨notOwn, fun inTaken => ?_⟩
    rcases acts.takes cell inTaken with owned | unused
    · exact notOwn owned
    · exact separate.steady tasks.memory sound.common cell member unused
  constructor
  · intro cell member
    exact acts.changes cell (foreign cell member).1 (foreign cell member).2
  · exact fun cell inTaken member => (foreign cell member).2 inTaken

theorem Sound.others_kept (separate : Separate sharing program serve stands start)
    (sound : Sound sharing stands start log tasks history global own) (apart : other ≠ thread)
    (acts : sharing.Acts (own thread) taken tasks.memory after) :
    sharing.Agree (own other ∪ sharing.common) tasks.memory after ∧
      ∀ cell ∈ taken, cell ∉ own other := by
  have firm : sharing.Firm (own other) tasks.memory := (sound.placed other).firm separate
  have foreign (cell : Cell) (member : cell ∈ own other) : cell ∉ own thread ∧ cell ∉ taken := by
    have notOwn : cell ∉ own thread := sound.apart other thread apart cell member
    refine ⟨notOwn, fun inTaken => ?_⟩
    rcases acts.takes cell inTaken with owned | unused
    · exact notOwn owned
    · exact firm tasks.memory (Sharing.agree_refl _ _) cell member unused
  constructor
  · intro cell member
    rcases member with member | member
    · exact acts.changes cell (foreign cell member).1 (foreign cell member).2
    · exact (sound.common_kept separate acts).1 cell member
  · exact fun cell inTaken member => (foreign cell member).2 inTaken

theorem Sound.enter (separate : Separate sharing program serve stands start)
    (sound : Sound sharing stands start log tasks history global own) {call : Call}
    {result : Result} {next : Global} (idle : tasks.running thread = none)
    (served : serve (thread, call) global = .ok (result, next)) :
    Sound sharing stands start (log ++ [(.enter thread call, none)])
      (tasks.moved tasks.memory thread (some (call, program thread call)))
      (history ++ [((thread, call), result)]) next own := by
  refine ⟨sound.apart, sound.shared, sound.common, ?_⟩
  intro other
  rw [returned_concat, Option.toList_none, List.append_nil]
  by_cases same : other = thread
  · subst same
    have placed := sound.placed other
    rw [idle] at placed
    obtain ⟨standing, answered⟩ := placed
    rw [moved_self]
    refine ⟨tasks.memory, result, Sharing.agree_refl _ _,
      separate.firm other global _ _ standing, ?_, ?_⟩
    · exact separate.calls other call global result next _ _ served standing sound.common
    · rw [ofThread_concat, if_pos rfl, answered]
  · rw [moved_other same]
    exact (sound.placed other).entered separate served same

theorem Sound.access (separate : Separate sharing program serve stands start)
    (sound : Sound sharing stands start log tasks history global own) {call : Call}
    {ready : State → Bool} {write : State → Except Fault State}
    {next : State → Program State Fault Result}
    (midway : tasks.running thread = some (call, .step ready write next))
    (isReady : ready tasks.memory = true) :
    ∃ after taken, write tasks.memory = .ok after ∧
      Sound sharing stands start (log ++ [(.next thread, none)])
        (tasks.moved after thread (some (call, next tasks.memory))) history global
        (Function.update own thread taken) := by
  have placed := sound.placed thread
  rw [midway] at placed
  obtain ⟨ghost, result, agree, _, keeps, expected⟩ := placed
  obtain ⟨after, taken, changed, acted, acts, same, firm, rest⟩ := keeps tasks.memory agree isReady
  refine ⟨after, taken, acted, ?_⟩
  have elsewhere {other : Thread} (apart : other ≠ thread) := sound.others_kept separate apart acts
  refine ⟨?_, ?_, ?_, ?_⟩
  · intro first second apart
    by_cases front : first = thread
    · subst front
      rw [Function.update_self, Function.update_of_ne apart.symm]
      exact (elsewhere apart.symm).2
    · rw [Function.update_of_ne front]
      by_cases back : second = thread
      · subst back
        rw [Function.update_self]
        exact fun cell theirs inTaken => (elsewhere front).2 cell inTaken theirs
      · rw [Function.update_of_ne back]
        exact sound.apart first second apart
  · intro other
    by_cases mine : other = thread
    · subst mine
      rw [Function.update_self]
      exact (sound.common_kept separate acts).2
    · rw [Function.update_of_ne mine]
      exact sound.shared other
  · exact sound.common.trans ((sound.common_kept separate acts).1)
  · intro other
    rw [returned_concat, Option.toList_none, List.append_nil]
    by_cases mine : other = thread
    · subst mine
      rw [moved_self, Function.update_self]
      exact ⟨changed, result, same, firm, rest, expected⟩
    · rw [moved_other mine, Function.update_of_ne mine]
      exact (sound.placed other).elsewhere separate (elsewhere mine).1

theorem Sound.return (sound : Sound sharing stands start log tasks history global own)
    (separate : Separate sharing program serve stands start) {call : Call} {result : Result}
    (ends : tasks.running thread = some (call, .done result)) :
    Sound sharing stands start (log ++ [(.next thread, some ((thread, call), result))])
      (tasks.moved tasks.memory thread none) history global own := by
  refine ⟨sound.apart, sound.shared, sound.common, ?_⟩
  intro other
  rw [returned_concat, Option.toList_some]
  by_cases same : other = thread
  · subst same
    have placed := sound.placed other
    rw [ends] at placed
    obtain ⟨ghost, answer, agree, firm, ⟨rfl, standing⟩, expected⟩ := placed
    rw [moved_self]
    refine ⟨separate.seen other global _ _ _ standing agree, ?_⟩
    rw [ofThread_concat, if_pos rfl]
    exact expected
  · rw [moved_other same]
    exact (sound.placed other).returned (Ne.symm same)

/-- Whatever the turns the threads take: no access faults, each call that has returned
answered what it answers one after the other, and so do the cells in the end. -/
theorem sound_exec (separate : Separate sharing program serve stands start)
    (initial : ∀ thread, stands thread global (own thread) start)
    (apart : ∀ thread other, thread ≠ other → ∀ cell ∈ own thread, cell ∉ own other)
    (shared : ∀ thread, ∀ cell ∈ own thread, cell ∉ sharing.common)
    {moves : List (Move Thread Call)} (ran : exec (act program) (idleTasks start) moves = .ok (log, tasks))
    {last : Global} (served : exec serve global (entered moves) = .ok (history, last)) :
    ∃ own, Sound sharing stands start log tasks history last own := by
  have steps := invariant_exec
    (fun log tasks => ∀ history last,
      exec serve global (entered (log.map Prod.fst)) = .ok (history, last) →
        ∃ own, Sound sharing stands start log tasks history last own) ?_ ?_ ran
  · rw [exec_inputs ran] at steps
    exact steps history last served
  · intro history last served
    cases served
    exact ⟨own, apart, shared, Sharing.agree_refl _ _, fun thread => ⟨initial thread, rfl⟩⟩
  · intro log tasks move event after sound acted history last served
    rw [List.map_append, List.map_singleton, entered_concat] at served
    cases move with
    | enter thread call =>
        obtain ⟨prior, state, result, earlier, answered, rfl⟩ := exec_concat_ok.mp served
        obtain ⟨own, sound⟩ := sound prior state earlier
        obtain ⟨idle, rfl, rfl⟩ := act_enter acted
        exact ⟨own, sound.enter separate idle answered⟩
    | next thread =>
        dsimp only [Move.call?] at served
        rw [Option.toList_none, List.append_nil] at served
        obtain ⟨own, sound⟩ := sound history last served
        rcases act_next acted with ⟨call, result, ends, rfl, rfl⟩ |
          ⟨call, ready, write, next, changed, midway, isReady, wrote, rfl, rfl⟩
        · exact ⟨own, sound.return separate ends⟩
        · obtain ⟨reached, taken, written, kept⟩ := sound.access separate midway isReady
          rw [wrote] at written
          cases written
          exact ⟨_, kept⟩

theorem Sound.answered (sound : Sound sharing stands start log tasks history global own)
    (thread : Thread) : ofThread thread (returned log) <+: ofThread thread history := by
  have placed := sound.placed thread
  cases midway : tasks.running thread with
  | none =>
      rw [midway] at placed
      rw [placed.2]
  | some task =>
      rw [midway] at placed
      obtain ⟨ghost, result, _, _, _, expected⟩ := placed
      rw [expected]
      exact List.prefix_append _ _

theorem Sound.idle (sound : Sound sharing stands start log tasks history global own)
    (free : tasks.running thread = none) :
    stands thread global (own thread) tasks.memory ∧
      ofThread thread history = ofThread thread (returned log) := by
  have placed := sound.placed thread
  rw [free] at placed
  exact placed

theorem Sound.no_fault (separate : Separate sharing program serve stands start)
    (sound : Sound sharing stands start log tasks history global own) (thread : Thread)
    (fault : Fault) : act program (.next thread) tasks ≠ .error (.fault fault) := by
  intro acted
  have placed := sound.placed thread
  rcases act_fault acted with ⟨call, stopped⟩ | ⟨call, ready, write, next, midway, isReady, faulted⟩
  · rw [stopped] at placed
    obtain ⟨ghost, result, _, _, keeps, _⟩ := placed
    exact keeps
  · obtain ⟨changed, taken, wrote, _⟩ := sound.access separate midway isReady
    rw [faulted] at wrote
    cases wrote

end Separate

end CS421.Threads
