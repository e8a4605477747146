/-
Finite runs of a fallible machine, with the history of the answers it gave.

A machine takes an input and a state; it either answers and moves to a next
state, or faults. The rules below turn a fact about one step into a fact about
every part of a run. They know nothing of what the machine does.
-/

import Mathlib.Data.List.Infix

set_option autoImplicit false

namespace CS421.Runs

variable {State Input Answer Fault : Type*}

/-- One step of a machine. A fault ends the run that meets it. -/
abbrev Machine (State Input Answer Fault : Type*) :=
  Input → State → Except Fault (Answer × State)

abbrev History (Input Answer : Type*) := List (Input × Answer)

def exec (step : Machine State Input Answer Fault) :
    State → List Input → Except Fault (History Input Answer × State)
  | state, [] => .ok ([], state)
  | state, input :: rest =>
      match step input state with
      | .error fault => .error fault
      | .ok (answer, next) =>
          match exec step next rest with
          | .error fault => .error fault
          | .ok (history, final) => .ok ((input, answer) :: history, final)

variable {step : Machine State Input Answer Fault} {start : State}

@[simp] theorem exec_nil : exec step start [] = .ok ([], start) := rfl

theorem exec_cons_ok {input : Input} {rest : List Input}
    {history : History Input Answer} {final : State} :
    exec step start (input :: rest) = .ok (history, final) ↔
      ∃ answer next tail,
        step input start = .ok (answer, next) ∧
        exec step next rest = .ok (tail, final) ∧
        history = (input, answer) :: tail := by
  constructor
  · intro ran
    cases stepped : step input start with
    | error fault => simp [exec, stepped] at ran
    | ok out =>
        rcases out with ⟨answer, next⟩
        cases later : exec step next rest with
        | error fault => simp [exec, stepped, later] at ran
        | ok tail =>
            rcases tail with ⟨tail, state⟩
            simp only [exec, stepped, later, Except.ok.injEq, Prod.mk.injEq] at ran
            obtain ⟨rfl, rfl⟩ := ran
            exact ⟨answer, next, tail, rfl, later, rfl⟩
  · rintro ⟨answer, next, tail, stepped, later, rfl⟩
    simp only [exec, stepped, later]

theorem exec_concat (inputs : List Input) (input : Input) :
    exec step start (inputs ++ [input]) =
      match exec step start inputs with
      | .error fault => .error fault
      | .ok (history, state) =>
          match step input state with
          | .error fault => .error fault
          | .ok (answer, next) => .ok (history ++ [(input, answer)], next) := by
  induction inputs generalizing start with
  | nil =>
      rw [List.nil_append, exec_nil, exec]
      dsimp only
      cases step input start with
      | error fault => rfl
      | ok out => rfl
  | cons first rest ih =>
      rw [List.cons_append, exec, exec]
      cases step first start with
      | error fault => rfl
      | ok out =>
          dsimp only
          rw [ih]
          cases exec step out.2 rest with
          | error fault => rfl
          | ok before =>
              dsimp only
              cases step input before.2 with
              | error fault => rfl
              | ok last => rfl

theorem exec_concat_ok {inputs : List Input} {input : Input}
    {history : History Input Answer} {final : State} :
    exec step start (inputs ++ [input]) = .ok (history, final) ↔
      ∃ prior state answer,
        exec step start inputs = .ok (prior, state) ∧
        step input state = .ok (answer, final) ∧
        history = prior ++ [(input, answer)] := by
  rw [exec_concat]
  constructor
  · intro ran
    cases earlier : exec step start inputs with
    | error fault => simp [earlier] at ran
    | ok before =>
        cases stepped : step input before.2 with
        | error fault => simp [earlier, stepped] at ran
        | ok last =>
            simp only [earlier, stepped, Except.ok.injEq, Prod.mk.injEq] at ran
            obtain ⟨rfl, rfl⟩ := ran
            exact ⟨before.1, before.2, last.1, rfl, stepped, rfl⟩
  · rintro ⟨prior, state, answer, earlier, stepped, rfl⟩
    simp only [earlier, stepped]

theorem exec_concat_error {inputs : List Input} {input : Input} {fault : Fault} :
    exec step start (inputs ++ [input]) = .error fault ↔
      exec step start inputs = .error fault ∨
        ∃ history state, exec step start inputs = .ok (history, state) ∧
          step input state = .error fault := by
  rw [exec_concat]
  cases exec step start inputs with
  | error first => simp
  | ok before =>
      obtain ⟨prior, state⟩ := before
      cases stepped : step input state with
      | error last => simp [stepped]
      | ok last => simp [stepped]

theorem exec_inputs {inputs : List Input} {history : History Input Answer} {final : State}
    (ran : exec step start inputs = .ok (history, final)) : history.map Prod.fst = inputs := by
  induction inputs generalizing start history with
  | nil =>
      cases ran
      rfl
  | cons input rest ih =>
      obtain ⟨answer, next, tail, stepped, later, rfl⟩ := exec_cons_ok.mp ran
      rw [List.map_cons, ih later]

/-! ### Properties of every part of a run -/

/-- The property holds after every part of the run, the empty part and the
whole run included. -/
def Always (step : Machine State Input Answer Fault) (start : State) (inputs : List Input)
    (property : History Input Answer → State → Prop) : Prop :=
  ∀ prior, prior <+: inputs → ∀ history state,
    exec step start prior = .ok (history, state) → property history state

/-- Every input of the run meets the condition in the state it arrives in. -/
def EveryStep (step : Machine State Input Answer Fault) (start : State) (inputs : List Input)
    (condition : History Input Answer → State → Input → Prop) : Prop :=
  ∀ prior input, prior ++ [input] <+: inputs → ∀ history state,
    exec step start prior = .ok (history, state) → condition history state input

theorem always_nil {property : History Input Answer → State → Prop} :
    Always step start [] property ↔ property [] start := by
  constructor
  · intro always
    exact always [] (List.prefix_refl []) [] start rfl
  · intro holds prior before history state ran
    rw [List.prefix_nil.mp before] at ran
    cases ran
    exact holds

theorem always_concat {property : History Input Answer → State → Prop}
    {inputs : List Input} {input : Input} :
    Always step start (inputs ++ [input]) property ↔
      Always step start inputs property ∧
        ∀ history state, exec step start (inputs ++ [input]) = .ok (history, state) →
          property history state := by
  constructor
  · intro always
    exact ⟨fun prior before => always prior (before.trans (List.prefix_append inputs [input])),
      always (inputs ++ [input]) (List.prefix_refl _)⟩
  · rintro ⟨earlier, last⟩ prior before
    rcases List.prefix_concat_iff.mp before with rfl | within
    · exact last
    · exact earlier prior within

def endsWith (step : Machine State Input Answer Fault) (start : State) (inputs : List Input)
    (check : History Input Answer → State → Bool) : Bool :=
  match exec step start inputs with
  | .error _ => false
  | .ok (history, final) => check history final

theorem exec_of_endsWith {inputs : List Input} {check : History Input Answer → State → Bool}
    (ends : endsWith step start inputs check = true) :
    ∃ history final, exec step start inputs = .ok (history, final) ∧
      check history final = true := by
  unfold endsWith at ends
  cases ran : exec step start inputs with
  | error fault =>
      rw [ran] at ends
      cases ends
  | ok out =>
      rw [ran] at ends
      exact ⟨out.1, out.2, rfl, ends⟩

theorem not_always_of_endsWith {property : History Input Answer → State → Prop}
    {inputs : List Input} (check : History Input Answer → State → Bool)
    (refutes : ∀ history state, check history state = true → ¬ property history state)
    (ends : endsWith step start inputs check = true) :
    ¬ Always step start inputs property := by
  intro always
  unfold endsWith at ends
  cases ran : exec step start inputs with
  | error fault =>
      rw [ran] at ends
      cases ends
  | ok out =>
      rw [ran] at ends
      exact refutes out.1 out.2 ends (always inputs (List.prefix_refl inputs) out.1 out.2 ran)

theorem everyStep_nil {condition : History Input Answer → State → Input → Prop} :
    EveryStep step start [] condition := by
  intro prior input before
  have short := before.length_le
  simp at short

theorem everyStep_cons {condition : State → Input → Prop} {input : Input} {rest : List Input} :
    EveryStep step start (input :: rest) (fun _ state input => condition state input) ↔
      condition start input ∧ ∀ answer next, step input start = .ok (answer, next) →
        EveryStep step next rest (fun _ state input => condition state input) := by
  constructor
  · intro every
    have first : [] ++ [input] <+: input :: rest := ⟨rest, rfl⟩
    refine ⟨every [] input first [] start rfl, ?_⟩
    intro answer next stepped prior other before history state ran
    exact every (input :: prior) other (List.cons_prefix_cons.mpr ⟨rfl, before⟩)
      ((input, answer) :: history) state
      (exec_cons_ok.mpr ⟨answer, next, history, stepped, ran, rfl⟩)
  · rintro ⟨first, later⟩ prior other before history state ran
    cases prior with
    | nil =>
        obtain ⟨same, _⟩ := List.cons_prefix_cons.mp before
        cases same
        cases ran
        exact first
    | cons head prior =>
        obtain ⟨rfl, within⟩ := List.cons_prefix_cons.mp before
        obtain ⟨answer, next, tail, stepped, ran, _⟩ := exec_cons_ok.mp ran
        exact later answer next stepped prior other within tail state ran

theorem everyStep_of_mem {condition : State → Input → Prop} {inputs : List Input}
    (all : ∀ input ∈ inputs, ∀ state, condition state input) :
    EveryStep step start inputs (fun _ state input => condition state input) := by
  intro prior input before history state _
  exact all input (before.subset (List.mem_append_right prior List.mem_cons_self)) state

theorem everyStep_concat {condition : History Input Answer → State → Input → Prop}
    {inputs : List Input} {input : Input} :
    EveryStep step start (inputs ++ [input]) condition ↔
      EveryStep step start inputs condition ∧
        ∀ history state, exec step start inputs = .ok (history, state) →
          condition history state input := by
  constructor
  · intro every
    exact ⟨fun prior next before => every prior next (before.trans (List.prefix_append inputs [input])),
      every inputs input (List.prefix_refl _)⟩
  · rintro ⟨earlier, last⟩ prior next before
    rcases List.prefix_concat_iff.mp before with same | within
    · obtain ⟨rfl, equal⟩ := List.append_inj' same rfl
      cases equal
      exact last
    · exact earlier prior next within

def Spares (step : Machine State Input Answer Fault) (start : State) (inputs : List Input)
    (bad : Fault → Prop) : Prop :=
  ∀ fault, exec step start inputs = .error fault → ¬ bad fault

theorem spares_nil {bad : Fault → Prop} : Spares step start [] bad := by
  intro fault ended
  cases ended

theorem spares_concat {bad : Fault → Prop} {inputs : List Input} {input : Input} :
    Spares step start (inputs ++ [input]) bad ↔
      Spares step start inputs bad ∧
        ∀ history state, exec step start inputs = .ok (history, state) →
          ∀ fault, step input state = .error fault → ¬ bad fault := by
  constructor
  · intro spares
    exact ⟨fun fault ended => spares fault (exec_concat_error.mpr (Or.inl ended)),
      fun history state ran fault stepped =>
        spares fault (exec_concat_error.mpr (Or.inr ⟨history, state, ran, stepped⟩))⟩
  · rintro ⟨earlier, last⟩ fault ended
    rcases exec_concat_error.mp ended with before | ⟨history, state, ran, stepped⟩
    · exact earlier fault before
    · exact last history state ran fault stepped

/-- When a condition on the inputs says which steps do not end in a fault of the
kind, a run is spared it exactly when each of its steps meets the condition. -/
theorem spares_iff_everyStep {bad : Fault → Prop} {condition : State → Input → Prop}
    (sharp : ∀ state input,
      (∀ fault, step input state = .error fault → ¬ bad fault) ↔ condition state input)
    (inputs : List Input) :
    Spares step start inputs bad ↔
      EveryStep step start inputs (fun _ state input => condition state input) := by
  induction inputs using List.reverseRecOn with
  | nil => exact iff_of_true spares_nil everyStep_nil
  | append_singleton inputs input ih =>
      rw [spares_concat, everyStep_concat, ih]
      refine and_congr_right fun _ => ?_
      refine forall_congr' fun history => forall_congr' fun state => forall_congr' fun ran => ?_
      exact sharp state input

/-! ### Invariants -/

variable (invariant : History Input Answer → State → Prop)

theorem invariant_everyStep {condition : History Input Answer → State → Input → Prop}
    (initial : invariant [] start)
    (kept : ∀ history state input answer next, invariant history state →
      condition history state input → step input state = .ok (answer, next) →
        invariant (history ++ [(input, answer)]) next)
    {inputs : List Input} (every : EveryStep step start inputs condition)
    {history : History Input Answer} {final : State}
    (ran : exec step start inputs = .ok (history, final)) :
    invariant history final := by
  induction inputs using List.reverseRecOn generalizing history final with
  | nil =>
      cases ran
      exact initial
  | append_singleton inputs input ih =>
      obtain ⟨earlier, last⟩ := everyStep_concat.mp every
      obtain ⟨prior, state, answer, before, stepped, rfl⟩ := exec_concat_ok.mp ran
      exact kept prior state input answer final (ih earlier before) (last prior state before) stepped

theorem invariant_exec (initial : invariant [] start)
    (kept : ∀ history state input answer next, invariant history state →
      step input state = .ok (answer, next) → invariant (history ++ [(input, answer)]) next)
    {inputs : List Input} {history : History Input Answer} {final : State}
    (ran : exec step start inputs = .ok (history, final)) :
    invariant history final := by
  have every : EveryStep step start inputs (fun _ _ _ => True) :=
    fun _ _ _ _ _ _ => trivial
  apply invariant_everyStep invariant initial ?_ every ran
  intro history state input answer next holds _ stepped
  exact kept history state input answer next holds stepped

/-- The invariant may rest on a property that is known of every part of the run. -/
theorem always_of_always {property : History Input Answer → State → Prop}
    (initial : invariant [] start)
    (kept : ∀ history state input answer next, invariant history state → property history state →
      step input state = .ok (answer, next) → property (history ++ [(input, answer)]) next →
        invariant (history ++ [(input, answer)]) next)
    {inputs : List Input} (holds : Always step start inputs property) :
    Always step start inputs invariant := by
  induction inputs using List.reverseRecOn with
  | nil => exact always_nil.mpr initial
  | append_singleton inputs input ih =>
      obtain ⟨earlier, last⟩ := always_concat.mp holds
      refine always_concat.mpr ⟨ih earlier, ?_⟩
      intro history final ran
      obtain ⟨prior, state, answer, before, stepped, rfl⟩ := exec_concat_ok.mp ran
      have whole := List.prefix_refl inputs
      exact kept prior state input answer final (ih earlier inputs whole prior state before)
        (earlier inputs whole prior state before) stepped (last _ final ran)

theorem exec_total (initial : invariant [] start)
    (kept : ∀ history state input answer next, invariant history state →
      step input state = .ok (answer, next) → invariant (history ++ [(input, answer)]) next)
    (total : ∀ history state input, invariant history state →
      ∃ answer next, step input state = .ok (answer, next))
    (inputs : List Input) :
    ∃ history final, exec step start inputs = .ok (history, final) := by
  induction inputs using List.reverseRecOn with
  | nil => exact ⟨[], start, rfl⟩
  | append_singleton inputs input ih =>
      obtain ⟨prior, state, earlier⟩ := ih
      obtain ⟨answer, next, stepped⟩ :=
        total prior state input (invariant_exec invariant initial kept earlier)
      exact ⟨prior ++ [(input, answer)], next,
        exec_concat_ok.mpr ⟨prior, state, answer, earlier, stepped, rfl⟩⟩

/-- When a step under the invariant that breaks the condition also breaks the
property, a run keeps the property throughout exactly when each of its steps
meets the condition. -/
theorem always_iff_everyStep {property : History Input Answer → State → Prop}
    {condition : History Input Answer → State → Input → Prop}
    (initial : invariant [] start)
    (kept : ∀ history state input answer next, invariant history state →
      condition history state input → step input state = .ok (answer, next) →
        invariant (history ++ [(input, answer)]) next)
    (sound : ∀ history state, invariant history state → property history state)
    (sharp : ∀ history state input, invariant history state → ¬ condition history state input →
      ∃ answer next, step input state = .ok (answer, next) ∧
        ¬ property (history ++ [(input, answer)]) next)
    (inputs : List Input) :
    Always step start inputs property ↔ EveryStep step start inputs condition := by
  induction inputs using List.reverseRecOn with
  | nil => exact iff_of_true (always_nil.mpr (sound [] start initial)) everyStep_nil
  | append_singleton inputs input ih =>
      rw [always_concat, everyStep_concat, ih]
      refine and_congr_right fun every => ?_
      constructor
      · intro holds history state ran
        by_contra broken
        obtain ⟨answer, next, stepped, fails⟩ := sharp history state input
          (invariant_everyStep invariant initial kept every ran) broken
        exact fails (holds _ next
          (exec_concat_ok.mpr ⟨history, state, answer, ran, stepped, rfl⟩))
      · intro meets history final ran
        obtain ⟨prior, state, answer, before, stepped, rfl⟩ := exec_concat_ok.mp ran
        exact sound _ final (kept prior state input answer final
          (invariant_everyStep invariant initial kept every before) (meets prior state before) stepped)

theorem everyStep_iff {left right : History Input Answer → State → Input → Prop}
    (initial : invariant [] start)
    (kept : ∀ history state input answer next, invariant history state →
      left history state input → step input state = .ok (answer, next) →
        invariant (history ++ [(input, answer)]) next)
    (same : ∀ history state input, invariant history state →
      (left history state input ↔ right history state input))
    (inputs : List Input) :
    EveryStep step start inputs left ↔ EveryStep step start inputs right := by
  induction inputs using List.reverseRecOn with
  | nil => exact iff_of_true everyStep_nil everyStep_nil
  | append_singleton inputs input ih =>
      rw [everyStep_concat, everyStep_concat, ← ih]
      refine and_congr_right fun every => ?_
      refine forall_congr' fun history => forall_congr' fun state => forall_congr' fun ran => ?_
      exact same history state input (invariant_everyStep invariant initial kept every ran)

/-! ### Two machines -/

theorem exec_simulated {Other Move OtherFault : Type*} {other : Machine Other Move Answer OtherFault}
    (translate : Move → Input) (related : State → Other → Prop) (condition : Other → Move → Prop)
    (steps : ∀ state second move answer next, related state second → condition second move →
      step (translate move) state = .ok (answer, next) →
        ∃ after, other move second = .ok (answer, after) ∧ related next after)
    {second : Other} (initial : related start second) {moves : List Move}
    (every : EveryStep other second moves (fun _ state move => condition state move))
    {history : History Input Answer} {final : State}
    (ran : exec step start (moves.map translate) = .ok (history, final)) :
    ∃ log last, exec other second moves = .ok (log, last) ∧ related final last ∧
      log.map Prod.snd = history.map Prod.snd := by
  induction moves using List.reverseRecOn generalizing history final with
  | nil =>
      cases ran
      exact ⟨[], second, rfl, initial, rfl⟩
  | append_singleton moves move ih =>
      rw [List.map_append, List.map_singleton] at ran
      obtain ⟨prior, state, answer, earlier, stepped, rfl⟩ := exec_concat_ok.mp ran
      obtain ⟨before, last⟩ := everyStep_concat.mp every
      obtain ⟨log, middle, reached, holds, same⟩ := ih before earlier
      obtain ⟨after, followed, kept⟩ :=
        steps state middle move answer final holds (last log middle reached) stepped
      refine ⟨log ++ [(move, answer)], after,
        exec_concat_ok.mpr ⟨log, middle, answer, reached, followed, rfl⟩, kept, ?_⟩
      rw [List.map_append, List.map_append, same]
      rfl

/-- A run seen through one part of the state is the run of the inputs that are
addressed to that part, on a machine of its own. -/
theorem exec_project {Part PartFault : Type*} {act : Machine Part Input Answer PartFault}
    (project : State → Part) (addressed : Input → Bool) (valid : State → Prop)
    (kept : ∀ state input answer next, valid state → step input state = .ok (answer, next) →
      valid next)
    (own : ∀ state input answer next, valid state → addressed input = true →
      step input state = .ok (answer, next) → act input (project state) = .ok (answer, project next))
    (other : ∀ state input answer next, valid state → addressed input = false →
      step input state = .ok (answer, next) → project next = project state)
    {inputs : List Input} {history : History Input Answer} {final : State} (initial : valid start)
    (ran : exec step start inputs = .ok (history, final)) :
    exec act (project start) (inputs.filter addressed) =
      .ok (history.filter (fun event => addressed event.1), project final) := by
  induction inputs generalizing start history with
  | nil =>
      cases ran
      rfl
  | cons input rest ih =>
      obtain ⟨answer, next, tail, stepped, later, rfl⟩ := exec_cons_ok.mp ran
      have rested := ih (kept start input answer next initial stepped) later
      rw [List.filter_cons, List.filter_cons]
      cases chosen : addressed input with
      | true =>
          have acted := own start input answer next initial chosen stepped
          exact exec_cons_ok.mpr ⟨answer, project next, _, acted, rested, rfl⟩
      | false =>
          rw [other start input answer next initial chosen stepped] at rested
          exact rested

end CS421.Runs
