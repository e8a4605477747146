/-
Loops that need not end.

A turn of a loop goes on to another state, ends with a result, or faults. The
rules below say when a loop ends and with what, and what holds in every state it
comes to. They know nothing of what a turn does.
-/

import Mathlib.Tactic.TypeStar

set_option autoImplicit false

namespace CS421.Loops

variable {State Result Fault : Type*}

inductive Turn (State Result Fault : Type*) where
  | again (state : State)
  | done (result : Result)
  | stop (fault : Fault)

abbrev Body (State Result Fault : Type*) := State → Turn State Result Fault

/-- The loop, for so many turns at most. -/
def run (body : Body State Result Fault) : Nat → State → Option (Except Fault Result)
  | 0, _ => none
  | fuel + 1, state =>
      match body state with
      | .again next => run body fuel next
      | .done result => some (.ok result)
      | .stop fault => some (.error fault)

def Ends (body : Body State Result Fault) (start : State) (result : Result) : Prop :=
  ∃ fuel, run body fuel start = some (.ok result)

inductive Reaches (body : Body State Result Fault) : State → State → Prop where
  | here (state : State) : Reaches body state state
  | turn {first next last : State} (goes : body first = .again next)
      (later : Reaches body next last) : Reaches body first last

/-- A turn that goes on to a state of the first kind or ends with a result of
the second. -/
def Turn.Meets (next : State → Prop) (last : Result → Prop) :
    Turn State Result Fault → Prop
  | .again state => next state
  | .done result => last result
  | .stop _ => False

def Turn.Follows {Other Final OtherFault : Type*} (states : State → Other → Prop)
    (results : Result → Final → Prop) :
    Turn State Result Fault → Turn Other Final OtherFault → Prop
  | .again state, .again other => states state other
  | .done result, .done final => results result final
  | _, _ => False

def Follows {Final OtherFault : Type*} (results : Result → Final → Prop) :
    Option (Except Fault Result) → Option (Except OtherFault Final) → Prop
  | none, none => True
  | some (.ok result), some (.ok final) => results result final
  | _, _ => False

section Rules

variable {body : Body State Result Fault} {start : State}

theorem reaches_one {next : State} (goes : body start = .again next) : Reaches body start next :=
  .turn goes (.here next)

theorem invariant_reaches (invariant : State → Prop)
    (kept : ∀ state next, invariant state → body state = .again next → invariant next)
    (initial : invariant start) {last : State} (reaches : Reaches body start last) :
    invariant last := by
  induction reaches with
  | here state => exact initial
  | turn goes _ ih => exact ih (kept _ _ initial goes)

theorem post_of_run (invariant : State → Prop) (post : Result → Prop)
    (turns : ∀ state, invariant state → (body state).Meets invariant post)
    (initial : invariant start) {fuel : Nat} {result : Result}
    (ran : run body fuel start = some (.ok result)) : post result := by
  induction fuel generalizing start with
  | zero => cases ran
  | succ fuel ih =>
      have met := turns start initial
      rw [run] at ran
      cases turned : body start with
      | again next =>
          rw [turned] at ran met
          exact ih met ran
      | done result =>
          rw [turned] at ran met
          cases ran
          exact met
      | stop fault =>
          rw [turned] at ran
          cases ran

theorem reaches_of_run {fuel : Nat} {result : Result}
    (ran : run body fuel start = some (.ok result)) :
    ∃ last, Reaches body start last ∧ body last = .done result := by
  induction fuel generalizing start with
  | zero => cases ran
  | succ fuel ih =>
      rw [run] at ran
      cases turned : body start with
      | again next =>
          rw [turned] at ran
          obtain ⟨last, reaches, ends⟩ := ih ran
          exact ⟨last, .turn turned reaches, ends⟩
      | done final =>
          rw [turned] at ran
          cases ran
          exact ⟨start, .here start, turned⟩
      | stop fault =>
          rw [turned] at ran
          cases ran

theorem run_unique {fuel other : Nat} {first second : Except Fault Result}
    (ran : run body fuel start = some first) (reran : run body other start = some second) :
    first = second := by
  induction fuel generalizing start other with
  | zero => cases ran
  | succ fuel ih =>
      cases other with
      | zero => cases reran
      | succ other =>
          rw [run] at ran reran
          cases turned : body start with
          | again next =>
              rw [turned] at ran reran
              exact ih ran reran
          | done result =>
              rw [turned] at ran reran
              exact Option.some.inj (ran.symm.trans reran)
          | stop fault =>
              rw [turned] at ran reran
              exact Option.some.inj (ran.symm.trans reran)

/-! ### When a loop ends -/

theorem ends_of_done {result : Result} (ends : body start = .done result) :
    Ends body start result := by
  refine ⟨1, ?_⟩
  rw [run, ends]

theorem Ends.after {next : State} {result : Result} (goes : body start = .again next)
    (ends : Ends body next result) : Ends body start result := by
  obtain ⟨fuel, ran⟩ := ends
  refine ⟨fuel + 1, ?_⟩
  rw [run, goes]
  exact ran

/-- A loop ends when each of its turns keeps an invariant of smaller rank. -/
theorem ends_of_rank (invariant : Nat → State → Prop) (post : Result → Prop)
    (turns : ∀ rank state, invariant rank state →
      (body state).Meets (fun next => ∃ smaller, smaller < rank ∧ invariant smaller next) post)
    {rank : Nat} (initial : invariant rank start) : ∃ result, Ends body start result ∧ post result := by
  induction rank using Nat.strongRecOn generalizing start with
  | ind rank ih =>
      have met := turns rank start initial
      cases turned : body start with
      | again next =>
          rw [turned] at met
          obtain ⟨smaller, less, holds⟩ := met
          obtain ⟨result, ends, reached⟩ := ih smaller less holds
          exact ⟨result, ends.after turned, reached⟩
      | done result =>
          rw [turned] at met
          exact ⟨result, ends_of_done turned, met⟩
      | stop fault =>
          rw [turned] at met
          exact met.elim

theorem rank_reaches (invariant : Nat → State → Prop) {post : Result → Prop}
    (turns : ∀ rank state, invariant rank state →
      (body state).Meets (fun next => ∃ smaller, smaller < rank ∧ invariant smaller next) post)
    {rank : Nat} (initial : invariant rank start) {last : State} (reaches : Reaches body start last) :
    ∃ rank, invariant rank last := by
  refine invariant_reaches (fun state => ∃ rank, invariant rank state) ?_ ⟨rank, initial⟩ reaches
  intro state next ⟨rank, holds⟩ turned
  have met := turns rank state holds
  rw [turned] at met
  obtain ⟨smaller, _, kept⟩ := met
  exact ⟨smaller, kept⟩

variable {Other Final OtherFault : Type*}

theorem run_follows {other : Body Other Final OtherFault} (states : State → Other → Prop)
    (results : Result → Final → Prop)
    (turns : ∀ state second, states state second →
      (body state).Follows states results (other second))
    {second : Other} (initial : states start second) (fuel : Nat) :
    Follows results (run body fuel start) (run other fuel second) := by
  induction fuel generalizing start second with
  | zero => trivial
  | succ fuel ih =>
      have same := turns start second initial
      rw [run, run]
      cases first : body start with
      | again next =>
          cases later : other second with
          | again following =>
              rw [first, later] at same
              exact ih same
          | done final => rw [first, later] at same; exact same.elim
          | stop fault => rw [first, later] at same; exact same.elim
      | done result =>
          cases later : other second with
          | again following => rw [first, later] at same; exact same.elim
          | done final =>
              rw [first, later] at same
              exact same
          | stop fault => rw [first, later] at same; exact same.elim
      | stop fault =>
          rw [first] at same
          exact same.elim

section Follows

variable {results : Result → Final → Prop} {first : Option (Except Fault Result)}
  {second : Option (Except OtherFault Final)}

theorem Follows.ends_iff (same : Follows results first second) :
    (∃ result, first = some (.ok result)) ↔ ∃ final, second = some (.ok final) := by
  match first, second, same with
  | none, none, _ => simp
  | some (.ok left), some (.ok right), _ => simp

theorem Follows.none_iff (same : Follows results first second) : first = none ↔ second = none := by
  match first, second, same with
  | none, none, _ => simp
  | some (.ok left), some (.ok right), _ => simp

theorem Follows.result {result : Result} (same : Follows results first second)
    (ended : first = some (.ok result)) : ∃ final, results result final := by
  match first, second, same with
  | some (.ok left), some (.ok right), same =>
      cases ended
      exact ⟨right, same⟩

end Follows

theorem Follows.ok_iff {first : Option (Except Fault Result)}
    {second : Option (Except OtherFault Result)} (same : Follows Eq first second) {result : Result} :
    first = some (.ok result) ↔ second = some (.ok result) := by
  match first, second, same with
  | none, none, _ => simp
  | some (.ok left), some (.ok right), same => rw [show left = right from same]; simp

end Rules

end CS421.Loops
