/-
What one user of a machine can learn of the others.

Two states are alike for a user when they look the same to it. If the inputs of
the others leave a state alike, and the user's own inputs get the same answer
from alike states and leave them alike, then the user sees of a run what it would
see if the others had not been there.
-/

import CS421.Runs

set_option autoImplicit false

namespace CS421.Runs

variable {State Input Answer Fault Sight : Type*}

/-- `own` are the inputs of the user, and `sees` is what it gets to see of an
answer. -/
structure Unwinds (step : Machine State Input Answer Fault) (valid : Input → Prop)
    (own : Input → Bool) (sees : Input → Answer → Sight) (alike : State → State → Prop) : Prop where
  trans : ∀ {first second third}, alike first second → alike second third → alike first third
  hidden : ∀ {input state answer next}, valid input → own input = false →
    step input state = .ok (answer, next) → alike next state
  consistent : ∀ {input state other answer next}, valid input → own input = true →
    alike state other → step input state = .ok (answer, next) →
      ∃ reply following, step input other = .ok (reply, following) ∧ alike next following ∧
        sees input reply = sees input answer

def sighted (own : Input → Bool) (sees : Input → Answer → Sight)
    (history : History Input Answer) : List (Input × Sight) :=
  (history.filter (fun entry => own entry.1)).map (fun entry => (entry.1, sees entry.1 entry.2))

theorem sighted_own {own : Input → Bool} {sees : Input → Answer → Sight} {input : Input}
    (user : own input = true) (answer : Answer) (history : History Input Answer) :
    sighted own sees ((input, answer) :: history) =
      (input, sees input answer) :: sighted own sees history := by
  simp only [sighted, List.filter_cons, user, if_true, List.map_cons]

theorem sighted_other {own : Input → Bool} {sees : Input → Answer → Sight} {input : Input}
    (stranger : own input = false) (answer : Answer) (history : History Input Answer) :
    sighted own sees ((input, answer) :: history) = sighted own sees history := by
  simp only [sighted, List.filter_cons, stranger, Bool.false_eq_true, if_false]

variable {step : Machine State Input Answer Fault} {valid : Input → Prop} {own : Input → Bool}
  {sees : Input → Answer → Sight} {alike : State → State → Prop} {start other final : State}

theorem Unwinds.purge (unwinds : Unwinds step valid own sees alike) {inputs : List Input}
    {history : History Input Answer} (made : ∀ input ∈ inputs, valid input)
    (same : alike start other) (ran : exec step start inputs = .ok (history, final)) :
    ∃ purged last, exec step other (inputs.filter own) = .ok (purged, last) ∧ alike final last ∧
      sighted own sees purged = sighted own sees history := by
  induction inputs generalizing start other history with
  | nil =>
      cases ran
      exact ⟨[], other, rfl, same, rfl⟩
  | cons input rest ih =>
      obtain ⟨answer, next, tail, stepped, later, rfl⟩ := exec_cons_ok.mp ran
      have first : valid input := made input List.mem_cons_self
      have others : ∀ input ∈ rest, valid input :=
        fun other member => made other (List.mem_cons_of_mem input member)
      cases user : own input with
      | false =>
          have unchanged := unwinds.hidden first user stepped
          obtain ⟨purged, last, run, same, seen⟩ := ih others (unwinds.trans unchanged same) later
          rw [List.filter_cons_of_neg (Bool.eq_false_iff.mp user), sighted_other user]
          exact ⟨purged, last, run, same, seen⟩
      | true =>
          obtain ⟨reply, following, replied, alike, sight⟩ :=
            unwinds.consistent first user same stepped
          obtain ⟨purged, last, run, same, seen⟩ := ih others alike later
          rw [List.filter_cons_of_pos user, sighted_own user]
          refine ⟨(input, reply) :: purged, last, ?_, same, ?_⟩
          · exact exec_cons_ok.mpr ⟨reply, following, purged, replied, run, rfl⟩
          · rw [sighted_own user, seen, sight]

end CS421.Runs
