/-
First-in first-out queues, one for each key, and the histories of what is put
into them and taken out of them.

A step of a system puts one item at the end of one queue, takes the first item
of one queue, or touches no queue. Whatever the steps are and in whatever order
they come, what was taken from a queue followed by what is left in it is what
was there at the start followed by what was put in.
-/

import CS421.Runs
import Mathlib.Logic.Function.Basic

set_option autoImplicit false

namespace CS421.Queues

variable {Key Item : Type*}

inductive Effect (Key Item : Type*) where
  | put (key : Key) (item : Item)
  | take (key : Key) (item : Item)
  | none

inductive Moves : Effect Key Item → (Key → List Item) → (Key → List Item) → Prop where
  | put {before after : Key → List Item} (key : Key) (item : Item)
      (own : after key = before key ++ [item]) (other : ∀ k, k ≠ key → after k = before k) :
      Moves (.put key item) before after
  | take {before after : Key → List Item} (key : Key) (item : Item)
      (own : before key = item :: after key) (other : ∀ k, k ≠ key → after k = before k) :
      Moves (.take key item) before after
  | none (queues : Key → List Item) : Moves .none queues queues

def Effect.map {Image : Type*} (f : Item → Image) : Effect Key Item → Effect Key Image
  | .put key item => .put key (f item)
  | .take key item => .take key (f item)
  | .none => .none

theorem Moves.map {Image : Type*} (f : Item → Image) {effect : Effect Key Item}
    {before after : Key → List Item} (moves : Moves effect before after) :
    Moves (effect.map f) (fun key => (before key).map f) (fun key => (after key).map f) := by
  cases moves with
  | put key item own other =>
      refine .put key (f item) ?_ (fun k apart => congrArg (List.map f) (other k apart))
      rw [own, List.map_append]
      rfl
  | take key item own other =>
      refine .take key (f item) ?_ (fun k apart => congrArg (List.map f) (other k apart))
      rw [own, List.map_cons]
  | none => exact .none _

variable [DecidableEq Key]

def Effect.entered (key : Key) : Effect Key Item → Option Item
  | .put k item => if k = key then some item else Option.none
  | .take _ _ | .none => Option.none

def Effect.left (key : Key) : Effect Key Item → Option Item
  | .take k item => if k = key then some item else Option.none
  | .put _ _ | .none => Option.none

/-- The laws of one step: an item that enters goes last, one that leaves was
first, and no step does both. -/
theorem Moves.balance {effect : Effect Key Item} {before after : Key → List Item}
    (moves : Moves effect before after) (key : Key) :
    before key ++ (effect.entered key).toList = (effect.left key).toList ++ after key := by
  cases moves with
  | put k item own other =>
      by_cases same : k = key
      · subst k
        simp [Effect.entered, Effect.left, own]
      · simp [Effect.entered, Effect.left, same, other key (Ne.symm same)]
  | take k item own other =>
      by_cases same : k = key
      · subst k
        simp [Effect.entered, Effect.left, own]
      · simp [Effect.entered, Effect.left, same, other key (Ne.symm same)]
  | none => simp [Effect.entered, Effect.left]

open Runs

variable {State Input Answer Fault : Type*} {step : Machine State Input Answer Fault}

def entered (effect : Input × Answer → Effect Key Item) (key : Key)
    (history : History Input Answer) : List Item :=
  history.filterMap (fun event => (effect event).entered key)

def left (effect : Input × Answer → Effect Key Item) (key : Key)
    (history : History Input Answer) : List Item :=
  history.filterMap (fun event => (effect event).left key)

private theorem filterMap_concat {α β : Type*} (f : α → Option β) (history : List α) (last : α) :
    (history ++ [last]).filterMap f = history.filterMap f ++ (f last).toList := by
  rw [List.filterMap_append]
  cases found : f last with
  | none => simp [found]
  | some value => simp [found]

/-- Nothing is lost, repeated or reordered in any run: an invariant of every
machine whose steps move the queues. -/
theorem conserved (effect : Input × Answer → Effect Key Item) (queues : State → Key → List Item)
    (start : State)
    (moves : ∀ state input answer next, step input state = .ok (answer, next) →
      Moves (effect (input, answer)) (queues state) (queues next))
    {inputs : List Input} {history : History Input Answer} {final : State}
    (ran : exec step start inputs = .ok (history, final)) (key : Key) :
    left effect key history ++ queues final key =
      queues start key ++ entered effect key history := by
  have initial : left effect key [] ++ queues start key =
      queues start key ++ entered effect key [] := (List.append_nil _).symm
  refine invariant_exec (fun history state =>
    left effect key history ++ queues state key = queues start key ++ entered effect key history)
    initial ?_ ran
  intro history state input answer next before stepped
  have balance := (moves state input answer next stepped).balance key
  unfold left entered at before ⊢
  rw [filterMap_concat, filterMap_concat, List.append_assoc, ← balance, ← List.append_assoc, before,
    List.append_assoc]

end CS421.Queues
