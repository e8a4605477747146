/-
Sets that are kept as lists, one for each key, and the histories of what enters
them and what leaves them.

An item that enters goes to the end of its list. Whatever the order of the
changes, the list of a key holds the items whose last change was to enter, each
once, in the order in which they last entered.
-/

import CS421.Runs
import Mathlib.Data.List.Nodup
import Mathlib.Logic.Function.Basic

set_option autoImplicit false

namespace CS421.Rosters

variable {Key Item : Type*}

inductive Change (Key Item : Type*) where
  | enter (key : Key) (item : Item)
  | leave (key : Key) (item : Item)
  | none

def Change.About (change : Change Key Item) (key : Key) (item : Item) : Prop :=
  change = .enter key item ∨ change = .leave key item

/-- The last change about the item and the key was to enter. -/
def LastEntered (key : Key) (item : Item) (changes : List (Change Key Item)) : Prop :=
  ∃ before after, changes = before ++ .enter key item :: after ∧
    ∀ change ∈ after, ¬ change.About key item

inductive Turns [DecidableEq Item] :
    Change Key Item → (Key → List Item) → (Key → List Item) → Prop where
  | enter {before after : Key → List Item} (key : Key) (item : Item) (fresh : item ∉ before key)
      (own : after key = before key ++ [item]) (other : ∀ k, k ≠ key → after k = before k) :
      Turns (.enter key item) before after
  | leave {before after : Key → List Item} (key : Key) (item : Item) (listed : item ∈ before key)
      (own : after key = (before key).erase item) (other : ∀ k, k ≠ key → after k = before k) :
      Turns (.leave key item) before after
  | none (lists : Key → List Item) : Turns .none lists lists

variable [DecidableEq Key] [DecidableEq Item]

instance (change : Change Key Item) (key : Key) (item : Item) :
    Decidable (change.About key item) := by
  cases change with
  | enter k i => exact decidable_of_iff (k = key ∧ i = item) (by simp [Change.About])
  | leave k i => exact decidable_of_iff (k = key ∧ i = item) (by simp [Change.About])
  | none => exact .isFalse (by simp [Change.About])

/-- The items whose last change was to enter, in the order in which they did. -/
def members (key : Key) : List (Change Key Item) → List Item
  | [] => []
  | .enter k item :: later =>
      if k = key ∧ ∀ next ∈ later, ¬ next.About key item then item :: members key later
      else members key later
  | .leave _ _ :: later | .none :: later => members key later

def Change.entered (key : Key) : Change Key Item → List Item
  | .enter k item => if k = key then [item] else []
  | .leave _ _ | .none => []

section Members

variable {key : Key} {item : Item} {changes : List (Change Key Item)}

theorem mem_members : item ∈ members key changes ↔ LastEntered key item changes := by
  have step (change : Change Key Item) (later : List (Change Key Item)) :
      LastEntered key item (change :: later) ↔
        (change = .enter key item ∧ ∀ next ∈ later, ¬ next.About key item) ∨
          LastEntered key item later := by
    constructor
    · rintro ⟨before, after, split, last⟩
      cases before with
      | nil =>
          cases split
          exact Or.inl ⟨rfl, last⟩
      | cons first before =>
          cases split
          exact Or.inr ⟨before, after, rfl, last⟩
    · rintro (⟨rfl, last⟩ | ⟨before, after, rfl, last⟩)
      · exact ⟨[], later, rfl, last⟩
      · exact ⟨change :: before, after, rfl, last⟩
  induction changes with
  | nil => simp [members, LastEntered]
  | cons change later ih =>
      rw [step]
      cases change with
      | leave k i => simp [members, ih]
      | none => simp [members, ih]
      | enter k i =>
          rw [members]
          split
          · rename_i last
            rw [List.mem_cons]
            constructor
            · rintro (rfl | earlier)
              · exact Or.inl ⟨by rw [last.1], last.2⟩
              · exact Or.inr (ih.mp earlier)
            · rintro (⟨same, _⟩ | earlier)
              · cases same
                exact Or.inl rfl
              · exact Or.inr (ih.mpr earlier)
          · rename_i passed
            constructor
            · intro earlier
              exact Or.inr (ih.mp earlier)
            · rintro (⟨same, last⟩ | earlier)
              · cases same
                exact absurd ⟨rfl, last⟩ passed
              · exact ih.mpr earlier

theorem members_nodup : (members key changes).Nodup := by
  induction changes with
  | nil => exact List.nodup_nil
  | cons change later ih =>
      cases change with
      | leave k i => exact ih
      | none => exact ih
      | enter k i =>
          rw [members]
          split
          · rename_i last
            refine List.nodup_cons.mpr ⟨?_, ih⟩
            intro member
            obtain ⟨before, after, rfl, _⟩ := mem_members.mp member
            exact last.2 _ (List.mem_append_right before List.mem_cons_self) (Or.inl rfl)
          · exact ih

theorem members_concat (change : Change Key Item) :
    members key (changes ++ [change]) =
      (members key changes).filter (fun item => decide (¬ change.About key item)) ++
        change.entered key := by
  induction changes with
  | nil =>
      cases change with
      | enter k i =>
          by_cases same : k = key
          · simp [members, Change.entered, same]
          · simp [members, Change.entered, same]
      | leave k i => rfl
      | none => rfl
  | cons first later ih =>
      cases first with
      | leave k i => exact ih
      | none => exact ih
      | enter k i =>
          rw [List.cons_append, members, members, ih]
          by_cases last : k = key ∧ ∀ next ∈ later, ¬ next.About key i
          · rw [if_pos last, List.filter_cons]
            by_cases about : change.About key i
            · have passed : ¬ (k = key ∧ ∀ next ∈ later ++ [change], ¬ next.About key i) :=
                fun all => all.2 change (List.mem_append_right later List.mem_cons_self) about
              rw [if_neg passed, if_neg (by simpa using about)]
            · have still : k = key ∧ ∀ next ∈ later ++ [change], ¬ next.About key i := by
                refine ⟨last.1, ?_⟩
                intro next member
                rcases List.mem_append.mp member with before | here
                · exact last.2 next before
                · rw [List.mem_singleton.mp here]
                  exact about
              rw [if_pos still, if_pos (by simpa using about), List.cons_append]
          · have passed : ¬ (k = key ∧ ∀ next ∈ later ++ [change], ¬ next.About key i) :=
              fun all => last ⟨all.1, fun next member => all.2 next (List.mem_append_left _ member)⟩
            rw [if_neg last, if_neg passed]

end Members

theorem Turns.members {change : Change Key Item} {before after : Key → List Item}
    (turns : Turns change before after) {changes : List (Change Key Item)}
    (holds : ∀ key, before key = Rosters.members key changes) (key : Key) :
    after key = Rosters.members key (changes ++ [change]) := by
  have nodup : (before key).Nodup := by
    rw [holds key]
    exact members_nodup
  rw [members_concat, ← holds key]
  cases turns with
  | enter k item fresh own other =>
      by_cases same : k = key
      · subst k
        have kept : (before key).filter (fun i => decide (¬ (Change.enter key item).About key i)) =
            before key := by
          refine List.filter_eq_self.mpr ?_
          intro i member
          refine decide_eq_true ?_
          rintro (entered | left)
          · cases entered
            exact fresh member
          · cases left
        rw [own, kept, Change.entered, if_pos rfl]
      · have kept : (before key).filter (fun i => decide (¬ (Change.enter k item).About key i)) =
            before key := by
          refine List.filter_eq_self.mpr ?_
          intro i _
          simp [Change.About, same]
        rw [other key (Ne.symm same), kept, Change.entered, if_neg same, List.append_nil]
  | leave k item listed own other =>
      by_cases same : k = key
      · subst k
        rw [own, nodup.erase_eq_filter, Change.entered, List.append_nil]
        refine List.filter_congr ?_
        intro i _
        by_cases here : i = item
        · simp [Change.About, here]
        · simp [Change.About, here, Ne.symm here]
      · have kept : (before key).filter (fun i => decide (¬ (Change.leave k item).About key i)) =
            before key := by
          refine List.filter_eq_self.mpr ?_
          intro i _
          simp [Change.About, same]
        rw [other key (Ne.symm same), kept, Change.entered, List.append_nil]
  | none =>
      simp [Change.About, Change.entered]

open Runs

variable {State Input Answer Fault : Type*} {step : Machine State Input Answer Fault}

/-- In every run from empty lists, each list holds the members of its history. -/
theorem kept (change : Input × Answer → Change Key Item) (lists : State → Key → List Item)
    {start : State} (empty : ∀ key, lists start key = [])
    (turns : ∀ state input answer next, step input state = .ok (answer, next) →
      Turns (change (input, answer)) (lists state) (lists next))
    {inputs : List Input} {history : History Input Answer} {final : State}
    (ran : exec step start inputs = .ok (history, final)) (key : Key) :
    lists final key = members key (history.map change) := by
  refine invariant_exec
    (fun history state => ∀ key, lists state key = members key (history.map change)) empty ?_ ran key
  intro history state input answer next holds stepped key
  rw [List.map_append]
  exact (turns state input answer next stepped).members holds key

end CS421.Rosters
