/-
What a fallible computation comes to.

A computation ends with a value or stops. One predicate says what holds in either
case, and a sequence is proved part by part. Nothing is known of what stops it.
-/

set_option autoImplicit false

namespace CS421.Outcomes

universe u v

variable {Stop : Type u} {Value Result : Type v}

/-- The computation stops so, or ends so. -/
def Meets (result : Except Stop Value) (stopped : Stop → Prop) (ended : Value → Prop) : Prop :=
  match result with
  | .error stop => stopped stop
  | .ok value => ended value

section Rules

variable {result : Except Stop Value} {stopped weaker : Stop → Prop} {ended other : Value → Prop}

theorem meets_ok {value : Value} (holds : ended value) :
    Meets (.ok value) stopped ended := holds

theorem meets_error {stop : Stop} (holds : stopped stop) :
    Meets (.error stop : Except Stop Value) stopped ended := holds

theorem Meets.imp (met : Meets result stopped ended) (stops : ∀ stop, stopped stop → weaker stop)
    (ends : ∀ value, ended value → other value) : Meets result weaker other := by
  cases result with
  | error stop => exact stops stop met
  | ok value => exact ends value met

theorem Meets.bind {next : Value → Except Stop Result} {last : Result → Prop}
    (first : Meets result stopped ended)
    (later : ∀ value, ended value → Meets (next value) stopped last) :
    Meets (result >>= next) stopped last := by
  cases result with
  | error stop => exact first
  | ok value => exact later value first

theorem Meets.ite {condition : Prop} [Decidable condition] {other : Except Stop Value}
    (yes : condition → Meets result stopped ended) (no : ¬ condition → Meets other stopped ended) :
    Meets (if condition then result else other) stopped ended := by
  by_cases holds : condition
  · rw [if_pos holds]
    exact yes holds
  · rw [if_neg holds]
    exact no holds

theorem foldlM_meets {Item : Type v} {turn : Value → Item → Except Stop Value} {start : Value}
    {invariant : Value → Prop} (initial : invariant start)
    (kept : ∀ value item, invariant value → Meets (turn value item) stopped invariant)
    (items : List Item) : Meets (items.foldlM turn start) stopped invariant := by
  induction items generalizing start with
  | nil => exact initial
  | cons item rest ih =>
      rw [List.foldlM_cons]
      exact (kept start item initial).bind (fun value holds => ih holds)

theorem Meets.ends {value : Value} (met : Meets result stopped ended) (ended_so : result = .ok value) :
    ended value := by
  rw [ended_so] at met
  exact met

theorem Meets.ok_of_not_stopped (met : Meets result stopped ended) (never : ∀ stop, ¬ stopped stop) :
    ∃ value, result = .ok value ∧ ended value := by
  cases result with
  | error stop => exact (never stop met).elim
  | ok value => exact ⟨value, rfl, met⟩

end Rules

end CS421.Outcomes
