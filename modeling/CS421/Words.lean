/-
The words of a text, as the maximal runs of letters.

A run is given by where it starts and where it stops. A scan that skips delimiters
and then passes letters has found the next run, and the runs found so far are said
by how far the scan has come. What is a delimiter is left open.
-/

import Mathlib.Data.List.Induction
import Mathlib.Tactic.ByContra

set_option autoImplicit false

namespace CS421.Words

variable {Symbol : Type*}

/-- A run is bounded by a delimiter or the end of the text on each side. -/
structure IsRun (delimiter : Symbol → Prop) (text : List Symbol) (start stop : Nat) : Prop where
  nonempty : start < stop
  within : stop ≤ text.length
  letters : ∀ index, start ≤ index → index < stop → ∀ char ∈ text[index]?, ¬ delimiter char
  left : ∀ before, before + 1 = start → ∀ char ∈ text[before]?, delimiter char
  right : ∀ char ∈ text[stop]?, delimiter char

/-- The runs that start before a place, in order. -/
structure Enumerates (delimiter : Symbol → Prop) (text : List Symbol) (runs : List (Nat × Nat))
    (upto : Nat) : Prop where
  ordered : runs.Pairwise fun earlier later => earlier.2 < later.1
  exactly : ∀ start stop,
    (start, stop) ∈ runs ↔ IsRun delimiter text start stop ∧ start < upto

section Runs

variable {delimiter : Symbol → Prop} {text : List Symbol} {runs : List (Nat × Nat)}
  {upto first last : Nat}

theorem IsRun.letter {start stop index : Nat} (run : IsRun delimiter text start stop)
    (low : start ≤ index) (high : index < stop) :
    ∃ char, text[index]? = some char ∧ ¬ delimiter char := by
  have within : index < text.length := Nat.lt_of_lt_of_le high run.within
  have here := List.getElem?_eq_getElem within
  exact ⟨text[index], here, run.letters index low high text[index] here⟩

theorem enumerates_nil : Enumerates delimiter text [] 0 := by
  refine ⟨List.Pairwise.nil, ?_⟩
  intro start stop
  refine iff_of_false List.not_mem_nil ?_
  intro ⟨_, before⟩
  exact Nat.not_lt_zero _ before

/-- What a scan from a place has passed when it comes to the end of a word. -/
structure Scan (delimiter : Symbol → Prop) (text : List Symbol) (upto first last : Nat) : Prop where
  low : upto ≤ first
  nonempty : first < last
  within : last ≤ text.length
  skipped : ∀ index, upto ≤ index → index < first → ∀ char ∈ text[index]?, delimiter char
  letters : ∀ index, first ≤ index → index < last → ∀ char ∈ text[index]?, ¬ delimiter char
  right : ∀ char ∈ text[last]?, delimiter char

/-- A scan may begin behind a delimiter, or at the start. -/
def Boundary (delimiter : Symbol → Prop) (text : List Symbol) (place : Nat) : Prop :=
  ∀ before, before + 1 = place → ∀ char ∈ text[before]?, delimiter char

theorem Scan.isRun (scan : Scan delimiter text upto first last)
    (boundary : Boundary delimiter text upto) : IsRun delimiter text first last := by
  refine ⟨scan.nonempty, scan.within, scan.letters, ?_, scan.right⟩
  intro before next
  rcases Nat.lt_or_ge before upto with earlier | later
  · have low := scan.low
    exact boundary before (by omega)
  · exact scan.skipped before later (by omega)

theorem Scan.unique (scan : Scan delimiter text upto first last) {start stop : Nat}
    (run : IsRun delimiter text start stop) (low : upto ≤ start) (high : start ≤ last) :
    start = first ∧ stop = last := by
  obtain ⟨char, here, letter⟩ := run.letter (Nat.le_refl start) run.nonempty
  have same : start = first := by
    rcases Nat.lt_trichotomy start first with early | same | late
    · exact absurd (scan.skipped start low early char here) letter
    · exact same
    · rcases Nat.lt_or_eq_of_le high with inside | border
      · have before : start - 1 < text.length := by
          have within := scan.within
          omega
        have previous := List.getElem?_eq_getElem before
        exact absurd (run.left (start - 1) (by omega) _ previous)
          (scan.letters (start - 1) (by omega) (by omega) _ previous)
      · rw [border] at here
        exact absurd (scan.right char here) letter
  refine ⟨same, ?_⟩
  have nonempty := scan.nonempty
  rcases Nat.lt_trichotomy stop last with early | same | late
  · have before : stop < text.length := Nat.lt_of_lt_of_le early scan.within
    have next := List.getElem?_eq_getElem before
    have longer := run.nonempty
    exact absurd (run.right _ next) (scan.letters stop (by omega) early _ next)
  · exact same
  · obtain ⟨beyond, there, inside⟩ := run.letter (show start ≤ last by omega) late
    exact absurd (scan.right beyond there) inside

theorem Enumerates.append (enumerates : Enumerates delimiter text runs upto)
    (scan : Scan delimiter text upto first last) (boundary : Boundary delimiter text upto)
    {next : Nat} (low : last ≤ next) (high : next ≤ last + 1) :
    Enumerates delimiter text (runs ++ [(first, last)]) next := by
  have atLeast := scan.low
  have nonempty := scan.nonempty
  constructor
  · refine List.pairwise_append.mpr ⟨enumerates.ordered, List.pairwise_singleton _ _, ?_⟩
    intro earlier member later new
    rw [List.mem_singleton.mp new]
    obtain ⟨run, before⟩ := (enumerates.exactly earlier.1 earlier.2).mp member
    -- a run that starts before the boundary ends before it
    show earlier.2 < first
    by_contra reaches
    have positive := run.nonempty
    obtain ⟨char, here, letter⟩ :=
      run.letter (show earlier.1 ≤ upto - 1 by omega) (show upto - 1 < earlier.2 by omega)
    exact letter (boundary (upto - 1) (by omega) char here)
  · intro start stop
    rw [List.mem_append, enumerates.exactly, List.mem_singleton]
    constructor
    · intro member
      rcases member with ⟨run, before⟩ | new
      · exact ⟨run, by omega⟩
      · cases new
        exact ⟨scan.isRun boundary, by omega⟩
    · intro ⟨run, before⟩
      by_cases earlier : start < upto
      · exact .inl ⟨run, earlier⟩
      · obtain ⟨same, alike⟩ := scan.unique run (by omega) (by omega)
        rw [same, alike]
        exact .inr rfl

/-- A scan that only skips delimiters has found all runs. -/
theorem Enumerates.complete (enumerates : Enumerates delimiter text runs upto)
    (skipped : ∀ index, upto ≤ index → ∀ char ∈ text[index]?, delimiter char) (start stop : Nat) :
    (start, stop) ∈ runs ↔ IsRun delimiter text start stop := by
  rw [enumerates.exactly]
  constructor
  · exact fun both => both.1
  · intro run
    refine ⟨run, ?_⟩
    by_contra late
    obtain ⟨char, here, letter⟩ := run.letter (Nat.le_refl start) run.nonempty
    exact letter (skipped start (by omega) char here)

/-- Two runs have a delimiter between them, so there is one for two places at most. -/
theorem two_mul_length_le (bound : Nat)
    (ordered : runs.Pairwise fun earlier later => earlier.2 < later.1)
    (within : ∀ run ∈ runs, run.1 < run.2 ∧ run.2 ≤ bound) : 2 * runs.length ≤ bound + 1 := by
  induction runs using List.reverseRecOn generalizing bound with
  | nil => exact Nat.zero_le _
  | append_singleton earlier run ih =>
      obtain ⟨front, _, before⟩ := List.pairwise_append.mp ordered
      obtain ⟨nonempty, fits⟩ := within run (List.mem_append_right _ List.mem_cons_self)
      rw [List.length_append, List.length_singleton]
      cases first : earlier with
      | nil =>
          simp only [List.length_nil]
          omega
      | cons head rest =>
          have member : head ∈ earlier := by
            rw [first]
            exact List.mem_cons_self
          have headBefore := before head member run List.mem_cons_self
          have counted := ih (run.1 - 1) front (fun other old => by
            have otherBefore := before other old run List.mem_cons_self
            exact ⟨(within other (List.mem_append_left _ old)).1, by omega⟩)
          rw [first] at counted
          omega

theorem Enumerates.two_mul_length_le (enumerates : Enumerates delimiter text runs upto) :
    2 * runs.length ≤ text.length + 1 := by
  refine CS421.Words.two_mul_length_le text.length enumerates.ordered ?_
  intro run member
  obtain ⟨isRun, _⟩ := (enumerates.exactly run.1 run.2).mp member
  exact ⟨isRun.nonempty, isRun.within⟩

end Runs

end CS421.Words
