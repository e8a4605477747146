/-
Linked lists that are searched by a key.

A search walks the list, stops at the first entry with the key it looks for,
acts on that entry, and leaves the entries before and after it as they are. The
rules below say what such a search finds and what it leaves to searches for
other keys, whatever the entries are.
-/

import Mathlib.Data.List.Infix

set_option autoImplicit false

namespace CS421.Keyed

variable {Entry Key Answer Fault : Type*}

structure Found (key : Entry → Key) (wanted : Key) (entries before : List Entry) (entry : Entry)
    (after : List Entry) : Prop where
  split : entries = before ++ entry :: after
  own : key entry = wanted
  earlier : ∀ other ∈ before, key other ≠ wanted

section Found

variable {key : Entry → Key} {wanted : Key} {entries before after : List Entry}
  {entry changed : Entry}

theorem Found.mem (found : Found key wanted entries before entry after) : entry ∈ entries := by
  rw [found.split]
  exact List.mem_append_right before List.mem_cons_self

theorem Found.rejoin (found : Found key wanted entries before entry after) :
    before ++ [entry] ++ after = entries := by
  rw [found.split, List.append_assoc, List.singleton_append]

theorem Found.map_key (found : Found key wanted entries before entry after)
    (same : key changed = wanted) :
    (before ++ changed :: after).map key = entries.map key := by
  rw [found.split, List.map_append, List.map_append, List.map_cons, List.map_cons, same, found.own]

end Found

variable [DecidableEq Key]

def first (key : Entry → Key) (wanted : Key) (entries : List Entry) : Option Entry :=
  entries.find? (fun entry => decide (key entry = wanted))

/-- The search. `act` says what is answered for the entry found and which
entries take its place; without one, `missing` is answered. -/
def onFirst (key : Entry → Key) (wanted : Key) (missing : Answer)
    (act : Entry → Except Fault (Answer × List Entry)) :
    List Entry → Except Fault (Answer × List Entry)
  | [] => .ok (missing, [])
  | entry :: rest =>
      if key entry = wanted then
        match act entry with
        | .error fault => .error fault
        | .ok (answer, kept) => .ok (answer, kept ++ rest)
      else
        match onFirst key wanted missing act rest with
        | .error fault => .error fault
        | .ok (answer, searched) => .ok (answer, entry :: searched)

variable {key : Entry → Key} {wanted : Key} {missing : Answer}
  {act : Entry → Except Fault (Answer × List Entry)} {entries : List Entry}

theorem first_none_iff :
    first key wanted entries = none ↔ ∀ entry ∈ entries, key entry ≠ wanted := by
  simp [first]

theorem first_some_iff {entry : Entry} :
    first key wanted entries = some entry ↔
      ∃ before after, Found key wanted entries before entry after := by
  unfold first
  rw [List.find?_eq_some_iff_append]
  constructor
  · intro ⟨own, before, after, split, earlier⟩
    refine ⟨before, after, split, of_decide_eq_true own, ?_⟩
    intro other member
    have differs := earlier other member
    simpa using differs
  · intro ⟨before, after, found⟩
    refine ⟨decide_eq_true found.own, before, after, found.split, ?_⟩
    intro other member
    simpa using found.earlier other member

theorem onFirst_of_none (absent : first key wanted entries = none) :
    onFirst key wanted missing act entries = .ok (missing, entries) := by
  rw [first_none_iff] at absent
  induction entries with
  | nil => rfl
  | cons entry rest ih =>
      have apart := absent entry List.mem_cons_self
      have later := ih (fun other member => absent other (List.mem_cons_of_mem entry member))
      rw [onFirst, if_neg apart, later]

theorem onFirst_of_found {before after : List Entry} {entry : Entry}
    (found : Found key wanted entries before entry after) :
    onFirst key wanted missing act entries =
      match act entry with
      | .error fault => .error fault
      | .ok (answer, kept) => .ok (answer, before ++ kept ++ after) := by
  obtain ⟨rfl, own, earlier⟩ := found
  induction before with
  | nil =>
      rw [List.nil_append, onFirst, if_pos own]
      cases act entry with
      | error fault => rfl
      | ok out => rfl
  | cons other rest ih =>
      have apart := earlier other List.mem_cons_self
      have later := ih (fun entry member => earlier entry (List.mem_cons_of_mem other member))
      rw [List.cons_append, onFirst, if_neg apart, later]
      cases act entry with
      | error fault => rfl
      | ok out => rfl

theorem onFirst_ok {answer : Answer} {result : List Entry}
    (ran : onFirst key wanted missing act entries = .ok (answer, result)) :
    (first key wanted entries = none ∧ answer = missing ∧ result = entries) ∨
      ∃ before entry after kept, Found key wanted entries before entry after ∧
        act entry = .ok (answer, kept) ∧ result = before ++ kept ++ after := by
  cases looked : first key wanted entries with
  | none =>
      rw [onFirst_of_none looked] at ran
      cases ran
      exact Or.inl ⟨rfl, rfl, rfl⟩
  | some entry =>
      obtain ⟨before, after, found⟩ := first_some_iff.mp looked
      rw [onFirst_of_found found] at ran
      cases acted : act entry with
      | error fault =>
          rw [acted] at ran
          cases ran
      | ok out =>
          rw [acted] at ran
          cases ran
          exact Or.inr ⟨before, entry, after, out.2, found, acted, rfl⟩

theorem onFirst_error_iff {fault : Fault} :
    onFirst key wanted missing act entries = .error fault ↔
      ∃ entry, first key wanted entries = some entry ∧ act entry = .error fault := by
  cases looked : first key wanted entries with
  | none =>
      rw [onFirst_of_none looked]
      simp
  | some entry =>
      obtain ⟨before, after, found⟩ := first_some_iff.mp looked
      rw [onFirst_of_found found]
      cases acted : act entry with
      | error other => simp [acted]
      | ok out => simp [acted]

section Replace

variable {before after : List Entry} {entry changed : Entry}

theorem Found.first_replace (found : Found key wanted entries before entry after)
    (same : key changed = wanted) :
    first key wanted (before ++ changed :: after) = some changed :=
  first_some_iff.mpr ⟨before, after, rfl, same, found.earlier⟩

theorem Found.first_other (found : Found key wanted entries before entry after)
    (same : key changed = wanted) {other : Key} (apart : other ≠ wanted) :
    first key other (before ++ changed :: after) = first key other entries := by
  have old : decide (key entry = other) = false := by
    rw [found.own]
    exact decide_eq_false (Ne.symm apart)
  have new : decide (key changed = other) = false := by
    rw [same]
    exact decide_eq_false (Ne.symm apart)
  unfold first
  rw [found.split, List.find?_append, List.find?_append, List.find?_cons, List.find?_cons, old, new]

theorem Found.first_eq (found : Found key wanted entries before entry after) :
    first key wanted entries = some entry :=
  first_some_iff.mpr ⟨before, after, found⟩

end Replace

theorem eq_map_of_first {Other : Type*} {name : Other → Key} {others : List Other}
    {found : Other → Entry} (keys : entries.map key = others.map name) (distinct : (others.map name).Nodup)
    (finds : ∀ other ∈ others, first key (name other) entries = some (found other)) :
    entries = others.map found := by
  induction others generalizing entries with
  | nil => exact List.map_eq_nil_iff.mp keys
  | cons other rest ih =>
      cases entries with
      | nil => cases keys
      | cons entry later =>
          rw [List.map_cons, List.map_cons, List.cons.injEq] at keys
          rw [List.map_cons, List.nodup_cons] at distinct
          have here := finds other List.mem_cons_self
          rw [first, List.find?_cons, decide_eq_true keys.1] at here
          have behind := ih keys.2 distinct.2 (by
            intro next member
            have apart : ¬ key entry = name next := by
              rw [keys.1]
              intro same
              exact distinct.1 (same ▸ List.mem_map_of_mem member)
            have there := finds next (List.mem_cons_of_mem other member)
            rw [first, List.find?_cons, decide_eq_false apart] at there
            exact there)
          rw [List.map_cons, behind, Option.some.inj here]

end CS421.Keyed
