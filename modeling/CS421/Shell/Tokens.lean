/-
Splitting the line: strtok, and the array that process fills.

Each call of strtok passes the delimiters in front of a token and the token, and
cuts the string behind it. The calls find the maximal runs of characters that are
no space, so there is one for two characters at most, and the array has room.
-/

import CS421.Words
import CS421.Shell.Lines

set_option autoImplicit false

namespace CS421.Shell

open CS421.Outcomes
open Memory (Since Holds)
open Words (IsRun Enumerates Scan Boundary)

section Scans

variable {chars : Nat → UInt8} {last : Nat}

theorem skipDelimiters_finds (stops : chars last ≠ space) (room offset : Nat) (low : offset ≤ last)
    (high : last < offset + room) :
    ∃ first, skipDelimiters chars room offset = some first ∧ offset ≤ first ∧ first ≤ last ∧
      chars first ≠ space ∧ ∀ index, offset ≤ index → index < first → chars index = space := by
  induction room generalizing offset with
  | zero => omega
  | succ room ih =>
      rw [skipDelimiters]
      by_cases skips : chars offset = space
      · rw [if_pos skips]
        have further : offset ≠ last := by
          intro same
          rw [same] at skips
          exact stops skips
        obtain ⟨first, found, later, within, stopped, passed⟩ :=
          ih (offset + 1) (by omega) (by omega)
        refine ⟨first, found, by omega, within, stopped, ?_⟩
        intro index from_offset before
        by_cases here : index = offset
        · rw [here]
          exact skips
        · exact passed index (by omega) before
      · rw [if_neg skips]
        exact ⟨offset, rfl, Nat.le_refl _, low, skips, fun index after before => by omega⟩

theorem tokenEnd_finds (stops : chars last = 0) (room offset : Nat) (low : offset ≤ last)
    (high : last < offset + room) :
    ∃ stop, tokenEnd chars room offset = some stop ∧ offset ≤ stop ∧ stop ≤ last ∧
      (chars stop = space ∨ chars stop = 0) ∧
      ∀ index, offset ≤ index → index < stop → chars index ≠ space ∧ chars index ≠ 0 := by
  induction room generalizing offset with
  | zero => omega
  | succ room ih =>
      rw [tokenEnd]
      by_cases ends : chars offset = space ∨ chars offset = 0
      · rw [if_pos ends]
        exact ⟨offset, rfl, Nat.le_refl _, low, ends, fun index after before => by omega⟩
      · rw [if_neg ends]
        have further : offset ≠ last := by
          intro same
          rw [same] at ends
          exact ends (.inr stops)
        obtain ⟨stop, found, later, within, stopped, passed⟩ :=
          ih (offset + 1) (by omega) (by omega)
        refine ⟨stop, found, by omega, within, stopped, ?_⟩
        intro index from_offset before
        by_cases here : index = offset
        · rw [here]
          exact not_or.mp ends
        · exact passed index (by omega) before

end Scans

def IsSpace (char : UInt8) : Prop := char = space

structure Left (memory : Memory) (block : Nat) (text : List UInt8) (place : Nat) : Prop where
  bytes : ∀ index, place ≤ index → index < text.length →
    text[index]? = some (memory.chars block index)
  noNul : (0 : UInt8) ∉ text
  ends : memory.chars block text.length = 0
  room : text.length < memory.size block
  low : place ≤ text.length

/-- The heap after a token is cut off, or as it was at the end of the string. -/
structure Cut (before after : Memory) (block stop length : Nat) : Prop where
  ends : after.chars block stop = 0
  others : ∀ index, index ≠ stop → after.chars block index = before.chars block index
  size : after.size = before.size
  args : after.args = before.args
  wrote : after = before ∨ stop < length ∧ after = before.setChar block stop 0

section Calls

variable {memory : Memory} {block place : Nat} {text : List UInt8}

theorem Left.nonzero (left : Left memory block text place) {index : Nat} (low : place ≤ index)
    (high : index < text.length) : memory.chars block index ≠ 0 := by
  intro zero
  have here := left.bytes index low high
  rw [zero] at here
  exact left.noNul (List.mem_of_getElem? here)

theorem Left.char_eq (left : Left memory block text place) {index : Nat} (low : place ≤ index)
    {char : UInt8} (here : char ∈ text[index]?) :
    index < text.length ∧ char = memory.chars block index := by
  have within : index < text.length := (List.getElem?_eq_some_iff.mp here).1
  have same := left.bytes index low within
  exact ⟨within, Option.some.inj (here.symm.trans same)⟩

theorem Left.scan (left : Left memory block text place) {first last : Nat} (low : place ≤ first)
    (nonempty : first < last) (within : last ≤ text.length)
    (skipped : ∀ index, place ≤ index → index < first → memory.chars block index = space)
    (letters : ∀ index, first ≤ index → index < last →
      memory.chars block index ≠ space ∧ memory.chars block index ≠ 0)
    (stopped : memory.chars block last = space ∨ memory.chars block last = 0) :
    Scan IsSpace text place first last where
  low := low
  nonempty := nonempty
  within := within
  skipped := by
    intro index from_place early char here
    rw [(left.char_eq from_place here).2]
    exact skipped index from_place early
  letters := by
    intro index from_first early char here
    rw [(left.char_eq (Nat.le_trans low from_first) here).2]
    exact (letters index from_first early).1
  right := by
    intro char here
    obtain ⟨inText, same⟩ := left.char_eq (by omega) here
    rw [same]
    rcases stopped with isSpace | isNul
    · exact isSpace
    · exact absurd isNul (left.nonzero (by omega) inText)

def NextPlace (text : List UInt8) (last next : Nat) : Prop :=
  (last = text.length ∧ next = last) ∨ (last < text.length ∧ next = last + 1)

/-- A call finds the next run of the text, or there is none. -/
theorem Left.strtok (left : Left memory block text place) :
    (strtok (some (block, place)) memory = .ok (none, some (block, text.length), memory) ∧
      ∀ index, place ≤ index → ∀ char ∈ text[index]?, IsSpace char) ∨
    ∃ first last next after,
      strtok (some (block, place)) memory = .ok (some (block, first), some (block, next), after) ∧
      Scan IsSpace text place first last ∧ NextPlace text last next ∧
      Cut memory after block last text.length := by
  have room := left.room
  have low := left.low
  have stops : memory.chars block text.length ≠ space := by
    rw [left.ends]
    decide
  obtain ⟨first, found, atLeast, within, noSpace, skipped⟩ :=
    skipDelimiters_finds stops (memory.size block - place) place low (by omega)
  unfold CS421.Shell.strtok
  dsimp only
  rw [found]
  dsimp only
  by_cases zero : memory.chars block first = 0
  · rw [if_pos zero]
    have last : first = text.length := by
      by_contra before
      exact left.nonzero atLeast (by omega) zero
    refine .inl ⟨by rw [last], ?_⟩
    intro index from_place char here
    obtain ⟨before, same⟩ := left.char_eq from_place here
    rw [same]
    exact skipped index from_place (by omega)
  · rw [if_neg zero]
    have before : first < text.length := by
      rcases Nat.lt_or_eq_of_le within with before | last
      · exact before
      · rw [last] at zero
        exact absurd left.ends zero
    obtain ⟨last, ended, fromFirst, atMost, stopped, letters⟩ :=
      tokenEnd_finds left.ends (memory.size block - first) first within (by omega)
    rw [ended]
    dsimp only
    have nonempty : first < last := by
      rcases Nat.lt_or_eq_of_le fromFirst with later | same
      · exact later
      · rw [← same] at stopped
        rcases stopped with isSpace | isNul
        · exact absurd isSpace noSpace
        · exact absurd isNul zero
    have scan := left.scan atLeast nonempty atMost skipped letters stopped
    by_cases nul : memory.chars block last = 0
    · rw [if_pos nul]
      have atEnd : last = text.length := by
        by_contra early
        exact left.nonzero (by omega) (by omega) nul
      exact .inr ⟨first, last, last, memory, rfl, scan, .inl ⟨atEnd, rfl⟩, nul,
        fun _ _ => rfl, rfl, rfl, .inl rfl⟩
    · rw [if_neg nul]
      have inText : last < text.length := by
        rcases Nat.lt_or_eq_of_le atMost with early | atEnd
        · exact early
        · rw [atEnd] at nul
          exact absurd left.ends nul
      exact .inr ⟨first, last, last + 1, memory.setChar block last 0, rfl, scan,
        .inr ⟨inText, rfl⟩, Memory.setChar_here, fun _ other => Memory.setChar_elsewhere other,
        rfl, rfl, .inr ⟨inText, rfl⟩⟩

end Calls

/-! ### What process has done -/

/-- The accesses of process: below the size of the array, in its two blocks. -/
def Access.Below (input command buffer : Nat) : Access → Prop
  | .char block index _ _ => block = input ∧ index < buffer
  | .arg block index _ _ => block = command ∧ index < buffer
  | .free _ _ => False

/-- The array holds the maximal runs of characters that are no space, in order, and
NULL behind them. Nothing else in it has been written. -/
structure Tokenized (before after : Memory) (input command buffer : Nat) (text : List UInt8)
    (runs : List (Nat × Nat)) : Prop where
  ordered : runs.Pairwise fun earlier later => earlier.2 < later.1
  exactly : ∀ start stop, (start, stop) ∈ runs ↔ IsRun IsSpace text start stop
  tokens : ∀ index (within : index < runs.length),
    after.args command index = some (input, runs[index].1) ∧
      Holds after input runs[index].1 (text.extract runs[index].1 runs[index].2)
  null : after.args command runs.length = none
  others : ∀ index, runs.length < index → after.args command index = before.args command index
  since : Since before after (Access.Below input command buffer)

/-- The runs that start before a place are in the array and cut out of the text. -/
structure Progress (before after : Memory) (input command buffer : Nat) (text : List UInt8)
    (runs : List (Nat × Nat)) (place : Nat) : Prop where
  tokens : ∀ index (within : index < runs.length),
    after.args command index = some (input, runs[index].1)
  cut : ∀ start stop, (start, stop) ∈ runs →
    (∀ index, start ≤ index → index < stop → text[index]? = some (after.chars input index)) ∧
      after.chars input stop = 0
  untouched : ∀ index, runs.length ≤ index →
    after.args command index = before.args command index
  since : Since before after (Access.Below input command buffer)
  left : Left after input text place
  enumerates : Enumerates IsSpace text runs place
  boundary : place < text.length → Boundary IsSpace text place

section Steps

variable {before memory after : Memory} {input command buffer place first last next : Nat}
  {text : List UInt8} {runs : List (Nat × Nat)}

theorem Progress.index_lt (progress : Progress before memory input command buffer text runs place)
    (fits : text.length < buffer) : runs.length < buffer := by
  have counted := progress.enumerates.two_mul_length_le
  omega

theorem holds_of_cut {start stop : Nat} (run : IsRun IsSpace text start stop)
    (noNul : (0 : UInt8) ∉ text)
    (kept : ∀ index, start ≤ index → index < stop →
      text[index]? = some (memory.chars input index))
    (ends : memory.chars input stop = 0) :
    Holds memory input start (text.extract start stop) := by
  have within := run.within
  have nonempty := run.nonempty
  have length : (text.extract start stop).length = stop - start := by
    simp only [List.extract_eq_take_drop, List.length_take, List.length_drop]
    omega
  refine ⟨?_, ?_, ?_⟩
  · intro index early
    rw [length] at early
    have here := kept (start + index) (by omega) (by omega)
    have inText : start + index < text.length := by omega
    rw [List.getElem?_eq_getElem inText] at here
    simp only [List.extract_eq_take_drop, List.getElem_take, List.getElem_drop]
    exact (Option.some.inj here).symm
  · intro nul
    rw [List.extract_eq_take_drop] at nul
    exact noNul (List.mem_of_mem_drop (List.mem_of_mem_take nul))
  · rw [length, Nat.add_sub_cancel' (Nat.le_of_lt nonempty)]
    exact ends

theorem Cut.since {length : Nat} (cut : Cut memory after input last length)
    (fits : length < buffer) : Since memory after (Access.Below input command buffer) := by
  rcases cut.wrote with same | ⟨early, wrote⟩
  · rw [same]
    exact Since.refl _ _
  · rw [wrote]
    exact Since.access rfl ⟨rfl, by omega⟩

theorem Cut.left (cut : Cut memory after input last text.length)
    (left : Left memory input text place) (goes : NextPlace text last next) (low : place ≤ next) :
    Left after input text next where
  bytes := by
    intro index from_next inside
    rw [cut.others index (by rcases goes with ⟨atEnd, same⟩ | ⟨early, same⟩ <;> omega)]
    exact left.bytes index (by omega) inside
  noNul := left.noNul
  ends := by
    by_cases here : text.length = last
    · rw [here]
      exact cut.ends
    · rw [cut.others _ here]
      exact left.ends
  room := by
    rw [cut.size]
    exact left.room
  low := by
    rcases goes with ⟨atEnd, same⟩ | ⟨early, same⟩
    · omega
    · omega

theorem Left.setArg (left : Left memory input text place) (block index : Nat) (arg : Pointer) :
    Left (memory.setArg block index arg) input text place :=
  ⟨left.bytes, left.noNul, left.ends, left.room, left.low⟩

theorem Progress.finish (progress : Progress before memory input command buffer text runs place)
    (fits : text.length < buffer)
    (skipped : ∀ index, place ≤ index → ∀ char ∈ text[index]?, IsSpace char) :
    Tokenized before (memory.setArg command runs.length none) input command buffer text runs := by
  have complete := progress.enumerates.complete skipped
  exact {
    ordered := progress.enumerates.ordered
    exactly := complete
    tokens := by
      intro index within
      have member : (runs[index].1, runs[index].2) ∈ runs := List.getElem_mem within
      obtain ⟨kept, ends⟩ := progress.cut _ _ member
      have run := (complete _ _).mp member
      constructor
      · rw [Memory.setArg_elsewhere (Nat.ne_of_lt within)]
        exact progress.tokens index within
      · exact holds_of_cut run progress.left.noNul kept ends
    null := Memory.setArg_here
    others := by
      intro index beyond
      rw [Memory.setArg_elsewhere (Nat.ne_of_gt beyond)]
      exact progress.untouched index (Nat.le_of_lt beyond)
    since := progress.since.trans (Since.access rfl ⟨rfl, progress.index_lt fits⟩) }

theorem Progress.append (progress : Progress before memory input command buffer text runs place)
    (fits : text.length < buffer) (scan : Scan IsSpace text place first last)
    (goes : NextPlace text last next) (cut : Cut memory after input last text.length) :
    Progress before (after.setArg command runs.length (some (input, first))) input command buffer
      text (runs ++ [(first, last)]) next := by
  have low := scan.low
  have nonempty := scan.nonempty
  have within := scan.within
  have started : Boundary IsSpace text place := progress.boundary (by omega)
  have bounds : last ≤ next ∧ next ≤ last + 1 ∧ next ≤ text.length := by
    rcases goes with ⟨atEnd, same⟩ | ⟨early, same⟩
    · omega
    · omega
  have enumerates := progress.enumerates.append scan started bounds.1 bounds.2.1
  exact {
    tokens := by
      intro index early
      by_cases new : index = runs.length
      · subst new
        rw [Memory.setArg_here, List.getElem_append_right (Nat.le_refl _)]
        simp
      · rw [List.length_append, List.length_singleton] at early
        have old : index < runs.length := by omega
        rw [Memory.setArg_elsewhere new, cut.args, List.getElem_append_left old]
        exact progress.tokens index old
    cut := by
      intro start stop member
      rw [Memory.setArg_chars]
      rcases List.mem_append.mp member with old | new
      · -- the earlier runs end before this one starts
        have before := (List.pairwise_append.mp enumerates.ordered).2.2 _ old _
          List.mem_cons_self
        have early : stop < first := before
        obtain ⟨kept, ends⟩ := progress.cut start stop old
        refine ⟨?_, ?_⟩
        · intro index from_start inside
          rw [cut.others index (by omega)]
          exact kept index from_start inside
        · rw [cut.others stop (by omega)]
          exact ends
      · cases List.mem_singleton.mp new
        refine ⟨?_, cut.ends⟩
        intro index from_first inside
        rw [cut.others index (Nat.ne_of_lt inside)]
        exact progress.left.bytes index (by omega) (by omega)
    untouched := by
      intro index beyond
      rw [List.length_append, List.length_singleton] at beyond
      rw [Memory.setArg_elsewhere (by omega), cut.args]
      exact progress.untouched index (by omega)
    since := (progress.since.trans (cut.since fits)).trans
      (Since.access rfl ⟨rfl, progress.index_lt fits⟩)
    left := (cut.left progress.left goes (by omega)).setArg _ _ _
    enumerates := enumerates
    boundary := by
      intro early index behind char here
      rcases goes with ⟨atEnd, same⟩ | ⟨_, same⟩
      · omega
      · have border : index = last := by omega
        rw [border] at here
        exact scan.right char here }

end Steps

section Loop

variable {before memory : Memory} {input command buffer place : Nat} {text : List UInt8}
  {runs : List (Nat × Nat)}

/-- Where the loop stands: behind the last token, or with tokens still to find. The
rank is what is left of the text. -/
def Stands (before : Memory) (input command buffer : Nat) (text : List UInt8) (rank : Nat)
    (state : Tokenizing) : Prop :=
  (∃ runs, rank = 0 ∧ state.tokens = runs.length + 1 ∧
    Tokenized before state.memory input command buffer text runs) ∨
  (∃ runs place, rank = text.length + 1 - place ∧ state.tokens = runs.length ∧ 1 ≤ runs.length ∧
    state.saved = some (input, place) ∧
    Progress before state.memory input command buffer text runs place)

theorem Progress.fetch (progress : Progress before memory input command buffer text runs place)
    (fits : text.length < buffer) :
    ∃ token saved after, strtok (some (input, place)) memory = .ok (token, saved, after) ∧
      ∃ rank, rank < text.length + 1 - place ∧ Stands before input command buffer text rank
        { tokens := runs.length + 1, saved := saved
          memory := after.setArg command runs.length token } := by
  have low := progress.left.low
  rcases progress.left.strtok with ⟨called, skipped⟩ | ⟨first, last, next, after, called, scan, goes, cut⟩
  · refine ⟨none, _, memory, called, 0, by omega, .inl ⟨runs, rfl, rfl, ?_⟩⟩
    exact progress.finish fits skipped
  · have forward := scan.low
    have nonempty := scan.nonempty
    have within := scan.within
    have further : place < next ∧ next ≤ text.length := by
      rcases goes with ⟨atEnd, same⟩ | ⟨early, same⟩
      · omega
      · omega
    refine ⟨_, _, after, called, text.length + 1 - next, by omega, .inr ?_⟩
    refine ⟨runs ++ [(first, last)], next, rfl, ?_, ?_, rfl, progress.append fits scan goes cut⟩
    · rw [List.length_append, List.length_singleton]
    · rw [List.length_append, List.length_singleton]
      omega

theorem processBody_meets (fits : text.length < buffer) (rank : Nat) (state : Tokenizing)
    (stands : Stands before input command buffer text rank state) :
    (processBody (some command) state).Meets
      (fun next => ∃ smaller, smaller < rank ∧ Stands before input command buffer text smaller next)
      (fun after => ∃ runs, Tokenized before after input command buffer text runs) := by
  unfold processBody
  dsimp only [loadArg, storeArg]
  rcases stands with ⟨runs, _, counted, tokenized⟩ |
    ⟨runs, place, ranked, counted, positive, saved, progress⟩
  · rw [counted, Nat.add_sub_cancel, tokenized.null]
    exact ⟨runs, tokenized⟩
  · have latest := progress.tokens (runs.length - 1) (by omega)
    obtain ⟨token, next, after, called, smaller, less, again⟩ := progress.fetch fits
    rw [counted, latest, saved]
    dsimp only
    rw [called]
    rw [← ranked] at less
    exact ⟨smaller, less, again⟩

theorem progress_start (holds : Holds memory input 0 text)
    (room : text.length < memory.size input) :
    Progress memory memory input command buffer text [] 0 := {
  tokens := fun index within => absurd within (Nat.not_lt_zero _)
  cut := fun start stop member => absurd member List.not_mem_nil
  untouched := fun _ _ => rfl
  since := Since.refl _ _
  left := {
    bytes := by
      intro index _ within
      have here := holds.bytes index within
      rw [Nat.zero_add] at here
      rw [here, List.getElem?_eq_getElem within]
    noNul := holds.noNul
    ends := by
      have ends := holds.ends
      rw [Nat.zero_add] at ends
      exact ends
    room := room
    low := Nat.zero_le _ }
  enumerates := Words.enumerates_nil
  boundary := fun _ index behind => absurd behind (Nat.succ_ne_zero index) }

theorem process_ends (holds : Holds memory input 0 text) (room : text.length < memory.size input)
    (fits : text.length < buffer) :
    ∃ fuel after runs, process fuel (some input) (some command) memory = some (.ok after) ∧
      Tokenized memory after input command buffer text runs := by
  have start : Progress memory memory input command buffer text [] 0 := progress_start holds room
  obtain ⟨token, saved, after, called, rank, _, stands⟩ := start.fetch fits
  obtain ⟨final, ⟨fuel, ran⟩, runs, tokenized⟩ :=
    Loops.ends_of_rank (Stands memory input command buffer text)
      (fun after => ∃ runs, Tokenized memory after input command buffer text runs)
      (processBody_meets fits) stands
  refine ⟨fuel, final, runs, ?_, tokenized⟩
  unfold process
  dsimp only [Option.map_some]
  rw [called]
  exact ran

end Loop

theorem exists_holds (memory : Memory) (block offset length : Nat)
    (ends : memory.chars block (offset + length) = 0) :
    ∃ text, text.length ≤ length ∧ Holds memory block offset text := by
  induction length generalizing offset with
  | zero =>
      refine ⟨[], Nat.le_refl _, ?_, List.not_mem_nil, ends⟩
      intro index within
      exact absurd within (Nat.not_lt_zero _)
  | succ length ih =>
      by_cases here : memory.chars block offset = 0
      · refine ⟨[], Nat.zero_le _, ?_, List.not_mem_nil, here⟩
        intro index within
        exact absurd within (Nat.not_lt_zero _)
      · obtain ⟨text, short, holds⟩ := ih (offset + 1) (by
          rw [← ends]
          congr 1
          omega)
        refine ⟨memory.chars block offset :: text, Nat.succ_le_succ short, ?_, ?_, ?_⟩
        · intro index within
          cases index with
          | zero => rfl
          | succ index =>
              have char := holds.bytes index (Nat.lt_of_succ_lt_succ within)
              rw [List.getElem_cons_succ, ← char]
              congr 1
              omega
        · intro nul
          rcases List.mem_cons.mp nul with first | later
          · exact here first.symm
          · exact holds.noNul later
        · have ends := holds.ends
          rw [List.length_cons, ← ends]
          congr 1
          omega

section Ready

variable {growth : Nat → Growth × Growth} {typed text : List UInt8} {doublings input command : Nat}
  {reading : Reading}

theorem Ready.exists_holds (ready : Ready growth typed doublings reading input command) :
    ∃ text, text.length ≤ reading.count ∧ Holds reading.memory input 0 text := by
  refine CS421.Shell.exists_holds reading.memory input 0 reading.count ?_
  rw [Nat.zero_add]
  exact ready.ends

theorem Ready.process_ends (ready : Ready growth typed doublings reading input command)
    (holds : Holds reading.memory input 0 text) (atMost : text.length ≤ reading.count) :
    ∃ fuel after runs,
      process fuel reading.input reading.command reading.memory = some (.ok after) ∧
      Tokenized reading.memory after input command reading.buffer text runs := by
  have below : reading.count < reading.buffer := ready.below
  have room : text.length < reading.memory.size input := by
    rw [ready.inputRoom, pointerSize]
    omega
  rw [ready.inputIs, ready.commandIs]
  exact CS421.Shell.process_ends holds room (Nat.lt_of_le_of_lt atMost below)

end Ready

/-- The heap that a line leaves behind, however it ends. -/
def leftBehind : Except Stop (Reading × List UInt8) → Memory
  | .error stop => stop.memory
  | .ok (reading, _) => reading.memory

/-- After the read loop, process fills the array with the words of the string in
the input, and nothing is written outside of a block. -/
theorem process_tokenizes (allocations : Allocations) (stream : List UInt8) (memory : Memory)
    (short : (lineOf stream).length < 2 ^ 30) :
    Since memory (leftBehind (readLine allocations stream memory)) Access.Inside ∧
    (allocations.Succeed → ¬ exitText <+: lineOf stream →
      ∃ reading, readLine allocations stream memory = .ok (reading, restOf stream)) ∧
    ∀ reading rest, readLine allocations stream memory = .ok (reading, rest) →
      reading.count = (lineOf stream).length ∧ reading.count < reading.buffer ∧
      ∃ input command text, reading.input = some input ∧ reading.command = some command ∧
        reading.memory.size input = pointerSize * reading.buffer ∧
        reading.memory.size command = pointerSize * reading.buffer ∧
        Holds reading.memory input 0 text ∧
        ∃ fuel after runs,
          process fuel reading.input reading.command reading.memory = some (.ok after) ∧
          Tokenized reading.memory after input command reading.buffer text runs := by
  have met := readLine_meets allocations stream memory
  refine ⟨?_, ?_, ?_⟩
  · cases ran : readLine allocations stream memory with
    | error stop =>
        rw [ran] at met
        exact met.1
    | ok final =>
        rw [ran] at met
        exact met.1
  · intro succeed noExit
    obtain ⟨reading, _, _, _, ran, _⟩ := readLine_ends stream memory succeed short noExit
    exact ⟨reading, ran⟩
  · intro reading rest ran
    obtain ⟨_, _, doublings, input, command, ready⟩ := met.ends ran
    obtain ⟨text, atMost, holds⟩ := ready.exists_holds
    exact ⟨ready.counted, ready.below, input, command, text, ready.inputIs, ready.commandIs,
      ready.inputRoom, ready.commandRoom, holds, ready.process_ends holds atMost⟩

theorem process_tokenizes_ls :
    ∃ reading input command text fuel after runs,
      readLine stay ([108, 115, 32, 45, 108] ++ [newline]) Memory.initial = .ok (reading, []) ∧
      Holds reading.memory input 0 text ∧
      process fuel reading.input reading.command reading.memory = some (.ok after) ∧
      Tokenized reading.memory after input command reading.buffer text runs := by
  obtain ⟨_, ends, tokenizes⟩ := process_tokenizes stay ([108, 115, 32, 45, 108] ++ [newline])
    Memory.initial (by decide)
  obtain ⟨reading, ran⟩ := ends stay_succeeds (by decide)
  obtain ⟨_, _, input, command, text, _, _, _, _, holds, fuel, after, runs, processed, tokenized⟩ :=
    tokenizes reading _ ran
  exact ⟨reading, input, command, text, fuel, after, runs, ran, holds, processed, tokenized⟩

end CS421.Shell
