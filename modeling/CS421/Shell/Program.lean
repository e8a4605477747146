/-
The shell: one line from malloc to the array of its tokens.

Pointers may be NULL, and a store through NULL crashes. A store through a
pointer to a released block does not: it stays behind as an access. What malloc
and realloc do is given from outside, for realloc by the size of the full buffer.
-/

import Mathlib.Algebra.Ring.Nat
import CS421.Loops
import CS421.Shell.Memory

set_option autoImplicit false

namespace CS421.Shell

def newline : UInt8 := 10

/-- The only delimiter that `process` knows. -/
def space : UInt8 := 32

def exitText : List UInt8 := [101, 120, 105, 116]

def intMax : Nat := 2 ^ 31 - 1

inductive Fault where
  | null
  | outside
  | overflow
  deriving DecidableEq

inductive Stop where
  | exit (status : Nat) (printed : String) (memory : Memory)
  | crash (fault : Fault) (memory : Memory)

def storeChar (place : Option Nat) (index : Nat) (char : UInt8) (memory : Memory) :
    Except Stop Memory :=
  match place with
  | none => .error (.crash .null memory)
  | some block => .ok (memory.setChar block index char)

def storeArg (place : Option Nat) (index : Nat) (arg : Pointer) (memory : Memory) :
    Except Stop Memory :=
  match place with
  | none => .error (.crash .null memory)
  | some block => .ok (memory.setArg block index arg)

def loadArg (place : Option Nat) (index : Nat) (memory : Memory) : Except Stop Pointer :=
  match place with
  | none => .error (.crash .null memory)
  | some block => .ok (memory.args block index)

/-- `free(NULL)` does nothing. -/
def release (place : Option Nat) (memory : Memory) : Memory :=
  match place with
  | none => memory
  | some block => memory.free block

/-- `realloc(NULL, bytes)` is `malloc(bytes)`. -/
def resize (growth : Growth) (place : Option Nat) (bytes : Nat) (memory : Memory) :
    Option Nat × Memory :=
  match place with
  | none => memory.malloc (growth ≠ .failed) bytes
  | some block => memory.realloc growth block bytes

/-! ### The string library -/

/-- `strcmp` is 0: the characters agree up to the NUL. It reads no further than
the first that does not. -/
def strcmpEqual (chars : Nat → UInt8) : Nat → List UInt8 → Bool
  | offset, [] => chars offset == 0
  | offset, char :: rest => chars offset == char && strcmpEqual chars (offset + 1) rest

def skipDelimiters (chars : Nat → UInt8) : (room offset : Nat) → Option Nat
  | 0, _ => none
  | room + 1, offset =>
      if chars offset = space then skipDelimiters chars room (offset + 1) else some offset

def tokenEnd (chars : Nat → UInt8) : (room offset : Nat) → Option Nat
  | 0, _ => none
  | room + 1, offset =>
      if chars offset = space ∨ chars offset = 0 then some offset
      else tokenEnd chars room (offset + 1)

/-- The token, the place where the next search starts, and the heap with the
delimiter behind the token overwritten. -/
def strtok (start : Pointer) (memory : Memory) : Except Stop (Pointer × Pointer × Memory) :=
  match start with
  | none => .error (.crash .null memory)
  | some (block, offset) =>
      match skipDelimiters (memory.chars block) (memory.size block - offset) offset with
      | none => .error (.crash .outside memory)
      | some first =>
          if memory.chars block first = 0 then .ok (none, some (block, first), memory)
          else
            match tokenEnd (memory.chars block) (memory.size block - first) first with
            | none => .error (.crash .outside memory)
            | some last =>
                if memory.chars block last = 0 then
                  .ok (some (block, first), some (block, last), memory)
                else
                  .ok (some (block, first), some (block, last + 1), memory.setChar block last 0)

/-! ### process -/

structure Tokenizing where
  tokens : Nat
  saved : Pointer
  memory : Memory

def processBody (command : Option Nat) : Loops.Body Tokenizing Memory Stop := fun state =>
  match loadArg command (state.tokens - 1) state.memory with
  | .error stop => .stop stop
  | .ok none => .done state.memory
  | .ok (some _) =>
      match strtok state.saved state.memory with
      | .error stop => .stop stop
      | .ok (token, saved, memory) =>
          match storeArg command state.tokens token memory with
          | .error stop => .stop stop
          | .ok memory => .again { tokens := state.tokens + 1, saved := saved, memory := memory }

def process (fuel : Nat) (input command : Option Nat) (memory : Memory) :
    Option (Except Stop Memory) :=
  match strtok (input.map fun block => (block, 0)) memory with
  | .error stop => some (.error stop)
  | .ok (token, saved, memory) =>
      match storeArg command 0 token memory with
      | .error stop => some (.error stop)
      | .ok memory =>
          Loops.run (processBody command) fuel { tokens := 1, saved := saved, memory := memory }

/-! ### The read loop of main -/

/-- What the library does for one line: whether the two calls of malloc succeed,
and what becomes of input and of command when a buffer of this size is full. -/
structure Allocations where
  command : Bool
  input : Bool
  growth : Nat → Growth × Growth

structure Reading where
  memory : Memory
  input : Option Nat
  command : Option Nat
  buffer : Nat
  count : Nat
  tester : Nat

/-- The loop of lines 65 to 69, for so many turns. -/
def initialise (command input : Option Nat) :
    (turns tester : Nat) → Memory → Except Stop Memory
  | 0, _, memory => .ok memory
  | turns + 1, tester, memory => do
      let memory ← storeArg command tester none memory
      let memory ← storeChar input tester 0 memory
      initialise command input turns (tester + 1) memory

/-- Lines 58 to 78. -/
def openLine (allocations : Allocations) (memory : Memory) : Except Stop Reading :=
  let buffer := 1024
  let (command, memory) := memory.malloc allocations.command (pointerSize * buffer)
  let (input, memory) := memory.malloc allocations.input (pointerSize * buffer)
  match initialise command input buffer 0 memory with
  | .error stop => .error stop
  | .ok memory =>
      if input.isNone then .error (.exit 1 "Error: Unalbe to allocate memory\n" memory)
      else .ok { memory, input, command, buffer, count := 0, tester := buffer }

/-- The loop of lines 92 to 96. The index into input does not move. -/
def initialiseGrown (tempArr input : Option Nat) (tester : Nat) :
    (turns tester2 : Nat) → Memory → Except Stop Memory
  | 0, _, memory => .ok memory
  | turns + 1, tester2, memory => do
      let memory ← storeArg tempArr tester2 none memory
      let memory ← storeChar input tester 0 memory
      initialiseGrown tempArr input tester turns (tester2 + 1) memory

/-- Lines 84 to 106. -/
def grow (growth : Nat → Growth × Growth) (reading : Reading) : Except Stop Reading :=
  let buffer := reading.buffer * 2
  if intMax < buffer then .error (.crash .overflow reading.memory)
  else
    let (tempBuffer, memory) :=
      resize (growth reading.buffer).1 reading.input (pointerSize * buffer) reading.memory
    let (tempArr, memory) :=
      resize (growth reading.buffer).2 reading.command (pointerSize * buffer) memory
    match initialiseGrown tempArr reading.input reading.tester (buffer - buffer / 2) (buffer / 2)
      memory with
    | .error stop => .error stop
    | .ok memory =>
        if tempBuffer.isNone ∨ tempArr.isNone then
          .error (.exit 0 "Error: Unable to make bigger buffer\n"
            (release reading.command (release reading.input memory)))
        else .ok { reading with memory, input := tempBuffer, command := tempArr, buffer }

/-- Lines 83 to 107. -/
def growIfFull (growth : Nat → Growth × Growth) (reading : Reading) : Except Stop Reading :=
  if reading.count = reading.buffer then grow growth reading else .ok reading

/-- Lines 109 to 115. -/
def terminate (reading : Reading) : Except Stop Reading :=
  match reading.input with
  | none => .error (.crash .null reading.memory)
  | some block =>
      let memory := reading.memory.setChar block reading.count 0
      if strcmpEqual (memory.chars block) 0 exitText then
        .error (.exit 0 "" (release reading.command (release reading.input memory)))
      else .ok { reading with memory }

/-- One turn of the read loop. count stays below buffer, so it overflows later
than buffer does. -/
def readChar (growth : Nat → Growth × Growth) (temp : UInt8) (reading : Reading) :
    Except Stop Reading := do
  let memory ← storeChar reading.input reading.count temp reading.memory
  let grown ← growIfFull growth { reading with memory, count := reading.count + 1 }
  terminate grown

/-- Newline and the end of the input both end the loop. What comes after the
newline is left for the next line. -/
def readLoop (growth : Nat → Growth × Growth) :
    List UInt8 → Reading → Except Stop (Reading × List UInt8)
  | [], reading => .ok (reading, [])
  | temp :: rest, reading =>
      if temp = newline then .ok (reading, rest)
      else do
        let reading ← readChar growth temp reading
        readLoop growth rest reading

def readLine (allocations : Allocations) (stream : List UInt8) (memory : Memory) :
    Except Stop (Reading × List UInt8) := do
  let reading ← openLine allocations memory
  readLoop allocations.growth stream reading

end CS421.Shell
