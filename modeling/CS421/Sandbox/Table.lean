/-
The sandbox table of proj2.h and the helpers of proj2.c that the system calls
share: array accesses, the table lock, the slot of a key and the first
initialisation.

An access outside its array is a fault, since C gives it no meaning. Log
messages are left out: nothing reads them back.
-/

import CS421.Errno
import Mathlib.Algebra.Group.Int.Defs
import Mathlib.Algebra.Group.Nat.Defs
import Mathlib.Data.List.FinRange
import Mathlib.Logic.Function.Basic

set_option autoImplicit false

namespace CS421.Sandbox

inductive Fault where
  /-- `permList[nr]` with `nr` past the last entry. -/
  | permList (nr : UInt64)
  /-- `hash[index]` with `index` outside `[0, SIZE)`. -/
  | hash (index : Int32)
  /-- `mutex_lock` by the task that already holds the mutex. -/
  | deadlock
  deriving DecidableEq, Repr

abbrev SIZE : Nat := 32

/-- Number of entries, one for each system call from 0 to 436. -/
abbrev entries : Nat := 437

structure SysTable where
  call : UInt64
  count : UInt64
  hash : Fin SIZE → Int32

/-- `taken` counts the acquisitions; the code never reads it. -/
structure Mutex where
  locked : Bool
  taken : Nat
  deriving DecidableEq, Repr

structure State where
  permList : Fin entries → SysTable
  started : Int32
  lockTable : Mutex

def boot : State :=
  { permList := fun _ => { call := 0, count := 0, hash := fun _ => 0 }
    started := 0
    lockTable := { locked := false, taken := 0 } }

def getHashs (key : Int32) : Int32 := key % Int32.ofNat SIZE

def State.entry (state : State) (nr : UInt64) : Except Fault SysTable :=
  if bound : nr.toNat < entries then .ok (state.permList ⟨nr.toNat, bound⟩)
  else .error (.permList nr)

def State.setEntry (state : State) (nr : UInt64) (row : SysTable) : Except Fault State :=
  if bound : nr.toNat < entries then
    .ok { state with permList := Function.update state.permList ⟨nr.toNat, bound⟩ row }
  else .error (.permList nr)

def slot (index : Int32) : Except Fault (Fin SIZE) :=
  if bound : 0 ≤ index.toInt ∧ index.toInt.toNat < SIZE then .ok ⟨index.toInt.toNat, bound.2⟩
  else .error (.hash index)

/-- The test `first && hash[index] == key`. The array is read only when
`first` holds. -/
def SysTable.holds (row : SysTable) (first : Bool) (index key : Int32) : Except Fault Bool :=
  if first then do
    let place ← slot index
    pure (row.hash place == key)
  else pure false

def SysTable.setHash (row : SysTable) (index key : Int32) : Except Fault SysTable := do
  let place ← slot index
  pure { row with hash := Function.update row.hash place key }

def mutexLock (state : State) : Except Fault State :=
  if state.lockTable.locked then .error .deadlock
  else .ok { state with lockTable := { locked := true, taken := state.lockTable.taken + 1 } }

def mutexUnlock (state : State) : State :=
  { state with lockTable := { state.lockTable with locked := false } }

def SysTable.initalize (row : SysTable) : SysTable := { row with call := 999, count := 0 }

/-- The body of the loop of `initalizeHash`. It leaves `hash` as it finds it. -/
def initalizeEntry (permList : Fin entries → SysTable) (countm : Fin entries) :
    Fin entries → SysTable :=
  Function.update permList countm (permList countm).initalize

def initalizeHash (state : State) : State :=
  { state with permList := (List.finRange entries).foldl initalizeEntry state.permList }

/-- Lines 44 to 49, which open all three system calls. The other branch of the
test only stores `getTableMain()` in a local that nothing reads. -/
def startUp (state : State) : State :=
  if state.started == 0 then { initalizeHash state with started := 1 } else state

private theorem initalize_twice (row : SysTable) : row.initalize.initalize = row.initalize := rfl

private theorem foldl_initalizeEntry (order : List (Fin entries))
    (permList : Fin entries → SysTable) (n : Fin entries) :
    order.foldl initalizeEntry permList n =
      if n ∈ order then (permList n).initalize else permList n := by
  induction order generalizing permList with
  | nil => rfl
  | cons first rest ih =>
      rw [List.foldl_cons, ih]
      by_cases same : n = first
      · subst n
        simp [initalizeEntry, initalize_twice]
      · simp [initalizeEntry, same]

theorem initalizeHash_permList (state : State) (n : Fin entries) :
    (initalizeHash state).permList n = (state.permList n).initalize := by
  unfold initalizeHash
  dsimp only
  rw [foldl_initalizeEntry, if_pos (List.mem_finRange n)]

@[simp] theorem initalizeHash_lockTable (state : State) :
    (initalizeHash state).lockTable = state.lockTable := by
  unfold initalizeHash
  rfl

end CS421.Sandbox
