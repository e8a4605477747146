/-
The chained variant of the sandbox, proj2_copy.c: each system call number has a
hash table of chains, and a block is a node of its own.

The file does not compile as it stands. It is read as it is meant: `permList[nr]`
points to an entry with a kernel hash table, `getTableMain` gives that table, and
`porc` is `proc`. A chain is a list of nodes, newest first, as `hash_add` leaves
it, and `bucket` is the `hash_min` of the kernel, left open. Its `findder` searches
under a name it does not declare, takes no lock and is left out, as are messages.
-/

import CS421.Sandbox.Table
import CS421.Sandbox.Rows

set_option autoImplicit false

namespace CS421.Sandbox.Chained

structure Node where
  proc : Int32
  call : UInt64
  count : UInt64
  deriving DecidableEq, Repr

abbrev HashTable := Nat → List Node

inductive Fault where
  /-- `permList[nr]` with `nr` past the last entry. -/
  | permList (nr : UInt64)
  /-- An entry of `permList` that is NULL. -/
  | null (n : Fin entries)
  /-- `mutex_lock` by a task while nobody will unlock. -/
  | deadlock
  deriving DecidableEq, Repr

structure State where
  permList : Fin entries → Option HashTable
  started : Int32
  lockTable : Mutex

variable (bucket : Int32 → Nat)

abbrev Outcome := Except Fault (Int64 × State)

def mutexLock (state : State) : Except Fault State :=
  if state.lockTable.locked then .error .deadlock
  else .ok { state with lockTable := { locked := true, taken := state.lockTable.taken + 1 } }

def mutexUnlock (state : State) : State :=
  { state with lockTable := { state.lockTable with locked := false } }

def getTableMain (nr : UInt64) (state : State) : Except Fault HashTable :=
  if bound : nr.toNat < entries then
    match state.permList ⟨nr.toNat, bound⟩ with
    | some table => .ok table
    | none => .error (.null ⟨nr.toNat, bound⟩)
  else .error (.permList nr)

def setTable (nr : UInt64) (table : HashTable) (state : State) : State :=
  { state with permList := Function.update state.permList (entryOf nr) (some table) }

def initalizeEntry (permList : Fin entries → Option HashTable) (countm : Fin entries) :
    Except Fault (Fin entries → Option HashTable) :=
  match permList countm with
  | some _ => .ok (Function.update permList countm (some fun _ => []))
  | none => .error (.null countm)

def initalizeHash (state : State) : Except Fault State := do
  let permList ← (List.finRange entries).foldlM initalizeEntry state.permList
  pure { state with permList := permList }

def startUp (state : State) : Except Fault State :=
  if state.started == 0 then do
    let state ← initalizeHash state
    pure { state with started := 1 }
  else .ok state

def Node.isFor (proc : Int32) (nr : UInt64) (check : Node) : Bool :=
  check.proc == proc && check.call == nr

/-- `hash_for_each_possible`, up to the first node of the pair. -/
def search (procHash : HashTable) (proc : Int32) (nr : UInt64) : Option Node :=
  (procHash (bucket proc)).find? (Node.isFor proc nr)

def hashAdd (procHash : HashTable) (node : Node) : HashTable :=
  Function.update procHash (bucket node.proc) (node :: procHash (bucket node.proc))

def hashDel (procHash : HashTable) (proc : Int32) (nr : UInt64) : HashTable :=
  Function.update procHash (bucket proc)
    ((procHash (bucket proc)).eraseP (Node.isFor proc nr))

/-- Lines 48 to 74, repeated as lines 77 to 104, with the `-EPERM` of line 110
that both fall through to. -/
def blockLocked (allocated : Bool) (proc : Int32) (nr : UInt64) (state : State) : Outcome := do
  let state ← mutexLock state
  let procHash ← getTableMain nr state
  match search bucket procHash proc nr with
  | some _ => pure (-EEXIST, mutexUnlock state)
  | none =>
      if allocated then
        let temp := { proc := proc, call := nr, count := 0 }
        pure (-EPERM, mutexUnlock (setTable nr (hashAdd bucket procHash temp) state))
      -- The only return that does not unlock.
      else pure (-ENOMEM, state)

def sbx421Block (allocated : Bool) (uid : UInt32) (proc : Int32) (nr : UInt64)
    (state : State) : Outcome := do
  let state ← startUp state
  if uid == proc.toUInt32 then blockLocked bucket allocated proc nr state
  else if uid == 0 then blockLocked bucket allocated proc nr state
  else pure (-EPERM, state)

/-- Lines 123 to 140, repeated as lines 143 to 160, with the `-ENOENT` of line
166 that both fall through to. -/
def unblockLocked (proc : Int32) (nr : UInt64) (state : State) : Outcome := do
  let state ← mutexLock state
  let procHash ← getTableMain nr state
  match search bucket procHash proc nr with
  | some _ => pure (0, mutexUnlock (setTable nr (hashDel bucket procHash proc nr) state))
  | none => pure (-ENOENT, mutexUnlock state)

def sbx421Unblock (uid : UInt32) (proc : Int32) (nr : UInt64) (state : State) : Outcome := do
  let state ← startUp state
  if uid == proc.toUInt32 then unblockLocked bucket proc nr state
  else if uid == 0 then unblockLocked bucket proc nr state
  else pure (-EPERM, state)

def countLocked (proc : Int32) (nr : UInt64) (state : State) : Outcome := do
  let state ← mutexLock state
  let procHash ← getTableMain nr state
  match search bucket procHash proc nr with
  | some check => pure (check.count.toInt64, mutexUnlock state)
  | none => pure (-EEXIST, mutexUnlock state)

def sbx421Count (uid : UInt32) (proc : Int32) (nr : UInt64) (state : State) : Outcome := do
  let state ← startUp state
  if uid == 0 then
    if proc != 0 then countLocked bucket proc nr state
    else pure (-EINVAL, state)
  else pure (-EPERM, state)

/-- A system call by the caller `uid`; a block also carries what its `kmalloc`
comes to. -/
inductive Call where
  | block (allocated : Bool) (uid : UInt32) (proc : Int32) (nr : UInt64)
  | unblock (uid : UInt32) (proc : Int32) (nr : UInt64)
  | count (uid : UInt32) (proc : Int32) (nr : UInt64)
  deriving DecidableEq, Repr

def perform : Call → State → Outcome
  | .block allocated uid proc nr, state => sbx421Block bucket allocated uid proc nr state
  | .unblock uid proc nr, state => sbx421Unblock bucket uid proc nr state
  | .count uid proc nr, state => sbx421Count bucket uid proc nr state

end CS421.Sandbox.Chained
