/-
The system calls of proj2.c and the hook `findder` that common.c calls.

Each function follows the source line by line. The self branch and the root
branch of a system call repeat one critical section, so that section is one
definition here and both branches name it.
-/

import CS421.Sandbox.Table

set_option autoImplicit false

namespace CS421.Sandbox

abbrev Outcome := Except Fault (Int64 × State)

/-- Lines 52 to 66, repeated as lines 69 to 84. -/
def blockLocked (proc : Int32) (nr : UInt64) (state : State) : Outcome := do
  let index := getHashs proc
  let state ← mutexLock state
  let row ← state.entry nr
  let present ← row.holds (row.call != 999) index proc
  if present then
    -- The comment in the source says "Update count", but the field is `call`.
    let state ← state.setEntry nr { row with call := row.call + 1 }
    pure (-EEXIST, mutexUnlock state)
  else
    let row ← row.setHash index proc
    let state ← state.setEntry nr { row with call := nr, count := 0 }
    pure (0, mutexUnlock state)

/-- `uid` is the caller's, `current_cred()->uid.val`, which is unsigned: the
comparison converts `proc`. -/
def sbx421Block (uid : UInt32) (proc : Int32) (nr : UInt64) (state : State) : Outcome :=
  let state := startUp state
  if uid == proc.toUInt32 then blockLocked proc nr state
  else if uid == 0 then blockLocked proc nr state
  else .ok (-EPERM, state)

/-- Lines 105 to 118, repeated as lines 122 to 135, with the `-EEXIST` of line
141 that both fall through to. -/
def unblockLocked (proc : Int32) (nr : UInt64) (state : State) : Outcome := do
  let index := getHashs proc
  let state ← mutexLock state
  let row ← state.entry nr
  let present ← row.holds (row.call == nr) index proc
  if present then
    let row ← { row with call := 999 }.setHash index 0
    let state ← state.setEntry nr row
    pure (0, mutexUnlock state)
  else
    pure (-EEXIST, mutexUnlock state)

def sbx421Unblock (uid : UInt32) (proc : Int32) (nr : UInt64) (state : State) : Outcome :=
  let state := startUp state
  if uid == proc.toUInt32 then unblockLocked proc nr state
  else if uid == 0 then unblockLocked proc nr state
  else .ok (-EPERM, state)

/-- `int temp = permList[nr].count`, returned as a `long`. -/
def narrow (count : UInt64) : Int64 := count.toUInt32.toInt32.toInt64

def countLocked (proc : Int32) (nr : UInt64) (state : State) : Outcome := do
  let index := getHashs proc
  let state ← mutexLock state
  let row ← state.entry nr
  let present ← row.holds (row.call == nr) index proc
  if present then
    pure (narrow row.count, mutexUnlock state)
  else
    pure (-EEXIST, mutexUnlock state)

def sbx421Count (uid : UInt32) (proc : Int32) (nr : UInt64) (state : State) : Outcome :=
  let state := startUp state
  if uid == 0 then
    if proc != 0 && decide (proc > 0) then countLocked proc nr state
    else .ok (-EINVAL, state)
  else .ok (-EPERM, state)

/-- `getHash` is a parameter: proj2.c calls it and defines only `getHashs`.
The hook neither initialises the table nor takes the lock. -/
def findder (getHash : Int32 → Int32) (uid : Int32) (nr : UInt64) (state : State) :
    Except Fault (Int32 × State) := do
  let index := getHash uid
  let row ← state.entry nr
  let found ← row.holds (row.call == nr) index uid
  if found then
    let state ← state.setEntry nr { row with count := row.count + 1 }
    pure (1, state)
  else
    pure (0, state)

/-- One call into the sandbox. The first argument of a system call is the uid
of its caller. -/
inductive Call where
  | block (uid : UInt32) (proc : Int32) (nr : UInt64)
  | unblock (uid : UInt32) (proc : Int32) (nr : UInt64)
  | count (uid : UInt32) (proc : Int32) (nr : UInt64)
  | findder (uid : Int32) (nr : UInt64)
  deriving DecidableEq, Repr

def Call.key : Call → Int32
  | .block _ proc _ | .unblock _ proc _ | .count _ proc _ => proc
  | .findder uid _ => uid

def Call.nr : Call → UInt64
  | .block _ _ nr | .unblock _ _ nr | .count _ _ nr | .findder _ nr => nr

/-- `findder` with its `getHash` read as `getHashs`. -/
def perform : Call → State → Outcome
  | .block uid proc nr, state => sbx421Block uid proc nr state
  | .unblock uid proc nr, state => sbx421Unblock uid proc nr state
  | .count uid proc nr, state => sbx421Count uid proc nr state
  | .findder uid nr, state => do
      let (answer, state) ← findder getHashs uid nr state
      pure (answer.toInt64, state)

/-- The arguments that stay inside the arrays: a nonnegative uid and the number
of one of the entries. -/
def Call.Valid (call : Call) : Prop := 0 ≤ call.key ∧ call.nr.toNat < entries

instance (call : Call) : Decidable call.Valid := by unfold Call.Valid; infer_instance

abbrev Request := { call : Call // call.Valid }

end CS421.Sandbox
