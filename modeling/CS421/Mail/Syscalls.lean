/-
The system calls of project1.c on the mailbox store.

`uid` is the caller's uid after the conversion to `unsigned long` that each test
makes. Whether an allocation succeeds is an argument. So is the size of the
block for a message, since line 430 asks for that of a pointer: what a store
past its end does is not modelled, the run ends there. Nor is what `printk` reads
for the kernel log.
-/

import CS421.Mail.Store

set_option autoImplicit false

namespace CS421.Mail

abbrev Outcome := Except Fault (Int64 × Store)

/-- `memory` is what `kmalloc` gives: nothing, or a mailbox whose `aclC` holds
whatever was there. -/
def mbx421Create (uid id : UInt64) (memory : Option Bool) (store : Store) : Outcome :=
  if store.mailboxC == 0 then .ok (-ENOENT, store)
  else if id == 0 || decide (id < MAXID) then .ok (-EFAULT, store)
  else if uid != 0 then .ok (-EPERM, store)
  else if store.mail.any (fun box => box.id == id) then .ok (-EEXIST, store)
  -- The test reads `box`, which the scan leaves at the last mailbox, and not `boxN`.
  else if store.mail.getLast? == none then .ok (-ENOMEM, store)
  else
    match memory with
    | none => .error .nullDereference
    | some aclC =>
        let boxN := { aclC := aclC, id := id, count := 0, messages := [], acl := [] }
        .ok (0, { store with mail := store.mail ++ [boxN] })

def destroyFound (box : Mailbox) : Except Fault (Int64 × List Mailbox) :=
  if box.count > 0 then .ok (-EINVAL, [box]) else .ok (0, [])

def mbx421Destroy (uid id : UInt64) (store : Store) : Outcome :=
  if store.mailboxC == 0 then .ok (-ENOENT, store)
  else if uid != 0 then .ok (-EPERM, store)
  else store.search id (-ENOENT) destroyFound

/-- Lines 377 to 396. The count goes to the kernel log only. -/
def mbx421Count (id : UInt64) (store : Store) : Outcome :=
  store.search id (-EEXIST) (fun box => .ok (0, [box]))

def lengthLoop : List Mailbox → Int64
  | [] => 0
  | box :: rest =>
      if box.count == 0 then -EINVAL
      else if box.messages.isEmpty then -EINVAL
      else lengthLoop rest

/-- The id and the uid decide only what goes to the kernel log. -/
def mbx421Length (_id : UInt64) (store : Store) : Outcome := .ok (lengthLoop store.mail, store)

def aclAddFound (pid : Int32) (memory : Bool) (box : Mailbox) :
    Except Fault (Int64 × List Mailbox) :=
  if box.acl.contains pid then .ok (-EINVAL, [box])
  else
    let box := { box with aclC := true }
    if !memory then .ok (-ENOMEM, [box])
    else .ok (0, [{ box with acl := box.acl ++ [pid] }])

def mbx421AclAdd (uid id : UInt64) (pid : Int32) (memory : Bool) (store : Store) : Outcome :=
  if uid != 0 then .ok (-EPERM, store)
  else store.search id (-EINVAL) (aclAddFound pid memory)

def aclRemoveFound (pid : Int32) (box : Mailbox) : Except Fault (Int64 × List Mailbox) :=
  if box.acl.contains pid then .ok (0, [{ box with acl := box.acl.erase pid }])
  else .ok (-EINVAL, [box])

def mbx421AclRemove (uid id : UInt64) (pid : Int32) (store : Store) : Outcome :=
  if uid != 0 then .ok (-EPERM, store)
  else store.search id (-EINVAL) (aclRemoveFound pid)

/-! ### mbx421_send -/

/-- `sizeof(msgS)`, where `msgS` is a pointer. -/
def pointerSize : Nat := 8

/-- `sizeof(message)`: `msg`, `length` and `list_node`, which has two pointers. -/
def messageSize : Nat := 32

/-- The block of `kmalloc(sizeof(msgS))`, by the number of its bytes. -/
abbrev Room := { bytes : Nat // pointerSize ≤ bytes }

def Room.asked : Room := ⟨pointerSize, Nat.le_refl pointerSize⟩

def Room.whole : Room := ⟨messageSize, by decide⟩

structure Memory where
  node : Option Room
  buffer : Bool
  copy : Copy

def Memory.Succeeds (memory : Memory) : Prop := memory.node ≠ none ∧ memory.buffer = true

/-- The block for the message, if there is one, has room for it. -/
def Memory.Fits (memory : Memory) : Prop := ∀ room ∈ memory.node, messageSize ≤ room.1

instance (memory : Memory) : Decidable memory.Fits :=
  inferInstanceAs (Decidable (∀ room ∈ memory.node, messageSize ≤ room.1))

/-- Lines 429 to 451. -/
def sendFound (msg : UserMemory) (len : Len) (memory : Memory) (box : Mailbox) :
    Except Fault (Int64 × List Mailbox) :=
  let box := { box with count := box.count + 1 }
  match memory.node with
  | none => .ok (-ENOMEM, [box])
  | some room =>
      if !memory.buffer then .ok (-ENOMEM, [box])
      -- Lines 446 and 447 write the last 24 bytes of the message.
      else if room.1 < messageSize then .error .wildWrite
      else
        let msgS := Message.sent memory.copy msg len
        .ok (0, [{ box with messages := box.messages ++ [msgS] }])

/-- The loop of `mbx421_send`, past the tests of the id, the uid and the length. -/
def sendLoop (id : UInt64) (msg : UserMemory) (len : Len) (memory : Memory) (store : Store) :
    Outcome :=
  store.search id (-ENOENT) (sendFound msg len memory)

def mbx421Send (uid id : UInt64) (msg : UserMemory) (len : Int64) (memory : Memory)
    (store : Store) : Outcome :=
  if store.mailboxC == 0 then .ok (-ENOENT, store)
  else if id == 0 || decide (id < MAXID) then .ok (-EFAULT, store)
  else if uid != id then .ok (-EPERM, store)
  else if nonneg : 0 ≤ len then sendLoop id msg ⟨len, nonneg⟩ memory store
  else .ok (-EINVAL, store)

/-! ### mbx421_recv -/

/-- The result of a receive, the bytes it writes to the caller's buffer and the
message it takes off the list. -/
structure Reply where
  answer : Int64
  written : List UInt8
  taken : Option Message
  deriving DecidableEq

/-- Lines 486 to 498. No line writes to the caller's buffer or to `count`. -/
def recvFound (box : Mailbox) : Except Fault (Reply × List Mailbox) :=
  if box.count == 0 then
    .ok ({ answer := -ESRCH, written := [], taken := none }, [box])
  else
    match box.messages with
    | [] => .error .emptyList
    | msgR :: rest =>
        .ok ({ answer := msgR.length.toInt64, written := [], taken := some msgR },
          [{ box with messages := rest }])

/-- The loop of `mbx421_recv`, past the tests of the id and the uid. The buffer
and its length are arguments that it does not use. -/
def recvLoop (id : UInt64) (_msg : UserMemory) (_len : Int64) (store : Store) :
    Except Fault (Reply × Store) :=
  store.search id { answer := -ENOENT, written := [], taken := none } recvFound

def mbx421Recv (uid id : UInt64) (msg : UserMemory) (len : Int64) (store : Store) :
    Except Fault (Reply × Store) :=
  let refuse (errno : Int64) : Except Fault (Reply × Store) :=
    .ok ({ answer := -errno, written := [], taken := none }, store)
  if store.mailboxC == 0 then refuse ENOENT
  else if id == 0 || decide (id < MAXID) then refuse EFAULT
  else if uid != id then refuse EPERM
  else recvLoop id msg len store

/-! ### Calls -/

/-- The loops of send and receive, which are entered when the tests before them
have passed. -/
inductive Body where
  | send (id : UInt64) (msg : UserMemory) (len : Len) (memory : Memory)
  | recv (id : UInt64) (msg : UserMemory) (len : Int64)

inductive Operation where
  | create (uid id : UInt64) (memory : Option Bool)
  | destroy (uid id : UInt64)
  | count (id : UInt64)
  | length (id : UInt64)
  | aclAdd (uid id : UInt64) (pid : Int32) (memory : Bool)
  | aclRemove (uid id : UInt64) (pid : Int32)
  | body (call : Body)

def plain (outcome : Outcome) : Except Fault (Reply × Store) :=
  match outcome with
  | .error fault => .error fault
  | .ok (answer, store) => .ok ({ answer := answer, written := [], taken := none }, store)

def Body.id : Body → UInt64
  | .send id _ _ _ | .recv id _ _ => id

def Body.perform : Body → Store → Except Fault (Reply × Store)
  | .send id msg len memory, store => plain (sendLoop id msg len memory store)
  | .recv id msg len, store => recvLoop id msg len store

def Operation.perform : Operation → Store → Except Fault (Reply × Store)
  | .create uid id memory, store => plain (mbx421Create uid id memory store)
  | .destroy uid id, store => plain (mbx421Destroy uid id store)
  | .count id, store => plain (mbx421Count id store)
  | .length id, store => plain (mbx421Length id store)
  | .aclAdd uid id pid memory, store => plain (mbx421AclAdd uid id pid memory store)
  | .aclRemove uid id pid, store => plain (mbx421AclRemove uid id pid store)
  | .body call, store => call.perform store

end CS421.Mail
