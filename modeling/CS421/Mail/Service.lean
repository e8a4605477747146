/-
The mailbox service as its callers see it: all ten system calls of project1.c.

`mbx421_shutdown` unlinks the list head `mail` itself, so the state says beside
the store whether `mail` is still a list. The walk of a later call over an
unlinked `mail` reads a poison pointer; what shutdown does to the pointers is
modelled in the teardown module.
-/

import CS421.Mail.Syscalls
import CS421.Runs

set_option autoImplicit false

namespace CS421.Mail

open Runs

/-- The store, and whether `mail` still heads a list. -/
structure Service where
  store : Store
  linked : Bool

inductive Trap where
  /-- A walk follows a pointer that `list_del` has poisoned. -/
  | poison
  | fault (fault : Fault)
  deriving DecidableEq, Repr

/-- `LIST_HEAD(mail)` and `int MAILBOXC = 0`. -/
def bootService : Service :=
  { store := { mailboxC := 0, mail := [] }
    linked := true }

def mbx421Init (uid : UInt64) (ptrs prob : UInt32) (store : Store) : Outcome :=
  if store.mailboxC != 0 then .ok (-EEXIST, store)
  else if uid != 0 then .ok (-EPERM, store)
  else if decide (ptrs ≤ 0) then .ok (-EINVAL, store)
  else if prob != 2 || prob != 4 || prob != 8 || prob != 16 then .ok (-EINVAL, store)
  else .ok (0, { store with mailboxC := store.mailboxC + 1 })

/-- The test of `MAILBOXC` only logs. The walk ends at its first step on an
empty list, and meets a poison pointer on any other. -/
def mbx421Shutdown (uid : UInt64) (service : Service) : Except Trap (Int64 × Service) :=
  if uid != 0 then .ok (-EPERM, service)
  else if !service.linked then .error .poison
  else
    match service.store.mail with
    | [] => .ok (0, { store := { mailboxC := 0, mail := [] }, linked := false })
    | _ :: _ => .error .poison

/-- Past lines 220 to 231. -/
def createChecks (uid id : UInt64) (store : Store) : Bool :=
  store.mailboxC != 0 && !(id == 0 || decide (id < MAXID)) && uid == 0

/-- Past lines 308 to 316. -/
def destroyChecks (uid : UInt64) (store : Store) : Bool := store.mailboxC != 0 && uid == 0

/-- Past lines 405 to 423. -/
def sendChecks (uid id : UInt64) (len : Int64) (store : Store) : Bool :=
  store.mailboxC != 0 && !(id == 0 || decide (id < MAXID)) && uid == id && decide (0 ≤ len)

/-- Past lines 467 to 480. -/
def recvChecks (uid id : UInt64) (store : Store) : Bool :=
  store.mailboxC != 0 && !(id == 0 || decide (id < MAXID)) && uid == id

/-- Past the only test of the two access list calls. -/
def aclChecks (uid : UInt64) : Bool := uid == 0

inductive Syscall where
  | init (ptrs prob : UInt32)
  | shutdown
  | create (id : UInt64) (memory : Option Bool)
  | destroy (id : UInt64)
  | count (id : UInt64)
  | length (id : UInt64)
  | send (id : UInt64) (msg : UserMemory) (len : Int64) (memory : Memory)
  | recv (id : UInt64) (msg : UserMemory) (len : Int64)
  | aclAdd (id : UInt64) (pid : Int32) (memory : Bool)
  | aclRemove (id : UInt64) (pid : Int32)

/-- A call on the store, which walks over `mail` when its tests have passed. -/
def overMail (walks : Store → Bool) (act : Store → Except Fault (Reply × Store))
    (service : Service) : Except Trap (Reply × Service) :=
  if walks service.store && !service.linked then .error .poison
  else
    match act service.store with
    | .error fault => .error (.fault fault)
    | .ok (reply, store) => .ok (reply, { service with store := store })

def Syscall.perform (uid : UInt64) : Syscall → Service → Except Trap (Reply × Service)
  | .init ptrs prob => overMail (fun _ => false) (fun store => plain (mbx421Init uid ptrs prob store))
  | .shutdown => fun service =>
      match mbx421Shutdown uid service with
      | .error trap => .error trap
      | .ok (answer, next) => .ok ({ answer := answer, written := [], taken := none }, next)
  | .create id memory =>
      overMail (createChecks uid id) (fun store => plain (mbx421Create uid id memory store))
  | .destroy id => overMail (destroyChecks uid) (fun store => plain (mbx421Destroy uid id store))
  | .count id => overMail (fun _ => true) (fun store => plain (mbx421Count id store))
  | .length id => overMail (fun _ => true) (fun store => plain (mbx421Length id store))
  | .send id msg len memory =>
      overMail (sendChecks uid id len) (fun store => plain (mbx421Send uid id msg len memory store))
  | .recv id msg len => overMail (recvChecks uid id) (mbx421Recv uid id msg len)
  | .aclAdd id pid memory =>
      overMail (fun _ => aclChecks uid) (fun store => plain (mbx421AclAdd uid id pid memory store))
  | .aclRemove id pid =>
      overMail (fun _ => aclChecks uid) (fun store => plain (mbx421AclRemove uid id pid store))

abbrev MailCall := UInt64 × Syscall

def serve : Machine Service MailCall Reply Trap := fun call => call.2.perform call.1

end CS421.Mail
