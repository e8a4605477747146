/-
The mailbox store of project1.c.

The three kinds of list entries are modelled by their contents: the list `mail`
holds the mailboxes, and each mailbox holds its messages and its access list, in
list order. A search for a mailbox walks `mail` with a cursor that is read as
the mailbox it points into, in all the system calls alike.
-/

import CS421.Errno
import CS421.Keyed
import Mathlib.Algebra.Group.Int.Defs
import Mathlib.Algebra.Group.Nat.Defs

set_option autoImplicit false

namespace CS421.Mail

inductive Fault where
  /-- A store through the null pointer. -/
  | nullDereference
  /-- `list_first_entry` of an empty list: the entry that is unlinked and freed
  next lies around the list head. -/
  | emptyList
  /-- A store past the end of a block from `kmalloc`. -/
  | wildWrite
  deriving DecidableEq, Repr

/-- The fault has changed memory that the call was not given. The null page is
not mapped, so the store through the null pointer changes nothing. -/
def Fault.Damages : Fault → Prop
  | .nullDereference => False
  | .emptyList | .wildWrite => True

abbrev UserMemory := Nat → UInt8

/-- A `long` that has passed the test `len < 0` of the system call. -/
abbrev Len := { len : Int64 // 0 ≤ len }

def Len.size (len : Len) : Nat := len.1.toInt.toNat

/-- An outcome of `copy_from_user`: how many bytes it copied, and what the
buffer holds beyond them. -/
structure Copy where
  copied : Nat
  rest : Nat → UInt8

def copyFromUser (copy : Copy) (msg : UserMemory) (size : Nat) : List UInt8 :=
  (List.range size).map (fun index => if index < copy.copied then msg index else copy.rest index)

theorem copyFromUser_length (copy : Copy) (msg : UserMemory) (size : Nat) :
    (copyFromUser copy msg size).length = size := by
  rw [copyFromUser, List.length_map, List.length_range]

def callerBytes (msg : UserMemory) (size : Nat) : List UInt8 := (List.range size).map msg

theorem callerBytes_length (msg : UserMemory) (size : Nat) :
    (callerBytes msg size).length = size := by
  rw [callerBytes, List.length_map, List.length_range]

theorem copyFromUser_eq_iff (copy : Copy) (msg : UserMemory) (size : Nat) :
    copyFromUser copy msg size = callerBytes msg size ↔
      ∀ index, index < size → copy.copied ≤ index → copy.rest index = msg index := by
  unfold copyFromUser callerBytes
  rw [List.map_inj_left]
  constructor
  · intro same index within beyond
    have here := same index (List.mem_range.mpr within)
    rw [if_neg (Nat.not_lt.mpr beyond)] at here
    exact here
  · intro same index member
    by_cases covered : index < copy.copied
    · rw [if_pos covered]
    · rw [if_neg covered]
      exact same index (List.mem_range.mp member) (Nat.not_lt.mp covered)

theorem Len.toUInt64_toNat (len : Len) : len.1.toUInt64.toNat = len.size := by
  have nonneg : 0 ≤ len.1.toInt := by
    simpa [Int64.le_iff_toInt_le] using len.2
  have read : len.1.toInt = (len.1.toUInt64.toNat : Int).bmod (2 ^ 64) :=
    BitVec.toInt_eq_toNat_bmod len.1.toBitVec
  have below : len.1.toUInt64.toNat < 2 ^ 64 := UInt64.toNat_lt len.1.toUInt64
  rw [Int.bmod_def] at read
  unfold Len.size
  omega

theorem Len.size_lt (len : Len) : len.size < 2 ^ 63 := by
  have top : len.1.toInt < 2 ^ 63 := Int64.toInt_lt len.1
  unfold Len.size
  omega

/-! ### The store -/

/-- A message with the buffer that was allocated for it. Its length was a
nonnegative `long`. -/
structure Message where
  msg : List UInt8
  length : UInt64
  sized : length.toNat = msg.length
  small : length.toNat < 2 ^ 63
  deriving DecidableEq

def Message.sent (copy : Copy) (msg : UserMemory) (len : Len) : Message :=
  { msg := copyFromUser copy msg len.size
    length := len.1.toUInt64
    sized := by rw [len.toUInt64_toNat, copyFromUser_length]
    small := by rw [len.toUInt64_toNat]; exact len.size_lt }

structure Mailbox where
  aclC : Bool
  id : UInt64
  count : UInt64
  messages : List Message
  acl : List Int32
  deriving DecidableEq

/-- The globals `MAILBOXC` and `mail`. -/
structure Store where
  mailboxC : Int32
  mail : List Mailbox
  deriving DecidableEq

def MAXID : UInt64 := 4611690000000000000

def Store.find (store : Store) (id : UInt64) : Option Mailbox :=
  Keyed.first Mailbox.id id store.mail

/-- The loop over `mail` that acts on the mailbox with the id. -/
def Store.search {Answer : Type} (store : Store) (id : UInt64) (missing : Answer)
    (act : Mailbox → Except Fault (Answer × List Mailbox)) : Except Fault (Answer × Store) :=
  match Keyed.onFirst Mailbox.id id missing act store.mail with
  | .error fault => .error fault
  | .ok (answer, mail) => .ok (answer, { store with mail := mail })

end CS421.Mail
