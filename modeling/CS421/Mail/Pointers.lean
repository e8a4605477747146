/-
The mailbox service in memory: the system calls of project1.c on the circular
lists that `mail`, each mailbox, its messages and its access list are linked by.

Memory is one heap of list heads, and beside it the other fields of each kind of
structure under the address of the structure; the blocks that `kmalloc` gives do
not overlap. An address is that of the structure, and its list heads lie at the
offsets of the source. The scan of create is read as a walk over `mail`, and that
of acl_add as one over the access list; what is only logged is left out.
-/

import CS421.Mail.Teardown
import CS421.Walks

set_option autoImplicit false

namespace CS421.Mail.Pointers

open Rings

structure Box where
  aclC : Bool
  id : UInt64
  count : UInt64

structure Ram where
  mailboxC : Int32
  links : Heap Address
  boxes : Address → Box
  messages : Address → Message
  acls : Address → Int32

/-- `&msg->list_node`, after a pointer and a length. -/
def messageNode (msg : Address) : Address := msg + 16

/-- `list_entry(temp, message, list_node)` -/
def messageEntry (temp : Address) : Address := temp - 16

/-- `&acl->list_node`, after a pid. -/
def aclNode (acl : Address) : Address := acl + 8

/-- `list_entry(temp, acl_list, list_node)` -/
def aclEntry (temp : Address) : Address := temp - 8

def boxHeads (box : Address) : List Address := [listNode box, messagesHead box, aclHead box]

structure Block where
  address : Address
  held : Links Address

structure BoxBlock extends Block where
  aclC : Bool

/-- A block for a message, with its size. -/
structure MessageBlock extends Block where
  room : Room

def MessageBlock.heads (block : MessageBlock) : List Address :=
  if block.room.1 < messageSize then [] else [messageNode block.address]

theorem MessageBlock.heads_whole {block : MessageBlock} (whole : ¬ block.room.1 < messageSize) :
    block.heads = [messageNode block.address] := if_neg whole

theorem MessageBlock.heads_short {block : MessageBlock} (short : block.room.1 < messageSize) :
    block.heads = [] := if_pos short

namespace Ram

def kmalloc (heads : List Address) (held : Links Address) (ram : Ram) : Ram :=
  { ram with links := fun address => if address ∈ heads then some held else ram.links address }

def kfree (heads : List Address) (ram : Ram) : Ram :=
  { ram with links := fun address => if address ∈ heads then none else ram.links address }

/-- A list operation. It faults where it reads or writes outside the heap. -/
def relink (edit : Heap Address → Option (Heap Address)) (ram : Ram) : Except Crash Ram :=
  match edit ram.links with
  | none => .error .fault
  | some links => .ok { ram with links := links }

def setBox (box : Address) (fields : Box) (ram : Ram) : Ram :=
  { ram with boxes := Function.update ram.boxes box fields }

def setMessage (msg : Address) (message : Message) (ram : Ram) : Ram :=
  { ram with messages := Function.update ram.messages msg message }

def setAcl (acl : Address) (pid : Int32) (ram : Ram) : Ram :=
  { ram with acls := Function.update ram.acls acl pid }

theorem relink_some {edit : Heap Address → Option (Heap Address)} {ram : Ram}
    {links : Heap Address} (edited : edit ram.links = some links) :
    ram.relink edit = .ok { ram with links := links } := by
  rw [relink, edited]

section Fields

variable {ram : Ram}

theorem kmalloc_head {heads : List Address} {head : Address} (member : head ∈ heads)
    (held : Links Address) : (ram.kmalloc heads held).links head = some held := if_pos member

theorem kmalloc_other {heads : List Address} {node : Address} (outside : node ∉ heads)
    (held : Links Address) : (ram.kmalloc heads held).links node = ram.links node := if_neg outside

theorem setBox_self (box : Address) (fields : Box) : (ram.setBox box fields).boxes box = fields := by
  simp [setBox]

theorem setBox_other {box other : Address} (apart : other ≠ box) (fields : Box) :
    (ram.setBox box fields).boxes other = ram.boxes other := by
  simp [setBox, apart]

theorem setMessage_self (msg : Address) (message : Message) :
    (ram.setMessage msg message).messages msg = message := by
  simp [setMessage]

theorem setMessage_other {msg other : Address} (apart : other ≠ msg) (message : Message) :
    (ram.setMessage msg message).messages other = ram.messages other := by
  simp [setMessage, apart]

theorem setAcl_self (acl : Address) (pid : Int32) : (ram.setAcl acl pid).acls acl = pid := by
  simp [setAcl]

theorem setAcl_other {acl other : Address} (apart : other ≠ acl) (pid : Int32) :
    (ram.setAcl acl pid).acls other = ram.acls other := by
  simp [setAcl, apart]

end Fields

/-- A walk over a list. It ends within as many turns as there are addresses, or
it comes back to an entry and never ends. -/
def forEach {Carry Result : Type} (ram : Ram) (head : Address)
    (visit : Address → Loops.Body Carry Result Crash) (ends : Carry → Result) (carry : Carry) :
    Except Crash Result :=
  walk ram.links head visit ends .fault (2 ^ 64) .running carry

/-- The walk over `mail` up to the mailbox with the id. `list_for_each_safe`
reads the next pointer before the visit, which leaves it as it is. -/
def find (mail : Address) (id : UInt64) (ram : Ram) : Except Crash (Option Address) :=
  ram.forEach mail
    (fun temp _ =>
      let box := listEntry temp
      if (ram.boxes box).id = id then .done (some box) else .again ())
    (fun _ => none) ()

def search {Answer : Type} (mail : Address) (id : UInt64) (missing : Answer)
    (act : Address → Ram → Except Crash (Answer × Ram)) (ram : Ram) : Except Crash (Answer × Ram) := do
  match ← ram.find mail id with
  | none => return (missing, ram)
  | some box => act box ram

def findAcl (head : Address) (pid : Int32) (ram : Ram) : Except Crash (Option Address) :=
  ram.forEach head
    (fun temp _ =>
      let cacl := aclEntry temp
      if ram.acls cacl = pid then .done (some cacl) else .again ())
    (fun _ => none) ()

end Ram

abbrev Outcome := Except Crash (Int64 × Ram)

section Syscalls

-- What `list_del` leaves in an entry, and `&mail`.
variable (poison : Links Address) (mail : Address)

def mbx421Init (uid : UInt64) (ptrs prob : UInt32) (ram : Ram) : Outcome :=
  if ram.mailboxC != 0 then .ok (-EEXIST, ram)
  else if uid != 0 then .ok (-EPERM, ram)
  else if decide (ptrs ≤ 0) then .ok (-EINVAL, ram)
  else if prob != 2 || prob != 4 || prob != 8 || prob != 16 then .ok (-EINVAL, ram)
  else .ok (0, { ram with mailboxC := ram.mailboxC + 1 })

def mbx421Shutdown (uid : UInt64) (ram : Ram) : Outcome :=
  if uid != 0 then .ok (-EPERM, ram)
  else
    match shutdownWalk poison mail (2 ^ 64) ram.links with
    | .error crash => .error crash
    | .ok walk => .ok (0, { ram with links := walk.heap, mailboxC := 0 })

/-- Lines 237 to 246: nothing when the id is there, and else what `box` is after
the scan, which is NULL when no mailbox was visited. -/
def scan (id : UInt64) (ram : Ram) : Except Crash (Option Address) :=
  ram.forEach mail
    (fun temp _ =>
      let box := listEntry temp
      if (ram.boxes box).id = id then .done none else .again box)
    some 0

/-- Lines 248 to 263, for a `box` that is NULL or not. -/
def createUnlisted (id : UInt64) (memory : Option BoxBlock) (box : Address) (ram : Ram) : Outcome :=
  match memory with
  | none => if box == 0 then .ok (-ENOMEM, ram) else .error .fault
  | some boxN => do
      let ram := ram.kmalloc (boxHeads boxN.address) boxN.held
      -- The test reads `box`, and not `boxN`.
      if box == 0 then return (-ENOMEM, ram)
      let ram := ram.setBox boxN.address { aclC := boxN.aclC, id := id, count := 0 }
      let ram ← ram.relink (listAddTail (listNode boxN.address) mail)
      let ram ← ram.relink (initListHead (messagesHead boxN.address))
      let ram ← ram.relink (initListHead (aclHead boxN.address))
      return (0, ram)

def mbx421Create (uid id : UInt64) (memory : Option BoxBlock) (ram : Ram) : Outcome :=
  if ram.mailboxC == 0 then .ok (-ENOENT, ram)
  else if id == 0 || decide (id < MAXID) then .ok (-EFAULT, ram)
  else if uid != 0 then .ok (-EPERM, ram)
  else do
    match ← scan mail id ram with
    | none => return (-EEXIST, ram)
    | some box => createUnlisted mail id memory box ram

def destroyFound (box : Address) (ram : Ram) : Outcome :=
  if (ram.boxes box).count > 0 then .ok (-EINVAL, ram)
  else do
    let ram ← ram.relink (listDel poison (listNode box))
    return (0, ram.kfree (boxHeads box))

def mbx421Destroy (uid id : UInt64) (ram : Ram) : Outcome :=
  if ram.mailboxC == 0 then .ok (-ENOENT, ram)
  else if uid != 0 then .ok (-EPERM, ram)
  else ram.search mail id (-ENOENT) (destroyFound poison)

def mbx421Count (id : UInt64) (ram : Ram) : Outcome :=
  ram.search mail id (-EEXIST) (fun _ ram => .ok (0, ram))

/-- The body of the loop of `mbx421_length`. -/
def lengthVisit (ram : Ram) (temp : Address) : Loops.Body Unit Int64 Crash := fun _ =>
  let box := listEntry temp
  if (ram.boxes box).count == 0 then .done (-EINVAL)
  else
    -- `list_first_entry_or_null`
    match ram.links (messagesHead box) with
    | none => .stop .fault
    | some links => if links.next = messagesHead box then .done (-EINVAL) else .again ()

def mbx421Length (_id : UInt64) (ram : Ram) : Outcome := do
  let answer ← ram.forEach mail (lengthVisit ram) (fun _ => 0) ()
  return (answer, ram)

/-- Lines 429 to 451. -/
def sendFound (msg : UserMemory) (len : Len) (node : Option MessageBlock) (buffer : Bool)
    (copy : Copy) (box : Address) (ram : Ram) : Outcome :=
  let fields := ram.boxes box
  let ram := ram.setBox box { fields with count := fields.count + 1 }
  match node with
  | none => .ok (-ENOMEM, ram)
  | some msgS =>
      let ram := ram.kmalloc msgS.heads msgS.held
      if !buffer then .ok (-ENOMEM, ram)
      else if msgS.room.1 < messageSize then .error .fault
      else do
        let ram := ram.setMessage msgS.address (Message.sent copy msg len)
        let ram ← ram.relink (listAddTail (messageNode msgS.address) (messagesHead box))
        return (0, ram)

def mbx421Send (uid id : UInt64) (msg : UserMemory) (len : Int64) (node : Option MessageBlock)
    (buffer : Bool) (copy : Copy) (ram : Ram) : Outcome :=
  if ram.mailboxC == 0 then .ok (-ENOENT, ram)
  else if id == 0 || decide (id < MAXID) then .ok (-EFAULT, ram)
  else if uid != id then .ok (-EPERM, ram)
  else if nonneg : 0 ≤ len then
    ram.search mail id (-ENOENT) (sendFound msg ⟨len, nonneg⟩ node buffer copy)
  else .ok (-EINVAL, ram)

def refusal (errno : Int64) : Reply := { answer := -errno, written := [], taken := none }

/-- Lines 486 to 498. `list_first_entry` takes the list to hold an entry. -/
def recvFound (box : Address) (ram : Ram) : Except Crash (Reply × Ram) :=
  if (ram.boxes box).count == 0 then .ok (refusal ESRCH, ram)
  else
    match ram.links (messagesHead box) with
    | none => .error .fault
    | some links => do
        let msgR := ram.messages (messageEntry links.next)
        let ram ← ram.relink (listDel poison links.next)
        return ({ answer := msgR.length.toInt64, written := [], taken := some msgR },
          ram.kfree [links.next])

def mbx421Recv (uid id : UInt64) (ram : Ram) : Except Crash (Reply × Ram) :=
  if ram.mailboxC == 0 then .ok (refusal ENOENT, ram)
  else if id == 0 || decide (id < MAXID) then .ok (refusal EFAULT, ram)
  else if uid != id then .ok (refusal EPERM, ram)
  else ram.search mail id (refusal ENOENT) (recvFound poison)

def aclAddFound (pid : Int32) (memory : Option Block) (box : Address) (ram : Ram) : Outcome := do
  match ← ram.findAcl (aclHead box) pid with
  | some _ => return (-EINVAL, ram)
  | none =>
      let ram := ram.setBox box { ram.boxes box with aclC := true }
      match memory with
      | none => return (-ENOMEM, ram)
      | some cacl =>
          let ram := ram.kmalloc [aclNode cacl.address] cacl.held
          let ram := ram.setAcl cacl.address pid
          let ram ← ram.relink (listAddTail (aclNode cacl.address) (aclHead box))
          return (0, ram)

def mbx421AclAdd (uid id : UInt64) (pid : Int32) (memory : Option Block) (ram : Ram) : Outcome :=
  if uid != 0 then .ok (-EPERM, ram)
  else ram.search mail id (-EINVAL) (aclAddFound pid memory)

def aclRemoveFound (pid : Int32) (box : Address) (ram : Ram) : Outcome := do
  match ← ram.findAcl (aclHead box) pid with
  | none => return (-EINVAL, ram)
  | some cacl =>
      let ram ← ram.relink (listDel poison (aclNode cacl))
      return (0, ram.kfree [aclNode cacl])

def mbx421AclRemove (uid id : UInt64) (pid : Int32) (ram : Ram) : Outcome :=
  if uid != 0 then .ok (-EPERM, ram)
  else ram.search mail id (-EINVAL) (aclRemoveFound poison pid)

/-! ### Calls -/

/-- A system call with what the allocations it makes come to. -/
inductive Call where
  | init (ptrs prob : UInt32)
  | shutdown
  | create (id : UInt64) (memory : Option BoxBlock)
  | destroy (id : UInt64)
  | count (id : UInt64)
  | length (id : UInt64)
  | send (id : UInt64) (msg : UserMemory) (len : Int64) (node : Option MessageBlock) (buffer : Bool)
      (copy : Copy)
  | recv (id : UInt64) (msg : UserMemory) (len : Int64)
  | aclAdd (id : UInt64) (pid : Int32) (memory : Option Block)
  | aclRemove (id : UInt64) (pid : Int32)

def plain (outcome : Outcome) : Except Crash (Reply × Ram) := do
  let (answer, ram) ← outcome
  return ({ answer := answer, written := [], taken := none }, ram)

def Call.perform (uid : UInt64) : Call → Ram → Except Crash (Reply × Ram)
  | .init ptrs prob, ram => plain (mbx421Init uid ptrs prob ram)
  | .shutdown, ram => plain (mbx421Shutdown poison mail uid ram)
  | .create id memory, ram => plain (mbx421Create mail uid id memory ram)
  | .destroy id, ram => plain (mbx421Destroy poison mail uid id ram)
  | .count id, ram => plain (mbx421Count mail id ram)
  | .length id, ram => plain (mbx421Length mail id ram)
  | .send id msg len node buffer copy, ram => plain (mbx421Send mail uid id msg len node buffer copy ram)
  | .recv id _ _, ram => mbx421Recv poison mail uid id ram
  | .aclAdd id pid memory, ram => plain (mbx421AclAdd mail uid id pid memory ram)
  | .aclRemove id pid, ram => plain (mbx421AclRemove poison mail uid id pid ram)

end Syscalls

def Call.contents : Call → Syscall
  | .init ptrs prob => .init ptrs prob
  | .shutdown => .shutdown
  | .create id memory => .create id (memory.map BoxBlock.aclC)
  | .destroy id => .destroy id
  | .count id => .count id
  | .length id => .length id
  | .send id msg len node buffer copy =>
      .send id msg len { node := node.map MessageBlock.room, buffer := buffer, copy := copy }
  | .recv id msg len => .recv id msg len
  | .aclAdd id pid memory => .aclAdd id pid memory.isSome
  | .aclRemove id pid => .aclRemove id pid

def Call.Given (ram : Ram) : Call → Prop
  | .create _ (some boxN) =>
      boxN.address ≠ 0 ∧ ∀ head ∈ boxHeads boxN.address, ram.links head = none
  | .send _ _ _ (some msgS) _ _ => ∀ head ∈ msgS.heads, ram.links head = none
  | .aclAdd _ _ (some cacl) => ram.links (aclNode cacl.address) = none
  | _ => True

end CS421.Mail.Pointers
