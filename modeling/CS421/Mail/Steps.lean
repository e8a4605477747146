/-
The system calls of project1.c that users make, one access to memory at a time.

`mbx421_count`, `mbx421_send` and `mbx421_recv` take no lock, so between any two
accesses other calls may make theirs. Each read and each write of a pointer or of
another field is an access, in the order of the source; `kmalloc`, `kfree` and the
filling of a message that no list holds yet are one each. With no other call
beside it, a call does what the calls on memory do.
-/

import CS421.Mail.Pointers
import CS421.Threads

set_option autoImplicit false

namespace CS421.Mail.Pointers

open Rings Threads Threads.Program

abbrev Steps (Result : Type) := Program Ram Crash Result

def fetch {Value : Type} (read : Ram → Value) : Steps Value := load fun ram => .ok (read ram)

def assign (write : Ram → Ram) : Steps Unit := store fun ram => .ok (write ram)

def follow (pointer : Links Address → Address) (node : Address) : Steps Address :=
  load fun ram =>
    match ram.links node with
    | none => .error .fault
    | some links => .ok (pointer links)

def change (node : Address) (edit : Links Address → Links Address) : Steps Unit :=
  store (Ram.relink fun heap => heap.change node edit)

def setCount (box : Address) (count : UInt64) (ram : Ram) : Ram :=
  ram.setBox box { ram.boxes box with count := count }

/-- `kmalloc` waits until the block that it gives is not in use. -/
def kmallocSteps (heads : List Address) (held : Links Address) : Steps Unit :=
  await (fun ram => heads.all fun head => (ram.links head).isNone)
    fun ram => .ok (ram.kmalloc heads held)

def listAddTailSteps (entry head : Address) : Steps Unit :=
  (follow Links.prev head).bind fun last =>
  (change head fun links => { links with prev := entry }).bind fun _ =>
  (change entry fun links => { links with next := head }).bind fun _ =>
  (change entry fun links => { links with prev := last }).bind fun _ =>
  change last fun links => { links with next := entry }

def listDelSteps (poison : Links Address) (entry : Address) : Steps Unit :=
  (follow Links.next entry).bind fun next =>
  (follow Links.prev entry).bind fun prev =>
  (change next fun links => { links with prev := prev }).bind fun _ =>
  (change prev fun links => { links with next := next }).bind fun _ =>
  (change entry fun links => { links with next := poison.next }).bind fun _ =>
  change entry fun links => { links with prev := poison.prev }

/-- `list_for_each` from an entry on, up to the mailbox with the id. -/
def findSteps (mail : Address) (id : UInt64) : Nat → Address → Steps (Option Address)
  | 0, _ => .stop .running
  | turns + 1, temp =>
      if temp = mail then .done none
      else
        (fetch fun ram => (ram.boxes (listEntry temp)).id).bind fun boxId =>
          if boxId = id then .done (some (listEntry temp))
          else (follow Links.next temp).bind (findSteps mail id turns)

def searchSteps {Answer : Type} (mail : Address) (id : UInt64) (missing : Answer)
    (act : Address → Steps Answer) : Steps Answer :=
  (follow Links.next mail).bind fun temp =>
  (findSteps mail id (2 ^ 64) temp).bind fun found =>
    match found with
    | none => .done missing
    | some box => act box

/-! ### Calls -/

section Calls

-- What `list_del` leaves in an entry, and `&mail`.
variable (poison : Links Address) (mail : Address)

def mbx421CountSteps (id : UInt64) : Steps Int64 :=
  searchSteps mail id (-EEXIST) fun _ => .done 0

/-- Lines 429 to 451. -/
def sendFoundSteps (msg : UserMemory) (len : Len) (node : Option MessageBlock) (buffer : Bool)
    (copy : Copy) (box : Address) : Steps Int64 :=
  (fetch fun ram => (ram.boxes box).count).bind fun count =>
  (assign (setCount box (count + 1))).bind fun _ =>
    match node with
    | none => .done (-ENOMEM)
    | some msgS =>
        (kmallocSteps msgS.heads msgS.held).bind fun _ =>
          if !buffer then .done (-ENOMEM)
          else if msgS.room.1 < messageSize then .stop .fault
          else
            (assign (Ram.setMessage msgS.address (Message.sent copy msg len))).bind fun _ =>
            (listAddTailSteps (messageNode msgS.address) (messagesHead box)).bind fun _ =>
            .done 0

def mbx421SendSteps (uid id : UInt64) (msg : UserMemory) (len : Int64) (node : Option MessageBlock)
    (buffer : Bool) (copy : Copy) : Steps Int64 :=
  (fetch Ram.mailboxC).bind fun mailboxC =>
    if mailboxC == 0 then .done (-ENOENT)
    else if id == 0 || decide (id < MAXID) then .done (-EFAULT)
    else if uid != id then .done (-EPERM)
    else if nonneg : 0 ≤ len then
      searchSteps mail id (-ENOENT) (sendFoundSteps msg ⟨len, nonneg⟩ node buffer copy)
    else .done (-EINVAL)

/-- Lines 486 to 498. -/
def recvFoundSteps (box : Address) : Steps Reply :=
  (fetch fun ram => (ram.boxes box).count).bind fun count =>
    if count == 0 then .done (refusal ESRCH)
    else
      (follow Links.next (messagesHead box)).bind fun first =>
      (fetch fun ram => ram.messages (messageEntry first)).bind fun msgR =>
      (listDelSteps poison first).bind fun _ =>
      (assign (Ram.kfree [first])).bind fun _ =>
      .done { answer := msgR.length.toInt64, written := [], taken := some msgR }

def mbx421RecvSteps (uid id : UInt64) : Steps Reply :=
  (fetch Ram.mailboxC).bind fun mailboxC =>
    if mailboxC == 0 then .done (refusal ENOENT)
    else if id == 0 || decide (id < MAXID) then .done (refusal EFAULT)
    else if uid != id then .done (refusal EPERM)
    else searchSteps mail id (refusal ENOENT) (recvFoundSteps poison)

/-- The calls that users make, but for `mbx421_length`, which reads every mailbox. -/
inductive UserCall where
  | count (id : UInt64)
  | send (id : UInt64) (msg : UserMemory) (len : Int64) (node : Option MessageBlock) (buffer : Bool)
      (copy : Copy)
  | recv (id : UInt64) (msg : UserMemory) (len : Int64)

def UserCall.call : UserCall → Call
  | .count id => .count id
  | .send id msg len node buffer copy => .send id msg len node buffer copy
  | .recv id msg len => .recv id msg len

def plainSteps (steps : Steps Int64) : Steps Reply :=
  steps.bind fun answer => .done { answer := answer, written := [], taken := none }

def UserCall.steps (uid : UInt64) : UserCall → Steps Reply
  | .count id => plainSteps (mbx421CountSteps mail id)
  | .send id msg len node buffer copy =>
      plainSteps (mbx421SendSteps mail uid id msg len node buffer copy)
  | .recv id _ _ => mbx421RecvSteps poison mail uid id

end Calls

section Alone

variable {poison : Links Address} {mail : Address} {ram : Ram}

theorem alone_fetch {Value : Type} (read : Ram → Value) :
    (fetch read).alone ram = .ok (read ram, ram) := alone_load _

theorem alone_assign (write : Ram → Ram) : (assign write).alone ram = .ok ((), write ram) :=
  alone_store _

theorem alone_follow (pointer : Links Address → Address) (node : Address) :
    (follow pointer node).alone ram =
      match ram.links node with
      | none => .error .fault
      | some links => .ok (pointer links, ram) := by
  rw [follow, alone_load]
  cases ram.links node with
  | none => rfl
  | some links => rfl

theorem alone_kmalloc (heads : List Address) (held : Links Address) :
    (kmallocSteps heads held).alone ram = .ok ((), ram.kmalloc heads held) := alone_await _ _

theorem alone_change (node : Address) (edit : Links Address → Links Address) :
    (change node edit).alone ram =
      match ram.links.change node edit with
      | none => .error .fault
      | some links => .ok ((), { ram with links := links }) := by
  rw [change, alone_store, Ram.relink]
  cases ram.links.change node edit with
  | none => rfl
  | some links => rfl

theorem alone_change_bind {Result : Type} (node : Address) (edit : Links Address → Links Address)
    (rest : Steps Result) :
    ((change node edit).bind fun _ => rest).alone ram =
      match ram.links.change node edit with
      | none => .error .fault
      | some links => rest.alone { ram with links := links } := by
  rw [alone_bind, alone_change]
  cases ram.links.change node edit with
  | none => rfl
  | some links => rfl

theorem change_change {heap after : Heap Address} {node : Address}
    {first second : Links Address → Links Address} (changed : heap.change node first = some after) :
    after.change node second = heap.change node (fun links => second (first links)) := by
  unfold Heap.change at changed ⊢
  cases held : heap node with
  | none =>
      rw [held] at changed
      cases changed
  | some links =>
      rw [held] at changed
      cases changed
      dsimp only
      rw [Function.update_self]
      dsimp only
      rw [Function.update_idem]

theorem change_none {heap : Heap Address} {node : Address}
    {first second : Links Address → Links Address} (absent : heap.change node first = none) :
    heap.change node second = none := by
  unfold Heap.change at absent ⊢
  cases held : heap node with
  | none => rfl
  | some links =>
      rw [held] at absent
      cases absent

theorem alone_listAddTail (entry head : Address) :
    (listAddTailSteps entry head).alone ram =
      (ram.relink (listAddTail entry head)).map fun after => ((), after) := by
  rw [listAddTailSteps, alone_bind, alone_follow, Ram.relink, listAddTail]
  cases ram.links head with
  | none => rfl
  | some links =>
      dsimp only [listAdd, Bind.bind, Except.bind, Option.bind]
      rw [alone_change_bind]
      cases ram.links.change head _ with
      | none => rfl
      | some heap =>
          dsimp only
          rw [alone_change_bind]
          cases changed : heap.change entry _ with
          | none =>
              rw [change_none changed]
              rfl
          | some after =>
              dsimp only
              rw [alone_change_bind, change_change changed]
              dsimp only
              cases heap.change entry _ with
              | none => rfl
              | some last =>
                  dsimp only
                  rw [alone_change]
                  cases last.change links.prev _ with
                  | none => rfl
                  | some whole => rfl

theorem alone_listDel (poison : Links Address) (entry : Address) :
    (listDelSteps poison entry).alone ram =
      (ram.relink (listDel poison entry)).map fun after => ((), after) := by
  rw [listDelSteps, alone_bind, alone_follow, Ram.relink, listDel]
  cases held : ram.links entry with
  | none => rfl
  | some links =>
      dsimp only [Bind.bind, Except.bind]
      rw [alone_bind, alone_follow, held]
      dsimp only [Bind.bind, Except.bind]
      rw [alone_change_bind]
      cases ram.links.change links.next _ with
      | none => rfl
      | some first =>
          dsimp only
          rw [alone_change_bind]
          cases first.change links.prev _ with
          | none => rfl
          | some second =>
              dsimp only
              rw [alone_change_bind]
              cases changed : second.change entry _ with
              | none =>
                  rw [change_none changed]
                  rfl
              | some after =>
                  dsimp only
                  rw [alone_change, change_change changed]
                  cases second.change entry _ with
                  | none => rfl
                  | some whole => rfl

theorem alone_find (id : UInt64) (turns : Nat) (temp : Address) :
    (findSteps mail id turns temp).alone ram =
      ((Loops.run (forEach ram.links mail
          (fun temp (_ : Unit) =>
            if (ram.boxes (listEntry temp)).id = id then .done (some (listEntry temp)) else .again ())
          (fun _ => none) .fault) turns (temp, ())).getD (.error .running)).map
        fun found => (found, ram) := by
  induction turns generalizing temp with
  | zero => rfl
  | succ turns ih =>
      rw [findSteps, Loops.run, forEach]
      by_cases ended : temp = mail
      · rw [if_pos ended, if_pos ended]
        rfl
      · rw [if_neg ended, if_neg ended, alone_bind, alone_fetch]
        dsimp only [Bind.bind, Except.bind]
        by_cases found : (ram.boxes (listEntry temp)).id = id
        · rw [if_pos found, if_pos found]
          rfl
        · rw [if_neg found, if_neg found, alone_bind, alone_follow]
          dsimp only
          cases ram.links temp with
          | none => rfl
          | some links => exact ih links.next

theorem alone_search {Answer : Type} {id : UInt64} {missing : Answer}
    {steps : Address → Steps Answer} {act : Address → Ram → Except Crash (Answer × Ram)}
    (same : ∀ box ram, (steps box).alone ram = act box ram) :
    (searchSteps mail id missing steps).alone ram = ram.search mail id missing act := by
  rw [searchSteps, alone_bind, alone_follow, Ram.search, Ram.find, Ram.forEach, walk]
  cases ram.links mail with
  | none => rfl
  | some links =>
      dsimp only [Bind.bind, Except.bind]
      rw [alone_bind, alone_find]
      cases Option.getD _ _ with
      | error crash => rfl
      | ok found =>
          cases found with
          | none => rfl
          | some box => exact same box ram

theorem alone_answer {Answer : Type} (answer : Answer) (outcome : Except Crash Ram) :
    ((outcome.map fun after => ((), after)) >>= fun out => (Program.done answer : Steps Answer).alone out.2) =
      outcome >>= fun ram => pure (answer, ram) := by
  cases outcome with
  | error crash => rfl
  | ok after => rfl

theorem alone_sendFound (msg : UserMemory) (len : Len) (node : Option MessageBlock) (buffer : Bool)
    (copy : Copy) (box : Address) (ram : Ram) :
    (sendFoundSteps msg len node buffer copy box).alone ram =
      sendFound msg len node buffer copy box ram := by
  unfold sendFoundSteps
  rw [alone_bind, alone_fetch]
  dsimp only [Bind.bind, Except.bind]
  rw [alone_bind, alone_assign]
  dsimp only [Bind.bind, Except.bind]
  cases node with
  | none => rfl
  | some msgS =>
      dsimp only
      rw [alone_bind, alone_kmalloc]
      dsimp only [Bind.bind, Except.bind]
      cases buffer with
      | false => rfl
      | true =>
          unfold sendFound
          dsimp only
          rw [Bool.not_true, if_neg Bool.false_ne_true, if_neg Bool.false_ne_true]
          by_cases short : msgS.room.1 < messageSize
          · rw [if_pos short, if_pos short]
            rfl
          rw [if_neg short, if_neg short, msgS.heads_whole short, alone_bind, alone_assign]
          dsimp only [Bind.bind, Except.bind]
          rw [alone_bind, alone_listAddTail]
          exact alone_answer 0 _

theorem alone_recvFound (box : Address) (ram : Ram) :
    (recvFoundSteps poison box).alone ram = recvFound poison box ram := by
  rw [recvFoundSteps, alone_bind, alone_fetch, recvFound]
  dsimp only [Bind.bind, Except.bind]
  by_cases empty : (ram.boxes box).count == 0
  · rw [if_pos empty, if_pos empty]
    rfl
  · rw [if_neg empty, if_neg empty, alone_bind, alone_follow]
    cases ram.links (messagesHead box) with
    | none => rfl
    | some links =>
        dsimp only [Bind.bind, Except.bind]
        rw [alone_bind, alone_fetch]
        dsimp only [Bind.bind, Except.bind]
        rw [alone_bind, alone_listDel]
        cases Ram.relink _ _ with
        | error crash => rfl
        | ok after => rfl

/-- The steps of a call, one after the other, are the call on memory. -/
theorem alone_steps (uid : UInt64) (call : UserCall) :
    (call.steps poison mail uid).alone ram = call.call.perform poison mail uid ram := by
  have plain (steps : Steps Int64) (outcome : Outcome) (same : steps.alone ram = outcome) :
      (plainSteps steps).alone ram = plain outcome := by
    rw [plainSteps, alone_bind, same]
    rfl
  cases call with
  | count id =>
      apply plain
      apply alone_search
      intro box ram
      rfl
  | send id msg len node buffer copy =>
      apply plain
      rw [mbx421SendSteps, alone_bind, alone_fetch, mbx421Send]
      dsimp only [Bind.bind, Except.bind]
      by_cases stopped : ram.mailboxC == 0
      · rw [if_pos stopped, if_pos stopped]
        rfl
      rw [if_neg stopped, if_neg stopped]
      by_cases outside : id == 0 || decide (id < MAXID)
      · rw [if_pos outside, if_pos outside]
        rfl
      rw [if_neg outside, if_neg outside]
      by_cases stranger : uid != id
      · rw [if_pos stranger, if_pos stranger]
        rfl
      rw [if_neg stranger, if_neg stranger]
      by_cases nonneg : 0 ≤ len
      · rw [dif_pos nonneg, dif_pos nonneg]
        exact alone_search (alone_sendFound msg ⟨len, nonneg⟩ node buffer copy)
      · rw [dif_neg nonneg, dif_neg nonneg]
        rfl
  | recv id msg len =>
      rw [UserCall.steps, mbx421RecvSteps, alone_bind, alone_fetch, UserCall.call, Call.perform,
        mbx421Recv]
      dsimp only [Bind.bind, Except.bind]
      by_cases stopped : ram.mailboxC == 0
      · rw [if_pos stopped, if_pos stopped]
        rfl
      rw [if_neg stopped, if_neg stopped]
      by_cases outside : id == 0 || decide (id < MAXID)
      · rw [if_pos outside, if_pos outside]
        rfl
      rw [if_neg outside, if_neg outside]
      by_cases stranger : uid != id
      · rw [if_pos stranger, if_pos stranger]
        rfl
      rw [if_neg stranger, if_neg stranger]
      exact alone_search (alone_recvFound)

end Alone

end CS421.Mail.Pointers
