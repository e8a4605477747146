/-
What runs of sends and receives do to the message queues.

A send that returns 0 puts one message at the end of one queue, a receive that
finds a message takes the first one of one queue, and every other call leaves
all queues alone, also one that only moves a count.
-/

import CS421.Mail.Damage
import CS421.Queues

set_option autoImplicit false

namespace CS421.Mail

open Runs Keyed

def Store.queue (store : Store) (id : UInt64) : List Message :=
  match store.find id with
  | none => []
  | some box => box.messages

/-- What an answered call did to the queues, read off the call and its reply. -/
def moved : Body × Reply → Queues.Effect UInt64 Message
  | (.send id msg len memory, reply) =>
      if reply.answer = 0 then .put id (Message.sent memory.copy msg len) else .none
  | (.recv id _ _, reply) =>
      match reply.taken with
      | none => .none
      | some msgR => .take id msgR

theorem queue_of_find {store : Store} {id : UInt64} {box : Mailbox}
    (found : store.find id = some box) : store.queue id = box.messages := by
  rw [Store.queue, found]

theorem Replaced.queue_other {store next : Store} {box changed : Mailbox}
    (replaced : Replaced store box changed next) (id : UInt64) (apart : id ≠ changed.id) :
    next.queue id = store.queue id := by
  rw [Store.queue, replaced.other id apart, Store.queue]

theorem Replaced.queue_eq {store next : Store} {box changed : Mailbox}
    (replaced : Replaced store box changed next) (same : changed.messages = box.messages) :
    next.queue = store.queue := by
  funext id
  by_cases own : id = changed.id
  · rw [own, queue_of_find replaced.own, queue_of_find replaced.found, same]
  · exact replaced.queue_other id own

theorem moves_of_effect {store next : Store} {body : Body} {reply : Reply}
    (effect : Effect store next body reply) :
    Queues.Moves (moved (body, reply)) store.queue next.queue := by
  cases effect with
  | absent missing same =>
      subst next
      cases body with
      | send id msg len memory => exact .none _
      | recv id msg len => exact .none _
  | failed msg len memory fails replaced =>
      rw [replaced.queue_eq rfl]
      exact .none _
  | @sent box msg len memory succeeds fits replaced =>
      refine .put box.id _ ?_ (fun id apart => replaced.queue_other id apart)
      have before := queue_of_find replaced.found
      have after := queue_of_find replaced.own
      rw [after, before]
  | empty msg len zero replaced =>
      rw [replaced.queue_eq rfl]
      exact .none _
  | @received box msgR rest msg len nonzero oldest replaced =>
      refine .take box.id msgR ?_ (fun id apart => replaced.queue_other id apart)
      have before := queue_of_find replaced.found
      have after := queue_of_find replaced.own
      rw [after, before, oldest]

theorem moves_of_step {store next : Store} {body : Body} {reply : Reply}
    (ran : step body store = .ok (reply, next)) :
    Queues.Moves (moved (body, reply)) store.queue next.queue :=
  moves_of_effect (effect_of_step ran)

/-! ### Order of delivery -/

def movedLength : Body × Reply → Queues.Effect UInt64 Int64
  | (.send id _ len _, reply) => if reply.answer = 0 then .put id len.1 else .none
  | (.recv id _ _, reply) =>
      match reply.taken with
      | none => .none
      | some _ => .take id reply.answer

def sentLengths (id : UInt64) (log : Log) : List Int64 := Queues.entered movedLength id log

def returnedLengths (id : UInt64) (log : Log) : List Int64 := Queues.left movedLength id log

def Store.lengths (store : Store) (id : UInt64) : List Int64 :=
  (store.queue id).map (fun message => message.length.toInt64)

theorem movedLength_of_effect {store next : Store} {body : Body} {reply : Reply}
    (effect : Effect store next body reply) :
    movedLength (body, reply) =
      (moved (body, reply)).map (fun message => message.length.toInt64) := by
  cases effect with
  | absent missing same =>
      cases body with
      | send id msg len memory => rfl
      | recv id msg len => rfl
  | failed msg len memory fails replaced => rfl
  | sent msg len memory succeeds fits replaced => rfl
  | empty msg len zero replaced => rfl
  | received msg len nonzero oldest replaced => rfl

theorem lengths_of_step {store next : Store} {body : Body} {reply : Reply}
    (ran : step body store = .ok (reply, next)) :
    Queues.Moves (movedLength (body, reply)) store.lengths next.lengths := by
  rw [movedLength_of_effect (effect_of_step ran)]
  exact (moves_of_step ran).map (fun message => message.length.toInt64)

def InOrder (start : Store) (log : Log) (store : Store) : Prop :=
  ∀ id, returnedLengths id log ++ store.lengths id = start.lengths id ++ sentLengths id log

/-- A receive that finds a message and a count takes the oldest message. -/
def OldestFirst (store : Store) (body : Body) : Prop :=
  match body with
  | .send _ _ _ _ => True
  | .recv id msg len =>
      ∀ box msgR rest, store.find id = some box → box.messages = msgR :: rest → box.count ≠ 0 →
        ∃ next, step (.recv id msg len) store =
            .ok ({ answer := msgR.length.toInt64, written := [], taken := some msgR }, next) ∧
          Replaced store box { box with messages := rest } next

def LeavesOthers (store : Store) (body : Body) : Prop :=
  ∀ reply next, step body store = .ok (reply, next) →
    (∀ id, id ≠ body.id → next.find id = store.find id) ∧
      next.mail.map Mailbox.id = store.mail.map Mailbox.id

theorem oldestFirst (store : Store) (body : Body) : OldestFirst store body := by
  cases body with
  | send id msg len memory => exact trivial
  | recv id msg len =>
      intro box msgR rest looked queue nonzero
      obtain ⟨before, after, found⟩ := first_some_iff.mp looked
      have own : box.id = id := found.own
      subst id
      have acted : recvFound box =
          .ok ({ answer := msgR.length.toInt64, written := [], taken := some msgR },
            [{ box with messages := rest }]) := by
        rw [recvFound, if_neg (mt beq_iff_eq.mp nonzero), queue]
      exact ⟨_, search_found found acted, replaced_of_found found⟩

theorem leavesOthers (store : Store) (body : Body) : LeavesOthers store body := by
  intro reply next ran
  cases effect_of_step ran with
  | absent missing same =>
      subst next
      exact ⟨fun _ _ => rfl, rfl⟩
  | failed msg len memory fails replaced => exact ⟨replaced.other, replaced.ids⟩
  | sent msg len memory succeeds fits replaced => exact ⟨replaced.other, replaced.ids⟩
  | empty msg len zero replaced => exact ⟨replaced.other, replaced.ids⟩
  | received msg len nonzero oldest replaced => exact ⟨replaced.other, replaced.ids⟩

/-- Messages are returned in the order in which they were sent, none is lost or
returned twice, a receive takes the oldest one, and no call stores anywhere but
in its own mailbox. -/
structure DeliversInOrder (start : Store) (calls : List Body) : Prop where
  order : Always step start calls (InOrder start)
  oldest : EveryStep step start calls (fun _ store body => OldestFirst store body)
  others : EveryStep step start calls (fun _ store body => LeavesOthers store body)
  spared : Spares step start calls Fault.Damages

/-- A run from any store delivers in order exactly when none of its sends stores
past the end of a block and none of its receives takes the first entry of an
empty list. -/
theorem deliversInOrder_iff (start : Store) (calls : List Body) :
    DeliversInOrder start calls ↔
      EveryStep step start calls (fun _ store body => body.Contained store) := by
  have spares : Spares step start calls Fault.Damages ↔ _ :=
    spares_iff_everyStep body_spared_iff calls
  constructor
  · intro delivers
    exact spares.mp delivers.spared
  · intro contained
    refine ⟨?_, ?_, ?_, spares.mpr contained⟩
    · intro prior _ log store ran id
      exact Queues.conserved movedLength Store.lengths start
        (fun _ _ _ _ stepped => lengths_of_step stepped) ran id
    · intro prior body _ log store _
      exact oldestFirst store body
    · intro prior body _ log store _
      exact leavesOthers store body

def oneMailbox : Store :=
  { mailboxC := 1
    mail := [{ aclC := false, id := MAXID, count := 0, messages := [], acl := [] }] }

def Memory.asked (len : Len) : Memory :=
  { node := some .asked, buffer := true, copy := { copied := len.size, rest := fun _ => 0 } }

/-- The first send stores its length and its list node past the end of its
block. -/
theorem sends_overflow :
    ¬ DeliversInOrder oneMailbox
      [.send MAXID (fun _ => 7) ⟨3, by decide⟩ (.asked ⟨3, by decide⟩),
       .send MAXID (fun _ => 7) ⟨5, by decide⟩ (.asked ⟨5, by decide⟩),
       .recv MAXID (fun _ => 0) 8] := by
  intro delivers
  exact delivers.spared .wildWrite rfl trivial

/-! ### Round trips -/

def Body.Fits (store : Store) : Body → Prop
  | .send id _ _ memory => store.find id ≠ none → memory.Succeeds → memory.Fits
  | .recv _ _ _ => True

def Memory.whole (memory : Memory) : Memory :=
  { memory with node := memory.node.map (fun _ => .whole) }

/-- The call with a whole block for its message, if it gets one at all. -/
def Body.whole : Body → Body
  | .send id msg len memory => .send id msg len memory.whole
  | .recv id msg len => .recv id msg len

/-- A send, a run after it and a receive. Were every block for a message a whole
one, the send would return 0 and the receive would take its message. -/
structure Delivery where
  store : Store
  id : UInt64
  msg : UserMemory
  len : Len
  memory : Memory
  later : List Body
  buffer : UserMemory
  room : Len
  reply : Reply
  after : Store
  sent : step (.send id msg len memory.whole) store = .ok (reply, after)
  accepted : reply.answer = 0
  log : Log
  final : Store
  ran : exec step after (later.map Body.whole) = .ok (log, final)
  /-- As many messages have left the queue as were in it before the send. -/
  turn : (Queues.left moved id log).length = (store.queue id).length
  got : Reply
  last : Store
  received : step (.recv id buffer room.1) final = .ok (got, last)
  took : got.taken ≠ none

def Delivery.calls (delivery : Delivery) : List Body :=
  .send delivery.id delivery.msg delivery.len delivery.memory :: delivery.later

/-- What is left to the sender by the copy was there already. -/
def Delivery.Complete (delivery : Delivery) : Prop :=
  ∀ index, index < delivery.len.size → delivery.memory.copy.copied ≤ index →
    delivery.memory.copy.rest index = delivery.msg index

/-- With the blocks that it gets, the send returns 0 and stores the message as it
was sent, and the run goes on to the receive, which returns its length and writes
as much of it as the buffer has room for. -/
def Delivery.RoundTrip (delivery : Delivery) : Prop :=
  ∃ reply after log final got last,
    step (.send delivery.id delivery.msg delivery.len delivery.memory) delivery.store =
        .ok (reply, after) ∧
      exec step after delivery.later = .ok (log, final) ∧
      step (.recv delivery.id delivery.buffer delivery.room.1) final = .ok (got, last) ∧
      reply.answer = 0 ∧
      (after.queue delivery.id).getLast?.map Message.msg =
        some (callerBytes delivery.msg delivery.len.size) ∧
      got.answer.toInt = delivery.len.size ∧
      got.written = (callerBytes delivery.msg delivery.len.size).take delivery.room.size

theorem whole_fits (memory : Memory) : memory.whole.Fits := by
  intro room given
  obtain ⟨block, _, same⟩ := Option.map_eq_some_iff.mp given
  rw [← same]
  exact Nat.le_refl messageSize

theorem whole_succeeds_iff (memory : Memory) : memory.whole.Succeeds ↔ memory.Succeeds := by
  simp [Memory.Succeeds, Memory.whole]

theorem sendFound_whole {msg : UserMemory} {len : Len} {memory : Memory} {box : Mailbox}
    (fits : memory.Succeeds → memory.Fits) :
    sendFound msg len memory.whole box = sendFound msg len memory box := by
  by_cases succeeds : memory.Succeeds
  · rw [sendFound_sent succeeds (fits succeeds),
      sendFound_sent ((whole_succeeds_iff memory).mpr succeeds) (whole_fits memory)]
    rfl
  · rw [sendFound_failed succeeds, sendFound_failed (mt (whole_succeeds_iff memory).mp succeeds)]

theorem step_whole {store : Store} {body : Body} (fits : body.Fits store) :
    step body.whole store = step body store := by
  cases body with
  | recv id msg len => rfl
  | send id msg len memory =>
      change plain (sendLoop id msg len memory.whole store) = plain (sendLoop id msg len memory store)
      congr 1
      cases looked : store.find id with
      | none =>
          unfold sendLoop Store.search
          rw [onFirst_of_none looked, onFirst_of_none looked]
      | some box =>
          have fitting := fits (looked ▸ Option.some_ne_none box)
          obtain ⟨before, after, found⟩ := first_some_iff.mp looked
          unfold sendLoop Store.search
          rw [onFirst_of_found found, onFirst_of_found found, sendFound_whole fitting]

theorem find_none_iff {store : Store} {id : UInt64} :
    store.find id = none ↔ id ∉ store.mail.map Mailbox.id := by
  rw [Store.find, first_none_iff, List.mem_map, not_exists]
  exact forall_congr' fun box => (not_and).symm

theorem fits_of_step {store next : Store} {body : Body} {reply : Reply}
    (ran : step body store = .ok (reply, next)) (other : Body) :
    other.Fits next ↔ other.Fits store := by
  have ids := (leavesOthers store body reply next ran).2
  cases other with
  | recv id msg len => exact Iff.rfl
  | send id msg len memory =>
      have same : next.find id = none ↔ store.find id = none := by
        rw [find_none_iff, find_none_iff, ids]
      exact imp_congr_left (not_congr same)

theorem fits_of_returned {store next : Store} {body : Body} {reply : Reply}
    (ran : step body store = .ok (reply, next)) : body.Fits store := by
  cases body with
  | recv id msg len => exact trivial
  | send id msg len memory =>
      intro found succeeds
      cases effect_of_step ran with
      | absent missing same => exact absurd same found
      | failed msg len memory fails replaced => exact absurd succeeds fails
      | sent msg len memory succeeds fits replaced => exact fits

theorem exec_whole {calls : List Body} {store : Store} (fit : ∀ body ∈ calls, body.Fits store)
    {log : Log} {final : Store} (ran : exec step store (calls.map Body.whole) = .ok (log, final)) :
    ∃ log, exec step store calls = .ok (log, final) := by
  induction calls generalizing store log with
  | nil =>
      cases ran
      exact ⟨[], rfl⟩
  | cons body rest ih =>
      obtain ⟨reply, next, tail, stepped, later, _⟩ := exec_cons_ok.mp ran
      rw [step_whole (fit body List.mem_cons_self)] at stepped
      have others : ∀ other ∈ rest, other.Fits next := fun other member =>
        (fits_of_step stepped other).mpr (fit other (List.mem_cons_of_mem body member))
      obtain ⟨log, ended⟩ := ih others later
      exact ⟨(body, reply) :: log, exec_cons_ok.mpr ⟨reply, next, log, stepped, ended, rfl⟩⟩

theorem fit_of_exec {calls : List Body} {store final : Store} {log : Log}
    (ran : exec step store calls = .ok (log, final)) : ∀ body ∈ calls, body.Fits store := by
  induction calls generalizing store log with
  | nil => exact fun body member => absurd member List.not_mem_nil
  | cons first rest ih =>
      obtain ⟨reply, next, tail, stepped, later, _⟩ := exec_cons_ok.mp ran
      intro body member
      rcases List.mem_cons.mp member with rfl | inside
      · exact fits_of_returned stepped
      · exact (fits_of_step stepped body).mp (ih later body inside)

theorem queue_of_accepted {store next : Store} {id : UInt64} {msg : UserMemory} {len : Len}
    {memory : Memory} {reply : Reply}
    (ran : step (.send id msg len memory) store = .ok (reply, next)) (accepted : reply.answer = 0) :
    next.queue id = store.queue id ++ [Message.sent memory.copy msg len] := by
  have put : moved (.send id msg len memory, reply) = .put id (Message.sent memory.copy msg len) :=
    if_pos accepted
  have moves := moves_of_step ran
  rw [put] at moves
  cases moves with
  | put key item own other => exact own

theorem reply_of_taken {store next : Store} {id : UInt64} {buffer : UserMemory} {room : Int64}
    {reply : Reply} {msgR : Message} {rest : List Message}
    (ran : step (.recv id buffer room) store = .ok (reply, next)) (took : reply.taken ≠ none)
    (queue : store.queue id = msgR :: rest) :
    reply = { answer := msgR.length.toInt64, written := [], taken := some msgR } := by
  cases effect_of_step ran with
  | absent missing same => exact absurd rfl took
  | empty msg len zero replaced => exact absurd rfl took
  | @received box first others msg len nonzero oldest replaced =>
      have held : store.queue box.id = box.messages := queue_of_find replaced.found
      rw [held, oldest] at queue
      obtain ⟨rfl, _⟩ := List.cons.inj queue
      rfl

theorem Delivery.got_eq (delivery : Delivery) :
    delivery.got =
      { answer := delivery.len.1
        written := []
        taken := some (Message.sent delivery.memory.copy delivery.msg delivery.len) } := by
  have queued := queue_of_accepted delivery.sent delivery.accepted
  have order := Queues.conserved moved Store.queue delivery.after
    (fun _ _ _ _ stepped => moves_of_step stepped) delivery.ran delivery.id
  rw [queued, List.append_assoc] at order
  obtain ⟨_, front⟩ := List.append_inj order delivery.turn
  exact reply_of_taken delivery.received delivery.took front

theorem Delivery.stored_iff (delivery : Delivery) :
    (delivery.after.queue delivery.id).getLast?.map Message.msg =
        some (callerBytes delivery.msg delivery.len.size) ↔ delivery.Complete := by
  rw [queue_of_accepted delivery.sent delivery.accepted, List.getLast?_concat, Option.map_some,
    Option.some.injEq]
  exact copyFromUser_eq_iff delivery.memory.copy delivery.msg delivery.len.size

theorem Delivery.written_iff (delivery : Delivery) :
    delivery.got.written = (callerBytes delivery.msg delivery.len.size).take delivery.room.size ↔
      delivery.room.size = 0 ∨ delivery.len.size = 0 := by
  rw [delivery.got_eq, eq_comm, List.take_eq_nil_iff, ← List.length_eq_zero_iff, callerBytes_length]

theorem Delivery.answered (delivery : Delivery) :
    delivery.got.answer.toInt = delivery.len.size := by
  have nonneg : 0 ≤ delivery.len.1.toInt := by
    simpa [Int64.le_iff_toInt_le] using delivery.len.2
  rw [delivery.got_eq]
  exact (Int.toNat_of_nonneg nonneg).symm

theorem Delivery.fit_iff (delivery : Delivery) :
    (∀ body ∈ delivery.calls, body.Fits delivery.store) ↔
      ∃ reply after log final,
        step (.send delivery.id delivery.msg delivery.len delivery.memory) delivery.store =
            .ok (reply, after) ∧
          exec step after delivery.later = .ok (log, final) := by
  constructor
  · intro fit
    have sent : step (.send delivery.id delivery.msg delivery.len delivery.memory) delivery.store =
        .ok (delivery.reply, delivery.after) := by
      rw [← step_whole (fit _ List.mem_cons_self)]
      exact delivery.sent
    have others : ∀ body ∈ delivery.later, body.Fits delivery.after := fun body member =>
      (fits_of_step sent body).mpr (fit body (List.mem_cons_of_mem _ member))
    obtain ⟨log, ran⟩ := exec_whole others delivery.ran
    exact ⟨delivery.reply, delivery.after, log, delivery.final, sent, ran⟩
  · rintro ⟨reply, after, log, final, sent, ran⟩ body member
    rcases List.mem_cons.mp member with rfl | inside
    · exact fits_of_returned sent
    · exact (fits_of_step sent body).mp (fit_of_exec ran body inside)

theorem Delivery.same_run (delivery : Delivery) {reply : Reply} {after final : Store} {log : Log}
    (sent : step (.send delivery.id delivery.msg delivery.len delivery.memory) delivery.store =
      .ok (reply, after))
    (ran : exec step after delivery.later = .ok (log, final)) :
    reply = delivery.reply ∧ after = delivery.after ∧ final = delivery.final := by
  have fits := fits_of_returned sent
  have whole := delivery.sent
  rw [show Body.send delivery.id delivery.msg delivery.len delivery.memory.whole =
    (Body.send delivery.id delivery.msg delivery.len delivery.memory).whole from rfl,
    step_whole fits, sent] at whole
  obtain ⟨rfl, rfl⟩ := Prod.mk.inj (Except.ok.inj whole)
  obtain ⟨other, same⟩ := exec_whole (fit_of_exec ran) delivery.ran
  rw [ran] at same
  exact ⟨rfl, rfl, (Prod.mk.inj (Except.ok.inj same)).2⟩

/-- A round trip succeeds exactly when every block that the run fills has room
for a message, and nothing was sent, or nothing fits into the buffer and the copy
from the sender left the message complete. -/
theorem Delivery.roundTrip_iff (delivery : Delivery) :
    delivery.RoundTrip ↔
      (∀ body ∈ delivery.calls, body.Fits delivery.store) ∧
        (delivery.len.size = 0 ∨ (delivery.room.size = 0 ∧ delivery.Complete)) := by
  constructor
  · rintro ⟨reply, after, log, final, got, last, sent, ran, received, _, stored, _, written⟩
    refine ⟨delivery.fit_iff.mpr ⟨reply, after, log, final, sent, ran⟩, ?_⟩
    obtain ⟨rfl, rfl, rfl⟩ := delivery.same_run sent ran
    rw [delivery.received] at received
    obtain ⟨rfl, _⟩ := Prod.mk.inj (Except.ok.inj received)
    rcases delivery.written_iff.mp written with full | nothing
    · exact Or.inr ⟨full, delivery.stored_iff.mp stored⟩
    · exact Or.inl nothing
  · rintro ⟨fit, condition⟩
    obtain ⟨reply, after, log, final, sent, ran⟩ := delivery.fit_iff.mp fit
    obtain ⟨rfl, rfl, rfl⟩ := delivery.same_run sent ran
    have complete : delivery.Complete := by
      rcases condition with nothing | ⟨_, complete⟩
      · intro index within
        omega
      · exact complete
    refine ⟨_, _, log, _, delivery.got, delivery.last, sent, ran, delivery.received, delivery.accepted,
      delivery.stored_iff.mpr complete, delivery.answered, delivery.written_iff.mpr ?_⟩
    rcases condition with nothing | ⟨full, _⟩
    · exact Or.inr nothing
    · exact Or.inl full

def oneByte : Delivery :=
  let len : Len := ⟨1, by decide⟩
  let copy : Copy := { copied := 1, rest := fun _ => 0 }
  let message := Message.sent copy (fun _ => 7) len
  let box (messages : List Message) : Mailbox :=
    { aclC := false, id := MAXID, count := 1, messages := messages, acl := [] }
  { store := oneMailbox
    id := MAXID
    msg := fun _ => 7
    len := len
    memory := { node := some .whole, buffer := true, copy := copy }
    reply := { answer := 0, written := [], taken := none }
    after := { mailboxC := 1, mail := [box [message]] }
    sent := rfl
    accepted := rfl
    later := []
    log := []
    final := { mailboxC := 1, mail := [box [message]] }
    ran := rfl
    turn := rfl
    buffer := fun _ => 0
    room := len
    got := { answer := 1, written := [], taken := some message }
    last := { mailboxC := 1, mail := [box []] }
    received := rfl
    took := Option.some_ne_none message }

theorem byte_not_delivered : ¬ oneByte.RoundTrip := by
  rintro ⟨_, _, _, _, got, _, sent, ran, received, _, _, _, written⟩
  obtain ⟨_, _, rfl⟩ := oneByte.same_run sent ran
  rw [oneByte.received] at received
  obtain ⟨rfl, _⟩ := Prod.mk.inj (Except.ok.inj received)
  have filled : ([] : List UInt8) = [7] := written
  cases filled

end CS421.Mail
