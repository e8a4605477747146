/-
What the callers of the mailbox service learn of one another's mail.

Send and receive serve the caller whose uid is the id of the mailbox, and no call
that is open to all reads a message, but for one: `mbx421_length` looks at the
messages of every mailbox before it answers. Up to that answer, a caller sees of
a run what it would see without the other callers.
-/

import CS421.Mail.Access
import CS421.Unwinding

set_option autoImplicit false

namespace CS421.Mail

open Runs Keyed

def Mailbox.outline (uid : UInt64) (box : Mailbox) : Facade :=
  { id := box.id
    aclC := box.aclC
    acl := box.acl
    content := if box.id = uid then some (box.count, box.messages) else none }

structure Alike (uid : UInt64) (service other : Service) : Prop where
  linked : service.linked = other.linked
  mailboxC : service.store.mailboxC = other.store.mailboxC
  mail : service.store.mail.map (Mailbox.outline uid) = other.store.mail.map (Mailbox.outline uid)

def MailCall.by (uid : UInt64) (call : MailCall) : Bool := call.1 == uid

def MailCall.sees (call : MailCall) (reply : Reply) : Option Reply :=
  match call.2 with
  | .length _ => none
  | _ => some reply

section Outlines

variable {uid id : UInt64} {box other : Mailbox}

theorem outline_id (same : box.outline uid = other.outline uid) : box.id = other.id :=
  congrArg Facade.id same

theorem outline_own (same : box.outline uid = other.outline uid) (own : box.id = uid) :
    box = other := by
  have ids := outline_id same
  have aclC : box.aclC = other.aclC := congrArg Facade.aclC same
  have acl : box.acl = other.acl := congrArg Facade.acl same
  have content := congrArg Facade.content same
  rw [Mailbox.outline, Mailbox.outline, if_pos own, if_pos (ids ▸ own), Option.some.injEq,
    Prod.mk.injEq] at content
  obtain ⟨count, messages⟩ := content
  cases box
  cases other
  cases ids
  cases aclC
  cases acl
  cases count
  cases messages
  rfl

/-- What one operation does to a mailbox of another caller cannot be seen. -/
theorem BoxEdit.outline {caller : UInt64} {operation : Operation} {answer : Int64}
    (edit : BoxEdit box other operation answer) (user : caller ≠ 0) (apart : caller ≠ uid)
    (made : operation.By caller) : other.outline uid = box.outline uid := by
  have hidden (owner : box.id = caller) (id : other.id = box.id) (aclC : other.aclC = box.aclC)
      (acl : other.acl = box.acl) : other.outline uid = box.outline uid := by
    have stranger : ¬ box.id = uid := fun own => apart (owner.symm.trans own)
    rw [Mailbox.outline, Mailbox.outline, id, aclC, acl, if_neg stranger, if_neg stranger]
  cases edit with
  | granted pid fresh => exact absurd made.symm user
  | marked pid fresh => exact absurd made.symm user
  | revoked pid listed => exact absurd made.symm user
  | failed msg len memory fails => exact hidden made rfl rfl rfl
  | sent msg len memory succeeds fits => exact hidden made rfl rfl rfl
  | received msg len oldest => exact hidden made rfl rfl rfl

theorem onFirst_alike {Answer : Type} {missing answer : Answer}
    {act : Mailbox → Except Fault (Answer × List Mailbox)}
    (acts : ∀ {box other : Mailbox} {answer : Answer} {kept : List Mailbox}, box.id = id →
      box.outline uid = other.outline uid → act box = .ok (answer, kept) →
        ∃ left, act other = .ok (answer, left) ∧
          kept.map (Mailbox.outline uid) = left.map (Mailbox.outline uid))
    {mail others searched : List Mailbox}
    (same : mail.map (Mailbox.outline uid) = others.map (Mailbox.outline uid))
    (ran : onFirst Mailbox.id id missing act mail = .ok (answer, searched)) :
    ∃ left, onFirst Mailbox.id id missing act others = .ok (answer, left) ∧
      searched.map (Mailbox.outline uid) = left.map (Mailbox.outline uid) := by
  induction mail generalizing others searched with
  | nil =>
      cases ran
      exact ⟨[], by rw [List.map_eq_nil_iff.mp same.symm]; rfl, rfl⟩
  | cons box rest ih =>
      cases others with
      | nil => cases same
      | cons other more =>
          rw [List.map_cons, List.map_cons, List.cons.injEq] at same
          have ids := outline_id same.1
          rw [onFirst] at ran ⊢
          by_cases own : box.id = id
          · rw [if_pos own] at ran
            rw [if_pos (ids ▸ own)]
            cases acted : act box with
            | error fault =>
                rw [acted] at ran
                cases ran
            | ok out =>
                rw [acted] at ran
                cases ran
                obtain ⟨left, acts, kept⟩ := acts own same.1 acted
                rw [acts]
                exact ⟨left ++ more, rfl, by rw [List.map_append, List.map_append, kept, same.2]⟩
          · rw [if_neg own] at ran
            rw [if_neg (ids ▸ own)]
            cases later : onFirst Mailbox.id id missing act rest with
            | error fault =>
                rw [later] at ran
                cases ran
            | ok out =>
                rw [later] at ran
                cases ran
                obtain ⟨left, found, kept⟩ := ih same.2 later
                rw [found]
                exact ⟨other :: left, rfl, by rw [List.map_cons, List.map_cons, kept, same.1]⟩

end Outlines

section Own

variable {uid id : UInt64} {user : uid ≠ 0}

def StoresAlike (uid : UInt64) (store other : Store) : Prop :=
  store.mailboxC = other.mailboxC ∧
    store.mail.map (Mailbox.outline uid) = other.mail.map (Mailbox.outline uid)

/-- The call answers the same from stores that look alike, and leaves them so. -/
def Respects (uid : UInt64) (act : Store → Except Fault (Reply × Store)) : Prop :=
  ∀ {store other next : Store} {reply : Reply}, StoresAlike uid store other →
    act store = .ok (reply, next) →
      ∃ following, act other = .ok (reply, following) ∧ StoresAlike uid next following

def Fixed (act : Store → Outcome) : Prop :=
  ∃ answer : Int32 → Int64, ∀ store, act store = .ok (answer store.mailboxC, store)

theorem respects_plain {act : Store → Outcome}
    (acts : ∀ {store other next : Store} {answer : Int64}, StoresAlike uid store other →
      act store = .ok (answer, next) →
        ∃ following, act other = .ok (answer, following) ∧ StoresAlike uid next following) :
    Respects uid (fun store => plain (act store)) := by
  intro store other next reply same ran
  dsimp only at ran ⊢
  cases acted : act store with
  | error fault =>
      rw [acted] at ran
      cases ran
  | ok out =>
      rw [acted] at ran
      cases ran
      obtain ⟨following, answered, alike⟩ := acts same acted
      exact ⟨following, by rw [answered]; rfl, alike⟩

theorem Fixed.respects {act : Store → Outcome} (fixed : Fixed act) :
    Respects uid (fun store => plain (act store)) := by
  obtain ⟨answer, acts⟩ := fixed
  apply respects_plain
  intro store other next value same ran
  rw [acts] at ran
  cases ran
  exact ⟨other, by rw [acts, same.1], same⟩

theorem init_fixed (ptrs prob : UInt32) : Fixed (mbx421Init uid ptrs prob) := by
  refine ⟨fun mailboxC => if mailboxC != 0 then -EEXIST else if uid != 0 then -EPERM else -EINVAL,
    fun store => ?_⟩
  have everyProb : (prob != 2 || prob != 4 || prob != 8 || prob != 16) = true := by
    by_cases two : prob = 2
    · subst prob
      rfl
    · simp [two]
  dsimp only
  unfold mbx421Init
  rw [if_pos everyProb, ite_self]
  split
  · rfl
  · split <;> rfl

theorem create_fixed (user : uid ≠ 0) (memory : Option Bool) : Fixed (mbx421Create uid id memory) := by
  refine ⟨fun mailboxC => if mailboxC == 0 then -ENOENT
    else if id == 0 || decide (id < MAXID) then -EFAULT else -EPERM, fun store => ?_⟩
  dsimp only
  unfold mbx421Create
  rw [if_pos (bne_iff_ne.mpr user)]
  split
  · rfl
  · split <;> rfl

theorem destroy_fixed (user : uid ≠ 0) : Fixed (mbx421Destroy uid id) := by
  refine ⟨fun mailboxC => if mailboxC == 0 then -ENOENT else -EPERM, fun store => ?_⟩
  dsimp only
  unfold mbx421Destroy
  rw [if_pos (bne_iff_ne.mpr user)]
  split <;> rfl

theorem aclAdd_fixed (user : uid ≠ 0) (pid : Int32) (memory : Bool) :
    Fixed (mbx421AclAdd uid id pid memory) :=
  ⟨fun _ => -EPERM, fun _ => if_pos (bne_iff_ne.mpr user)⟩

theorem aclRemove_fixed (user : uid ≠ 0) (pid : Int32) : Fixed (mbx421AclRemove uid id pid) :=
  ⟨fun _ => -EPERM, fun _ => if_pos (bne_iff_ne.mpr user)⟩

theorem search_alike {Answer : Type} {missing answer : Answer}
    {act : Mailbox → Except Fault (Answer × List Mailbox)}
    (acts : ∀ {box other : Mailbox} {answer : Answer} {kept : List Mailbox}, box.id = id →
      box.outline uid = other.outline uid → act box = .ok (answer, kept) →
        ∃ left, act other = .ok (answer, left) ∧
          kept.map (Mailbox.outline uid) = left.map (Mailbox.outline uid))
    {store other next : Store} (same : StoresAlike uid store other)
    (ran : store.search id missing act = .ok (answer, next)) :
    ∃ following, other.search id missing act = .ok (answer, following) ∧
      StoresAlike uid next following := by
  rw [Store.search] at ran
  cases searched : onFirst Mailbox.id id missing act store.mail with
  | error fault =>
      rw [searched] at ran
      cases ran
  | ok out =>
      rw [searched] at ran
      cases ran
      obtain ⟨left, found, kept⟩ := onFirst_alike acts same.2 searched
      refine ⟨{ other with mail := left }, ?_, same.1, kept⟩
      rw [Store.search, found]

theorem own_acts {Answer : Type} (act : Mailbox → Except Fault (Answer × List Mailbox))
    {box other : Mailbox} {answer : Answer} {kept : List Mailbox} (own : box.id = uid)
    (same : box.outline uid = other.outline uid) (acted : act box = .ok (answer, kept)) :
    ∃ left, act other = .ok (answer, left) ∧
      kept.map (Mailbox.outline uid) = left.map (Mailbox.outline uid) := by
  rw [← outline_own same own]
  exact ⟨kept, acted, rfl⟩

theorem count_respects : Respects uid (fun store => plain (mbx421Count id store)) := by
  apply respects_plain
  intro store other next answer same ran
  refine search_alike ?_ same ran
  intro box other answer kept _ alike acted
  cases acted
  exact ⟨[other], rfl, by rw [List.map_singleton, List.map_singleton, alike]⟩

theorem send_respects (msg : UserMemory) (len : Int64) (memory : Memory) :
    Respects uid (fun store => plain (mbx421Send uid id msg len memory store)) := by
  apply respects_plain
  intro store other next answer same ran
  rw [mbx421Send] at ran ⊢
  rw [same.1] at ran
  split at ran
  · cases ran
    exact ⟨other, by simp [*], same⟩
  split at ran
  · cases ran
    exact ⟨other, by simp [*], same⟩
  split at ran
  · cases ran
    exact ⟨other, by simp [*], same⟩
  rename_i started range owner
  have caller : uid = id := by simpa using owner
  subst id
  split at ran
  · rename_i nonneg
    obtain ⟨following, found, alike⟩ := search_alike
      (fun own alike acted => own_acts (sendFound msg ⟨len, nonneg⟩ memory) own alike acted) same ran
    refine ⟨following, ?_, alike⟩
    rw [if_neg started, if_neg range, if_neg owner, dif_pos nonneg]
    exact found
  · rename_i negative
    cases ran
    refine ⟨other, ?_, same⟩
    rw [if_neg started, if_neg range, if_neg owner, dif_neg negative]

theorem recv_respects (msg : UserMemory) (len : Int64) : Respects uid (mbx421Recv uid id msg len) := by
  intro store other next reply same ran
  rw [mbx421Recv] at ran ⊢
  dsimp only at ran ⊢
  rw [same.1] at ran
  split at ran
  · cases ran
    exact ⟨other, by simp [*], same⟩
  split at ran
  · cases ran
    exact ⟨other, by simp [*], same⟩
  split at ran
  · cases ran
    exact ⟨other, by simp [*], same⟩
  rename_i started range owner
  have caller : uid = id := by simpa using owner
  subst id
  obtain ⟨following, found, alike⟩ := search_alike
    (fun own alike acted => own_acts recvFound own alike acted) same ran
  refine ⟨following, ?_, alike⟩
  rw [if_neg started, if_neg range, if_neg owner]
  exact found

theorem overMail_alike {walks : Store → Bool} {act : Store → Except Fault (Reply × Store)}
    {service other next : Service} {reply : Reply}
    (same_tests : ∀ {store other : Store}, store.mailboxC = other.mailboxC →
      walks store = walks other)
    (respects : Respects uid act) (same : Alike uid service other)
    (ran : overMail walks act service = .ok (reply, next)) :
    ∃ following, overMail walks act other = .ok (reply, following) ∧ Alike uid next following := by
  unfold overMail at ran ⊢
  rw [same_tests same.mailboxC, same.linked] at ran
  split at ran
  · cases ran
  rename_i walks_on
  rw [if_neg walks_on]
  cases acted : act service.store with
  | error fault =>
      rw [acted] at ran
      cases ran
  | ok out =>
      rw [acted] at ran
      cases ran
      obtain ⟨following, answered, alike⟩ := respects ⟨same.mailboxC, same.mail⟩ acted
      rw [answered]
      exact ⟨{ other with store := following }, rfl, rfl, alike.1, alike.2⟩

theorem length_alike {service other next : Service} {reply : Reply} (same : Alike uid service other)
    (ran : (Syscall.length id).perform uid service = .ok (reply, next)) :
    ∃ answer following, (Syscall.length id).perform uid other = .ok (answer, following) ∧
      Alike uid next following := by
  rw [Syscall.perform, overMail, same.linked] at ran
  split at ran
  · cases ran
  · rename_i linked
    cases ran
    let answer : Reply := { answer := lengthLoop other.store.mail, written := [], taken := none }
    refine ⟨answer, other, ?_, rfl, same.mailboxC, same.mail⟩
    rw [Syscall.perform, overMail, if_neg linked]
    rfl

/-- What the caller sees of its own call is the same from services that look
alike to it. -/
theorem serve_consistent (user : uid ≠ 0) {call : Syscall} {service other next : Service}
    {reply : Reply} (same : Alike uid service other)
    (ran : call.perform uid service = .ok (reply, next)) :
    ∃ answer following, call.perform uid other = .ok (answer, following) ∧
      Alike uid next following ∧
      MailCall.sees (uid, call) answer = MailCall.sees (uid, call) reply := by
  have plainly (walks : Store → Bool) {act : Store → Except Fault (Reply × Store)}
      (performs : ∀ service, call.perform uid service = overMail walks act service)
      (tests : ∀ {store other : Store}, store.mailboxC = other.mailboxC →
        walks store = walks other) (respects : Respects uid act) :
      ∃ answer following, call.perform uid other = .ok (answer, following) ∧
        Alike uid next following ∧
        MailCall.sees (uid, call) answer = MailCall.sees (uid, call) reply := by
    rw [performs] at ran
    obtain ⟨following, answered, alike⟩ := overMail_alike tests respects same ran
    exact ⟨reply, following, by rw [performs, answered], alike, rfl⟩
  cases call with
  | init ptrs prob =>
      exact plainly (fun _ => false) (fun _ => rfl) (fun _ => rfl) (init_fixed ptrs prob).respects
  | shutdown =>
      have refused (service : Service) : Syscall.shutdown.perform uid service =
          .ok ({ answer := -EPERM, written := [], taken := none }, service) := by
        have closed : mbx421Shutdown uid service = .ok (-EPERM, service) :=
          if_pos (bne_iff_ne.mpr user)
        simp only [Syscall.perform, closed]
      rw [refused] at ran
      cases ran
      exact ⟨_, other, refused other, same, rfl⟩
  | create id memory =>
      refine plainly (createChecks uid id) (fun _ => rfl) (fun alike => ?_)
        (create_fixed user memory).respects
      rw [createChecks, createChecks, alike]
  | destroy id =>
      refine plainly (destroyChecks uid) (fun _ => rfl) (fun alike => ?_)
        (destroy_fixed user).respects
      rw [destroyChecks, destroyChecks, alike]
  | count id => exact plainly (fun _ => true) (fun _ => rfl) (fun _ => rfl) count_respects
  | length id =>
      obtain ⟨answer, following, answered, alike⟩ := length_alike same ran
      exact ⟨answer, following, answered, alike, rfl⟩
  | send id msg len memory =>
      refine plainly (sendChecks uid id len) (fun _ => rfl) (fun alike => ?_)
        (send_respects msg len memory)
      rw [sendChecks, sendChecks, alike]
  | recv id msg len =>
      refine plainly (recvChecks uid id) (fun _ => rfl) (fun alike => ?_) (recv_respects msg len)
      rw [recvChecks, recvChecks, alike]
  | aclAdd id pid memory =>
      exact plainly (fun _ => aclChecks uid) (fun _ => rfl) (fun _ => rfl)
        (aclAdd_fixed user pid memory).respects
  | aclRemove id pid =>
      exact plainly (fun _ => aclChecks uid) (fun _ => rfl) (fun _ => rfl)
        (aclRemove_fixed user pid).respects

end Own

/-! ### Runs -/

theorem Served.alike {uid caller : UInt64} (user : caller ≠ 0) (apart : caller ≠ uid)
    {service next : Service} (served : Served caller service next) : Alike uid next service := by
  cases served with
  | refused same =>
      rw [same]
      exact ⟨rfl, rfl, rfl⟩
  | shut root empty unlinked => exact absurd root user
  | operated operation answer made edit linked =>
      cases edit with
      | unchanged operation answer refused same =>
          refine ⟨linked, ?_, ?_⟩
          · rw [same]
          · rw [same]
      | created fresh added => exact absurd made.symm user
      | destroyed found zero removed => exact absurd made.symm user
      | edited found edit replaced =>
          refine ⟨linked, ?_, ?_⟩
          · rw [replaced]
          · rw [replaced, found.split, List.map_append, List.map_append, List.map_cons,
              List.map_cons, edit.outline user apart made]

theorem serve_unwinds {uid : UInt64} (user : uid ≠ 0) :
    Unwinds serve (fun call => call.1 ≠ 0) (MailCall.by uid) MailCall.sees (Alike uid) where
  trans first second :=
    ⟨first.linked.trans second.linked, first.mailboxC.trans second.mailboxC,
      first.mail.trans second.mail⟩
  hidden caller stranger ran :=
    (served_of_perform ran).alike caller (beq_eq_false_iff_ne.mp stranger)
  consistent := by
    rintro ⟨caller, call⟩ service other reply next _ own same ran
    have self : caller = uid := beq_iff_eq.mp own
    subst caller
    exact serve_consistent user same ran

/-- Over any run of calls by callers other than root, each of them gets the
answers, except to `mbx421_length`, that it would get without the others. -/
theorem callers_do_not_interfere {uid : UInt64} (user : uid ≠ 0) {start final : Service}
    {calls : List MailCall} (made : ∀ call ∈ calls, call.1 ≠ 0)
    {history : History MailCall Reply} (ran : exec serve start calls = .ok (history, final)) :
    ∃ purged last, exec serve start (calls.filter (MailCall.by uid)) = .ok (purged, last) ∧
      Alike uid final last ∧
      sighted (MailCall.by uid) MailCall.sees purged =
        sighted (MailCall.by uid) MailCall.sees history :=
  (serve_unwinds user).purge made ⟨rfl, rfl, rfl⟩ ran

def twoMailboxes : Service :=
  { store :=
      { mailboxC := 1
        mail := [{ aclC := false, id := MAXID, count := 1, acl := [], messages := [emptyMessage] },
          { aclC := false, id := MAXID + 1, count := 1, acl := [], messages := [emptyMessage] }] }
    linked := true }
where
  emptyMessage : Message := { msg := [], length := 0, sized := rfl, small := by decide }

def receiveBetween : List MailCall :=
  [(MAXID, .recv MAXID (fun _ => 0) 1), (MAXID + 1, .recv (MAXID + 1) (fun _ => 0) 1),
    (MAXID, .count (MAXID + 1))]

theorem receive_does_not_interfere :
    ∃ history final, exec serve twoMailboxes receiveBetween = .ok (history, final) ∧
      ∃ purged last, exec serve twoMailboxes (receiveBetween.filter (MailCall.by MAXID)) =
          .ok (purged, last) ∧
        Alike MAXID final last ∧
        sighted (MailCall.by MAXID) MailCall.sees purged =
          sighted (MailCall.by MAXID) MailCall.sees history := by
  have ends : endsWith serve twoMailboxes receiveBetween (fun _ _ => true) = true := by decide
  obtain ⟨history, final, ran, _⟩ := exec_of_endsWith ends
  exact ⟨history, final, ran, callers_do_not_interfere (by decide) (by decide) ran⟩

/-- The answer of `mbx421_length` tells of a receive of another caller. -/
theorem length_interferes :
    endsWith serve twoMailboxes
        [(MAXID + 1, .recv (MAXID + 1) (fun _ => 0) 1), (MAXID, .length MAXID)]
        (fun history _ => (history.getLast?.map fun entry => entry.2.answer) == some (-EINVAL)) ∧
      endsWith serve twoMailboxes [(MAXID, .length MAXID)]
        (fun history _ => (history.getLast?.map fun entry => entry.2.answer) == some 0) := by
  decide

end CS421.Mail
