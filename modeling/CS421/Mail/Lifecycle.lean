/-
The lifecycle of the mailbox service: init and shutdown.

The last test of init joins four inequalities with `||`, and one of them always
holds, so no init succeeds. Shutdown logs that there is no mailbox and goes on.
-/

import CS421.Mail.Edits

set_option autoImplicit false

namespace CS421.Mail

open Runs

inductive LifecycleCall where
  | init (uid : UInt64) (ptrs prob : UInt32)
  | shutdown (uid : UInt64)
  deriving DecidableEq

def LifecycleCall.perform : Machine Service LifecycleCall Int64 Trap
  | .init uid ptrs prob, service =>
      match mbx421Init uid ptrs prob service.store with
      | .error fault => .error (.fault fault)
      | .ok (answer, store) => .ok (answer, { service with store := store })
  | .shutdown uid, service => mbx421Shutdown uid service

def Service.Initialised (service : Service) : Prop := service.store.mailboxC ≠ 0

instance (service : Service) : Decidable service.Initialised :=
  inferInstanceAs (Decidable (_ ≠ _))

def ValidArguments (ptrs prob : UInt32) : Prop :=
  0 < ptrs ∧ (prob = 2 ∨ prob = 4 ∨ prob = 8 ∨ prob = 16)

instance (ptrs prob : UInt32) : Decidable (ValidArguments ptrs prob) :=
  inferInstanceAs (Decidable (_ ∧ _))

/-- What a call has to answer, and the state it has to leave. A valid init
succeeds whenever the service is not initialised, so also after a shutdown. -/
def LifecycleCall.Answers (call : LifecycleCall) (service : Service) (answer : Int64)
    (next : Service) : Prop :=
  match call with
  | .init uid ptrs prob =>
      (answer = 0 ↔ uid = 0 ∧ ¬ service.Initialised ∧ ValidArguments ptrs prob) ∧
        (answer = 0 → next.Initialised)
  | .shutdown uid =>
      (uid = 0 → service.Initialised → answer = 0 ∧ ¬ next.Initialised) ∧
        (¬ service.Initialised → answer < 0 ∧ next = service)

def LifecycleCall.Lawful (call : LifecycleCall) (service : Service) : Prop :=
  ∃ answer next, call.perform service = .ok (answer, next) ∧ call.Answers service answer next

def LifecycleCall.Spared : LifecycleCall → Prop
  | .init uid ptrs prob => ¬ (uid = 0 ∧ ValidArguments ptrs prob)
  | .shutdown uid => uid ≠ 0

section Steps

variable {call : LifecycleCall} {service next : Service} {answer : Int64}

theorem init_answers (uid : UInt64) (ptrs prob : UInt32) (service : Service) :
    ∃ answer, (LifecycleCall.init uid ptrs prob).perform service = .ok (answer, service) ∧
      answer < 0 := by
  obtain ⟨answer, refused, negative⟩ := init_refused uid ptrs prob service.store
  refine ⟨answer, ?_, negative⟩
  rw [LifecycleCall.perform, refused]

theorem stays_uninitialised (stopped : ¬ service.Initialised)
    (ran : call.perform service = .ok (answer, next)) : ¬ next.Initialised := by
  cases call with
  | init uid ptrs prob =>
      obtain ⟨answer, refused, _⟩ := init_answers uid ptrs prob service
      rw [refused] at ran
      cases ran
      exact stopped
  | shutdown uid =>
      rcases shutdown_ok ran with ⟨_, _, rfl⟩ | ⟨_, _, _, _, rfl⟩
      · exact stopped
      · exact fun nonzero => nonzero rfl

theorem shutdown_stranger {uid : UInt64} (stranger : uid ≠ 0) :
    mbx421Shutdown uid service = .ok (-EPERM, service) := by
  rw [mbx421Shutdown, if_pos (by simpa using stranger)]

theorem lawful_iff_spared (stopped : ¬ service.Initialised) :
    call.Lawful service ↔ call.Spared := by
  cases call with
  | init uid ptrs prob =>
      obtain ⟨answer, refused, negative⟩ := init_answers uid ptrs prob service
      have nonzero := Int64.ne_of_lt negative
      constructor
      · intro lawful valid
        obtain ⟨other, next, ran, succeeds, _⟩ := lawful
        rw [refused] at ran
        cases ran
        exact nonzero (succeeds.mpr ⟨valid.1, stopped, valid.2⟩)
      · intro spared
        refine ⟨answer, service, refused, ?_, fun zero => absurd zero nonzero⟩
        exact iff_of_false nonzero (fun valid => spared ⟨valid.1, valid.2.2⟩)
  | shutdown uid =>
      constructor
      · intro lawful root
        obtain ⟨answer, next, ran, _, refuses⟩ := lawful
        have negative := (refuses stopped).1
        rcases shutdown_ok ran with ⟨_, stranger, _⟩ | ⟨zero, _⟩
        · exact stranger root
        · exact Int64.ne_of_lt negative zero
      · intro stranger
        refine ⟨-EPERM, service, shutdown_stranger stranger, ?_, ?_⟩
        · exact fun root => absurd root stranger
        · exact fun _ => ⟨by decide, rfl⟩

theorem spared_returns (spared : call.Spared) (service : Service) :
    ∃ answer, call.perform service = .ok (answer, service) := by
  cases call with
  | init uid ptrs prob =>
      obtain ⟨answer, refused, _⟩ := init_answers uid ptrs prob service
      exact ⟨answer, refused⟩
  | shutdown uid => exact ⟨-EPERM, shutdown_stranger spared⟩

end Steps

theorem never_initialised {calls : List LifecycleCall}
    {history : History LifecycleCall Int64} {service : Service}
    (ran : exec LifecycleCall.perform bootService calls = .ok (history, service)) :
    ¬ service.Initialised := by
  refine invariant_exec (fun _ service => ¬ service.Initialised) (fun nonzero => nonzero rfl) ?_ ran
  intro _ before call answer next stopped stepped
  exact stays_uninitialised stopped stepped

theorem spared_run {calls : List LifecycleCall} (spared : ∀ call ∈ calls, call.Spared)
    (start : Service) :
    ∃ history, exec LifecycleCall.perform start calls = .ok (history, start) := by
  induction calls with
  | nil => exact ⟨[], rfl⟩
  | cons call rest ih =>
      obtain ⟨answer, stepped⟩ := spared_returns (spared call List.mem_cons_self) start
      obtain ⟨history, later⟩ := ih (fun other member => spared other (List.mem_cons_of_mem call member))
      exact ⟨(call, answer) :: history, exec_cons_ok.mpr ⟨answer, start, history, stepped, later, rfl⟩⟩

/-- A run from boot obeys the law of the lifecycle exactly when root makes no
shutdown and no valid init in it. -/
theorem lawful_run_iff (calls : List LifecycleCall) :
    EveryStep LifecycleCall.perform bootService calls (fun _ service call => call.Lawful service) ↔
      ∀ call ∈ calls, call.Spared := by
  constructor
  · intro lawful
    induction calls using List.reverseRecOn with
    | nil =>
        intro call member
        cases member
    | append_singleton calls call ih =>
        obtain ⟨earlier, last⟩ := everyStep_concat.mp lawful
        have before := ih earlier
        obtain ⟨history, ran⟩ := spared_run before bootService
        have spared := (lawful_iff_spared (never_initialised ran)).mp (last history bootService ran)
        intro other member
        rcases List.mem_append.mp member with old | new
        · exact before other old
        · rw [List.mem_singleton.mp new]
          exact spared
  · intro spared prior call within history service ran
    have member : call ∈ calls := within.subset (List.mem_append_right prior List.mem_cons_self)
    exact (lawful_iff_spared (never_initialised ran)).mpr (spared call member)

theorem first_init_refused :
    ¬ ∀ calls : List LifecycleCall,
      EveryStep LifecycleCall.perform bootService calls
        (fun _ service call => call.Lawful service) := by
  intro lawful
  have first := lawful [.init 0 5 2] [] (.init 0 5 2) (List.prefix_refl _) [] bootService rfl
  obtain ⟨answer, next, ran, succeeds, _⟩ := first
  cases ran
  have accepted : (-EINVAL : Int64) = 0 := succeeds.mpr (by decide)
  exact absurd accepted (by decide)

end CS421.Mail
