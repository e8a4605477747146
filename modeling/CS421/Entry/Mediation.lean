/-
What the hook decides and what the entry code does about it.

Two questions are answered here for every kernel, every task and every action
that stands for tracing: whether a call that `findder` reports is refused, and
whether the number that is dispatched is the number that `findder` was asked
about.
-/

import CS421.Entry.Common
import CS421.Sandbox.History

set_option autoImplicit false

namespace CS421.Entry

open Sandbox

variable {ω : Type}

section Traces

variable (kernel : Kernel ω) (passage : Passage ω)

@[simp] theorem act_trace (action : Task ω → Task ω) :
    (passage.act action).trace = passage.trace := rfl

@[simp] theorem localIrqEnable_trace : (localIrqEnable passage).trace = passage.trace := rfl

@[simp] theorem localIrqDisable_trace : (localIrqDisable passage).trace = passage.trace := rfl

@[simp] theorem enterFromUserMode_trace :
    (enterFromUserMode kernel passage).trace = passage.trace ++ [.enterFromUserMode] := rfl

@[simp] theorem prepareExitToUsermode_trace :
    (prepareExitToUsermode kernel passage).trace = passage.trace ++ [.prepareExitToUsermode] := rfl

@[simp] theorem syscallReturnSlowpath_trace :
    (syscallReturnSlowpath kernel passage).trace = passage.trace ++ [.prepareExitToUsermode] := by
  simp only [syscallReturnSlowpath, prepareExitToUsermode_trace, localIrqDisable_trace]
  split <;> split <;> rfl

@[simp] theorem traced_trace (traceEnter : Task ω → UInt64 × Task ω) (nr : UInt64) :
    (traced kernel traceEnter nr passage).2.trace = passage.trace := by
  unfold traced
  split <;> rfl

theorem traced_fst (traceEnter : Task ω → UInt64 × Task ω) (nr : UInt64) :
    (traced kernel traceEnter nr passage).1 =
      if passage.task.flags &&& kernel.tifWorkSyscallEntry != 0 then (traceEnter passage.task).1
      else nr := by
  unfold traced
  split <;> rfl

@[simp] theorem compat_trace : (compat kernel passage).trace = passage.trace := by
  unfold compat
  split <;> rfl

theorem refuse_trace (checker : Int32) :
    (refuse kernel checker passage).trace =
      passage.trace ++ if checker = 1 then [.prepareExitToUsermode] else [] := by
  unfold refuse
  by_cases reported : checker = 1
  · rw [if_pos (beq_iff_eq.mpr reported), if_pos reported]
    rfl
  · rw [if_neg (mt beq_iff_eq.mp reported), if_neg reported, List.append_nil]

theorem dispatch_trace (nr : UInt64) :
    (dispatch kernel nr passage).trace =
      passage.trace ++ if nr < kernel.nrSyscalls then [.sysCall nr] else [] := by
  unfold dispatch arrayIndexNospec
  by_cases within : nr < kernel.nrSyscalls
  · simp only [if_pos within]
  · simp only [if_neg within, List.append_nil]

theorem ia32Dispatch_trace (nr : UInt32) :
    (ia32Dispatch kernel nr passage).trace =
      passage.trace ++ if nr < kernel.ia32NrSyscalls then [.ia32SysCall nr] else [] := by
  unfold ia32Dispatch arrayIndexNospec
  by_cases within : nr < kernel.ia32NrSyscalls
  · have wide : nr.toUInt64 < kernel.ia32NrSyscalls.toUInt64 := by
      simpa [UInt64.lt_iff_toNat_lt, UInt32.lt_iff_toNat_lt] using within
    simp only [if_pos within, if_pos wide, UInt32.toUInt32_toUInt64]
  · simp only [if_neg within, List.append_nil]

end Traces

/-- When nothing but a tracer watches the call, its number is the one that the
tracer leaves in `orig_ax`. -/
theorem syscallTraceEnter_tracer {kernel : Kernel ω} {task : Task ω}
    (real : task.flags &&& kernel.tifWorkSyscallEntry &&& kernel.tifSyscallEmu = 0)
    (watched : task.flags &&& kernel.tifWorkSyscallEntry &&& kernel.tifSyscallTrace ≠ 0)
    (unfiltered : task.flags &&& kernel.tifWorkSyscallEntry &&& kernel.tifSeccomp = 0)
    (passes : (kernel.tracehookReportSyscallEntry task).1 = 0) :
    (syscallTraceEnter kernel task).1 =
      (kernel.doAuditSyscallEntry
        (if (kernel.tracehookReportSyscallEntry task).2.flags &&& kernel.tifSyscallTracepoint != 0
          then kernel.traceSysEnter (kernel.tracehookReportSyscallEntry task).2
          else (kernel.tracehookReportSyscallEntry task).2)).origAx := by
  simp [syscallTraceEnter, real, watched, unfiltered, passes]

theorem findder_task (kernel : Kernel ω) (uid : Int32) (nr : UInt64)
    (same : kernel.getHash = getHashs) (nonneg : 0 ≤ uid) (bound : nr.toNat < entries) (task : Task ω) :
    ∃ sandbox, kernel.findder uid nr task =
      some (if (task.sandbox.row nr).Lists uid nr then 1 else 0,
        { task with sandbox := sandbox }) := by
  unfold Kernel.findder
  rw [same, findder_valid nonneg bound]
  exact ⟨_, rfl⟩

theorem findder_reports_iff {kernel : Kernel ω} (same : kernel.getHash = getHashs) {uid : Int32}
    {nr : UInt64} (nonneg : 0 ≤ uid) (bound : nr.toNat < entries) (task : Task ω) :
    (∃ after, kernel.findder uid nr task = some (1, after)) ↔ Blocked task.sandbox uid nr := by
  rw [blocked_iff nonneg bound]
  obtain ⟨sandbox, asked⟩ := findder_task kernel uid nr same nonneg bound task
  rw [asked]
  by_cases lists : (task.sandbox.row nr).Lists uid nr
  · rw [if_pos lists]
    exact iff_of_true ⟨_, rfl⟩ lists
  · rw [if_neg lists]
    refine iff_of_false ?_ lists
    intro ⟨later, reported⟩
    have answers : (0 : Int32) = 1 := congrArg Prod.fst (Option.some.inj reported)
    exact absurd answers (by decide)

def Event.slot : Event → Option UInt64
  | .sysCall slot => some slot
  | .ia32SysCall slot => some slot.toUInt64
  | .findder _ _ _ | .enterFromUserMode | .prepareExitToUsermode => none

def Event.pair : Event → Option (Int32 × UInt64)
  | .findder uid nr _ => some (uid, nr)
  | .sysCall _ | .ia32SysCall _ | .enterFromUserMode | .prepareExitToUsermode => none

def Passage.slots (passage : Passage ω) : List UInt64 := passage.trace.filterMap Event.slot

def Passage.pairs (passage : Passage ω) : List (Int32 × UInt64) :=
  passage.trace.filterMap Event.pair

/-- The passage as tracing finds it, at line 312. -/
def arrived (kernel : Kernel ω) (ids : Int32) (nr : UInt64) (checker : Int32) (task : Task ω) :
    Passage ω :=
  localIrqEnable (enterFromUserMode kernel
    (refuse kernel checker { task := task, trace := [.findder ids nr checker] }))

/-- The number of the call after tracing and masking, at line 321. -/
def number64 (kernel : Kernel ω) (traceEnter : Task ω → UInt64 × Task ω) (ids : Int32)
    (nr : UInt64) (checker : Int32) (task : Task ω) : UInt64 :=
  (traced kernel traceEnter nr (arrived kernel ids nr checker task)).1 &&& kernel.syscallMask

/-- The number of a 32-bit call after tracing and truncation, at line 356. -/
def number32 (kernel : Kernel ω) (traceEnter : Task ω → UInt64 × Task ω) (passage : Passage ω) :
    UInt32 :=
  (traced kernel traceEnter passage.task.origAx.toUInt32.toUInt64 (compat kernel passage)).1.toUInt32

section Whole

variable {kernel : Kernel ω} {traceEnter : Task ω → UInt64 × Task ω} {nr : UInt64} {task : Task ω}

theorem doSyscall64_trace (traceEnter : Task ω → UInt64 × Task ω) {checker : Int32}
    {after : Task ω}
    (asked : kernel.findder task.uid.toInt32 nr task = some (checker, after)) :
    ∃ passage, doSyscall64 kernel traceEnter nr task = some passage ∧
      passage.trace =
        [.findder task.uid.toInt32 nr checker] ++
          (if checker = 1 then [.prepareExitToUsermode] else []) ++ [.enterFromUserMode] ++
          (if number64 kernel traceEnter task.uid.toInt32 nr checker after < kernel.nrSyscalls then
            [.sysCall (number64 kernel traceEnter task.uid.toInt32 nr checker after)] else []) ++
          [.prepareExitToUsermode] := by
  unfold doSyscall64
  dsimp only
  rw [asked]
  refine ⟨_, rfl, ?_⟩
  simp only [syscallReturnSlowpath_trace, dispatch_trace, traced_trace, localIrqEnable_trace,
    enterFromUserMode_trace, refuse_trace]
  rfl

theorem doSyscall64_trap (traceEnter : Task ω → UInt64 × Task ω)
    (trapped : kernel.findder task.uid.toInt32 nr task = none) :
    doSyscall64 kernel traceEnter nr task = none := by
  unfold doSyscall64
  dsimp only
  rw [trapped]
  rfl

theorem doSyscall32IrqsOn_trace (passage : Passage ω) :
    (doSyscall32IrqsOn kernel traceEnter passage).trace =
      passage.trace ++
        (if number32 kernel traceEnter passage < kernel.ia32NrSyscalls then
          [.ia32SysCall (number32 kernel traceEnter passage)] else []) ++
        [.prepareExitToUsermode] := by
  unfold doSyscall32IrqsOn
  simp only [syscallReturnSlowpath_trace, ia32Dispatch_trace, traced_trace, compat_trace]
  rfl

theorem doSyscall64_slots {checker : Int32} {after : Task ω} {passage : Passage ω}
    (asked : kernel.findder task.uid.toInt32 nr task = some (checker, after))
    (ran : doSyscall64 kernel traceEnter nr task = some passage) :
    passage.slots =
      if number64 kernel traceEnter task.uid.toInt32 nr checker after < kernel.nrSyscalls then
        [number64 kernel traceEnter task.uid.toInt32 nr checker after] else [] := by
  obtain ⟨left, same, trace⟩ := doSyscall64_trace traceEnter asked
  rw [ran] at same
  cases same
  rw [Passage.slots, trace]
  split <;> split <;> rfl

theorem doSyscall64_pairs {checker : Int32} {after : Task ω} {passage : Passage ω}
    (asked : kernel.findder task.uid.toInt32 nr task = some (checker, after))
    (ran : doSyscall64 kernel traceEnter nr task = some passage) :
    passage.pairs = [(task.uid.toInt32, nr)] := by
  obtain ⟨left, same, trace⟩ := doSyscall64_trace traceEnter asked
  rw [ran] at same
  cases same
  rw [Passage.pairs, trace]
  split <;> split <;> rfl

theorem doSyscall32IrqsOn_slots (passage : Passage ω) :
    (doSyscall32IrqsOn kernel traceEnter passage).slots =
      passage.slots ++
        if number32 kernel traceEnter passage < kernel.ia32NrSyscalls then
          [(number32 kernel traceEnter passage).toUInt64] else [] := by
  rw [Passage.slots, doSyscall32IrqsOn_trace, Passage.slots]
  split <;> simp [Event.slot, List.filterMap_cons]

theorem doSyscall32IrqsOn_pairs (passage : Passage ω) :
    (doSyscall32IrqsOn kernel traceEnter passage).pairs = passage.pairs := by
  rw [Passage.pairs, doSyscall32IrqsOn_trace, Passage.pairs]
  split <;> simp [Event.pair, List.filterMap_cons]

end Whole

/-! ### Blocked calls -/

/-- What the caller of a blocked system call should see: no handler ran, the
result is `-EACCES`, and the kernel was entered once and left once. -/
structure Refused (passage : Passage ω) : Prop where
  notInvoked : passage.slots = []
  result : passage.task.ax = unsignedLong (-EACCES)
  paired : passage.trace.filter (fun event =>
    event == .enterFromUserMode || event == .prepareExitToUsermode) =
      [.enterFromUserMode, .prepareExitToUsermode]

def BlockedNotExecuted (kernel : Kernel ω) (traceEnter : Task ω → UInt64 × Task ω) (nr : UInt64)
    (task : Task ω) : Prop :=
  ∀ after, kernel.findder task.uid.toInt32 nr task = some (1, after) →
    ∃ passage, doSyscall64 kernel traceEnter nr task = some passage ∧ Refused passage

/-- A call that the hook reports leaves the kernel twice: once in the branch
that refuses it and once after it was dispatched all the same. -/
theorem not_refused_of_blocked {kernel : Kernel ω} {traceEnter : Task ω → UInt64 × Task ω}
    {nr : UInt64} {task after : Task ω} {passage : Passage ω}
    (blocked : kernel.findder task.uid.toInt32 nr task = some (1, after))
    (ran : doSyscall64 kernel traceEnter nr task = some passage) : ¬ Refused passage := by
  obtain ⟨left, same, trace⟩ := doSyscall64_trace traceEnter blocked
  rw [ran] at same
  cases same
  intro refused
  have paired := refused.paired
  rw [trace] at paired
  have lengths := congrArg List.length paired
  by_cases within : number64 kernel traceEnter task.uid.toInt32 nr 1 after < kernel.nrSyscalls
  · simp [if_pos within] at lengths
  · simp [if_neg within] at lengths

/-- The entry refuses a call that the hook reports only where the hook reports
none. -/
theorem blockedNotExecuted_iff (kernel : Kernel ω) (traceEnter : Task ω → UInt64 × Task ω)
    (nr : UInt64) (task : Task ω) :
    BlockedNotExecuted kernel traceEnter nr task ↔
      ∀ after, kernel.findder task.uid.toInt32 nr task ≠ some (1, after) := by
  constructor
  · intro executed after blocked
    obtain ⟨passage, ran, refused⟩ := executed after blocked
    exact not_refused_of_blocked blocked ran refused
  · intro silent after blocked
    exact absurd blocked (silent after)

def quietKernel : Kernel Unit :=
  { nrSyscalls := 437
    ia32NrSyscalls := 437
    syscallMask := 0xFFFFFFFFFFFFFFFF
    tifWorkSyscallEntry := 0x100001C1
    tifSyscallEmu := 0x40
    tifSyscallTrace := 0x1
    tifSyscallAudit := 0x80
    tifSyscallTracepoint := 0x10000000
    tifSeccomp := 0x100
    tifSinglestep := 0x10
    tsCompat := 0x2
    configSeccomp := true
    configProveLocking := false
    configIa32Emulation := true
    getHash := getHashs
    stray := fun _ _ _ => none
    userExitIrqoff := id
    prepareExitToUsermode := id
    tracehookReportSyscallEntry := fun task => (0, task)
    secureComputing := fun task => (0, task)
    traceSysEnter := id
    doAuditSyscallEntry := id
    rseqSyscall := id
    auditSyscallExit := id
    traceSysExit := id
    tracehookReportSyscallExit := fun _ => id
    sysCallTable := fun _ task => (0, task)
    ia32SysCallTable := fun _ task => (0, task) }

def blockedTask : Task Unit :=
  { ax := 0
    origAx := 59
    flags := 0
    status := 0
    uid := 5
    irqs := false
    sandbox := (startUp boot).withRow 59 (((startUp boot).row 59).accepted 5 59)
      { locked := false, taken := 1 }
    world := () }

theorem blockedTask_lists : (blockedTask.sandbox.row 59).Lists 5 59 := by decide +kernel

theorem blocked_execve_dispatched :
    ¬ BlockedNotExecuted quietKernel (syscallTraceEnter quietKernel) 59 blockedTask := by
  obtain ⟨sandbox, asked⟩ :=
    findder_task quietKernel 5 59 rfl (by decide) (by decide) blockedTask
  rw [if_pos blockedTask_lists] at asked
  intro executed
  obtain ⟨passage, ran, refused⟩ := executed _ asked
  have number : number64 quietKernel (syscallTraceEnter quietKernel) blockedTask.uid.toInt32 59 1
      { blockedTask with sandbox := sandbox } = 59 := by
    have flags : (arrived quietKernel blockedTask.uid.toInt32 59 1
        { blockedTask with sandbox := sandbox }).task.flags = 0 := rfl
    rw [number64, traced_fst, flags, if_neg (by decide)]
    decide
  have invoked := doSyscall64_slots asked ran
  rw [refused.notInvoked, number] at invoked
  exact absurd invoked (by decide)

/-! ### The number checked and the number dispatched -/

inductive Path where
  | syscall64 (nr : UInt64)
  | irqs32
  | int80
  deriving DecidableEq, Repr

def Path.run (kernel : Kernel ω) (traceEnter : Task ω → UInt64 × Task ω) :
    Path → Task ω → Option (Passage ω)
  | .syscall64 nr, task => doSyscall64 kernel traceEnter nr task
  | .irqs32, task => some (doSyscall32IrqsOn kernel traceEnter { task := task, trace := [] })
  | .int80, task => some (doInt80Syscall32 kernel traceEnter { task := task, trace := [] })

/-- Every handler that ran sits in a slot that the hook was asked about for the
caller. -/
def Mediated (kernel : Kernel ω) (traceEnter : Task ω → UInt64 × Task ω) (path : Path)
    (task : Task ω) : Prop :=
  ∀ passage, path.run kernel traceEnter task = some passage →
    ∀ slot ∈ passage.slots, (task.uid.toInt32, slot) ∈ passage.pairs

/-- The number that tracing and the mask leave is the number passed, or no
handler has it; on the 32-bit paths, no handler has it. -/
def Agrees (kernel : Kernel ω) (traceEnter : Task ω → UInt64 × Task ω) (path : Path)
    (task : Task ω) : Prop :=
  match path with
  | .syscall64 nr => ∀ checker after,
      kernel.findder task.uid.toInt32 nr task = some (checker, after) →
        number64 kernel traceEnter task.uid.toInt32 nr checker after < kernel.nrSyscalls →
          number64 kernel traceEnter task.uid.toInt32 nr checker after = nr
  | .irqs32 =>
      ¬ number32 kernel traceEnter { task := task, trace := [] } < kernel.ia32NrSyscalls
  | .int80 =>
      ¬ number32 kernel traceEnter
        (localIrqEnable (enterFromUserMode kernel { task := task, trace := [] })) <
          kernel.ia32NrSyscalls

section Mediation

variable {kernel : Kernel ω} {traceEnter : Task ω → UInt64 × Task ω} {task : Task ω}

private theorem mediated64 (nr : UInt64) :
    Mediated kernel traceEnter (.syscall64 nr) task ↔
      Agrees kernel traceEnter (.syscall64 nr) task := by
  constructor
  · intro mediated checker after asked within
    obtain ⟨passage, ran, _⟩ := doSyscall64_trace traceEnter asked
    have consulted :=
      mediated passage ran (number64 kernel traceEnter task.uid.toInt32 nr checker after)
    rw [doSyscall64_slots asked ran, if_pos within, doSyscall64_pairs asked ran] at consulted
    exact (Prod.mk.inj (List.mem_singleton.mp (consulted (List.mem_singleton.mpr rfl)))).2
  · intro agrees passage ran slot invoked
    cases asked : kernel.findder task.uid.toInt32 nr task with
    | none =>
        have trapped := doSyscall64_trap traceEnter asked
        rw [Path.run, trapped] at ran
        cases ran
    | some out =>
        rcases out with ⟨checker, after⟩
        rw [doSyscall64_slots asked ran] at invoked
        by_cases within :
            number64 kernel traceEnter task.uid.toInt32 nr checker after < kernel.nrSyscalls
        · rw [if_pos within, List.mem_singleton] at invoked
          rw [doSyscall64_pairs asked ran, List.mem_singleton, invoked]
          exact congrArg _ (agrees checker after asked within)
        · rw [if_neg within] at invoked
          cases invoked

private theorem mediated32 {passage : Passage ω} {uid : Int32} (unasked : passage.pairs = [])
    (fresh : passage.slots = []) :
    (∀ slot ∈ (doSyscall32IrqsOn kernel traceEnter passage).slots,
        (uid, slot) ∈ (doSyscall32IrqsOn kernel traceEnter passage).pairs) ↔
      ¬ number32 kernel traceEnter passage < kernel.ia32NrSyscalls := by
  rw [doSyscall32IrqsOn_slots, doSyscall32IrqsOn_pairs, unasked, fresh]
  by_cases within : number32 kernel traceEnter passage < kernel.ia32NrSyscalls
  · simp [within]
  · simp [within]

end Mediation

/-- On every path, for every way of tracing and every mask, the number that is
dispatched is one that the hook was asked about exactly when the numbers agree. -/
theorem mediated_iff_agrees (kernel : Kernel ω) (traceEnter : Task ω → UInt64 × Task ω)
    (path : Path) (task : Task ω) :
    Mediated kernel traceEnter path task ↔ Agrees kernel traceEnter path task := by
  cases path with
  | syscall64 nr => exact mediated64 nr
  | irqs32 =>
      simp only [Mediated, Path.run, Option.some.injEq, forall_eq']
      exact mediated32 rfl rfl
  | int80 =>
      simp only [Mediated, Path.run, Option.some.injEq, forall_eq']
      exact mediated32 rfl rfl

def tracedKernel : Kernel Unit :=
  { quietKernel with
    tracehookReportSyscallEntry := fun task => (0, { task with origAx := 59 }) }

def tracedTask : Task Unit := { blockedTask with origAx := 39, flags := 0x1 }

/-- The hook is asked about `getpid`, and a tracer has `execve` dispatched; by
`int 0x80` it is not asked at all. -/
theorem execve_unchecked :
    ¬ Mediated tracedKernel (syscallTraceEnter tracedKernel) (.syscall64 39) tracedTask ∧
      ¬ Mediated quietKernel (syscallTraceEnter quietKernel) .int80 { blockedTask with origAx := 11 } := by
  constructor
  · intro mediated
    obtain ⟨sandbox, asked⟩ :=
      findder_task tracedKernel 5 39 rfl (by decide) (by decide) tracedTask
    have number (checker : Int32) :
        number64 tracedKernel (syscallTraceEnter tracedKernel) tracedTask.uid.toInt32 39 checker
          { tracedTask with sandbox := sandbox } = 59 := by
      rw [number64, traced_fst]
      have flags : (arrived tracedKernel tracedTask.uid.toInt32 39 checker
          { tracedTask with sandbox := sandbox }).task.flags = 1 := by
        unfold arrived refuse
        split <;> rfl
      rw [flags, if_pos (by decide)]
      rw [syscallTraceEnter_tracer (by rw [flags]; decide) (by rw [flags]; decide)
        (by rw [flags]; decide) rfl]
      have masked : (59 : UInt64) &&& tracedKernel.syscallMask = 59 := by decide
      split <;> exact masked
    have same := (mediated64 39).mp mediated _ _ asked
    rw [number] at same
    exact absurd (same (by decide)) (by decide)
  · intro mediated
    simp only [Mediated, Path.run, Option.some.injEq, forall_eq'] at mediated
    exact (mediated32 rfl rfl).mp mediated (by decide)

end CS421.Entry
