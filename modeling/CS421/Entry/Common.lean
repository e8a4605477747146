/-
The system call entry of common.c, with the hook that the sandbox adds to it.

The parts of the kernel that the entry code calls are parameters. Each may
change the task in any way: its registers, flags and uid, the sandbox table and
everything else. What the entry code itself does is translated, and a trace
records in order what it consults, dispatches, enters and leaves. Warnings,
lockdep checks and debug assertions are left out: nothing reads them back.
-/

import CS421.Sandbox.Rows

set_option autoImplicit false

namespace CS421.Entry

open Sandbox

/-- What the entry code reads or writes of a task; `world` is all the rest that
a kernel function may touch. -/
structure Task (ω : Type) where
  ax : UInt64
  origAx : UInt64
  /-- `ti->flags`, of which the code looks at the low half only. -/
  flags : UInt32
  status : UInt32
  uid : UInt32
  irqs : Bool
  sandbox : Sandbox.State
  world : ω

structure Kernel (ω : Type) where
  nrSyscalls : UInt64
  ia32NrSyscalls : UInt32
  syscallMask : UInt64
  tifWorkSyscallEntry : UInt32
  tifSyscallEmu : UInt32
  tifSyscallTrace : UInt32
  tifSyscallAudit : UInt32
  tifSyscallTracepoint : UInt32
  tifSeccomp : UInt32
  tifSinglestep : UInt32
  tsCompat : UInt32
  configSeccomp : Bool
  configProveLocking : Bool
  configIa32Emulation : Bool
  getHash : Int32 → Int32
  /-- An access of `findder` outside its arrays: it traps, or it reads whatever
  lies there. -/
  stray : Int32 → UInt64 → Task ω → Option (Int32 × Task ω)
  userExitIrqoff : Task ω → Task ω
  prepareExitToUsermode : Task ω → Task ω
  tracehookReportSyscallEntry : Task ω → Int32 × Task ω
  secureComputing : Task ω → Int32 × Task ω
  traceSysEnter : Task ω → Task ω
  doAuditSyscallEntry : Task ω → Task ω
  rseqSyscall : Task ω → Task ω
  auditSyscallExit : Task ω → Task ω
  traceSysExit : Task ω → Task ω
  tracehookReportSyscallExit : Bool → Task ω → Task ω
  sysCallTable : UInt64 → Task ω → UInt64 × Task ω
  ia32SysCallTable : UInt32 → Task ω → UInt64 × Task ω

inductive Event where
  | findder (uid : Int32) (nr : UInt64) (answer : Int32)
  | enterFromUserMode
  | prepareExitToUsermode
  | sysCall (slot : UInt64)
  | ia32SysCall (slot : UInt32)
  deriving DecidableEq, Repr

structure Passage (ω : Type) where
  task : Task ω
  trace : List Event

variable {ω : Type}

def Passage.act (passage : Passage ω) (action : Task ω → Task ω) : Passage ω :=
  { passage with task := action passage.task }

def Passage.mark (passage : Passage ω) (event : Event) : Passage ω :=
  { passage with trace := passage.trace ++ [event] }

def localIrqEnable (passage : Passage ω) : Passage ω :=
  passage.act (fun task => { task with irqs := true })

def localIrqDisable (passage : Passage ω) : Passage ω :=
  passage.act (fun task => { task with irqs := false })

def enterFromUserMode (kernel : Kernel ω) (passage : Passage ω) : Passage ω :=
  (passage.mark .enterFromUserMode).act kernel.userExitIrqoff

def prepareExitToUsermode (kernel : Kernel ω) (passage : Passage ω) : Passage ω :=
  (passage.mark .prepareExitToUsermode).act kernel.prepareExitToUsermode

def unsignedLong (value : Int64) : UInt64 := value.toUInt64

def syscallTraceEnter (kernel : Kernel ω) (task : Task ω) : UInt64 × Task ω :=
  let work := task.flags &&& kernel.tifWorkSyscallEntry
  let emulated := work &&& kernel.tifSyscallEmu != 0
  let (stop, task) :=
    if emulated || work &&& kernel.tifSyscallTrace != 0 then
      kernel.tracehookReportSyscallEntry task
    else (0, task)
  if stop != 0 then (unsignedLong (-1), task)
  else if emulated then (unsignedLong (-1), task)
  else
    -- Seccomp comes after ptrace, to catch any tracer changes.
    let (ret, task) :=
      if kernel.configSeccomp && work &&& kernel.tifSeccomp != 0 then
        kernel.secureComputing task
      else (0, task)
    if ret == -1 then (unsignedLong ret.toInt64, task)
    else
      let task :=
        if task.flags &&& kernel.tifSyscallTracepoint != 0 then kernel.traceSysEnter task else task
      let task := kernel.doAuditSyscallEntry task
      (if ret != 0 then unsignedLong ret.toInt64 else task.origAx, task)

def Kernel.syscallExitWorkFlags (kernel : Kernel ω) : UInt32 :=
  kernel.tifSyscallTrace ||| kernel.tifSyscallAudit ||| kernel.tifSinglestep |||
    kernel.tifSyscallTracepoint

def syscallSlowExitWork (kernel : Kernel ω) (cachedFlags : UInt32) (task : Task ω) : Task ω :=
  let task := kernel.auditSyscallExit task
  let task :=
    if cachedFlags &&& kernel.tifSyscallTracepoint != 0 then kernel.traceSysExit task else task
  let step :=
    cachedFlags &&& (kernel.tifSinglestep ||| kernel.tifSyscallEmu) == kernel.tifSinglestep
  if step || cachedFlags &&& kernel.tifSyscallTrace != 0 then
    kernel.tracehookReportSyscallExit step task
  else task

def syscallReturnSlowpath (kernel : Kernel ω) (passage : Passage ω) : Passage ω :=
  let cachedFlags := passage.task.flags
  let passage :=
    if kernel.configProveLocking && !passage.task.irqs then localIrqEnable passage else passage
  let passage := passage.act kernel.rseqSyscall
  let passage :=
    if cachedFlags &&& kernel.syscallExitWorkFlags != 0 then
      passage.act (syscallSlowExitWork kernel cachedFlags)
    else passage
  prepareExitToUsermode kernel (localIrqDisable passage)

def Kernel.findder (kernel : Kernel ω) (uid : Int32) (nr : UInt64) (task : Task ω) :
    Option (Int32 × Task ω) :=
  match Sandbox.findder kernel.getHash uid nr task.sandbox with
  | .ok (answer, sandbox) => some (answer, { task with sandbox := sandbox })
  | .error _ => kernel.stray uid nr task

/-- Lines 303 to 307. No `return` ends the branch. -/
def refuse (kernel : Kernel ω) (checker : Int32) (passage : Passage ω) : Passage ω :=
  if checker == 1 then
    let passage := passage.act (fun task => { task with ax := unsignedLong (-EACCES) })
    prepareExitToUsermode kernel (localIrqDisable passage)
  else passage

/-- Lines 312 and 313, and lines 346 to 354: the number after tracing. -/
def traced (kernel : Kernel ω) (traceEnter : Task ω → UInt64 × Task ω) (nr : UInt64)
    (passage : Passage ω) : UInt64 × Passage ω :=
  if passage.task.flags &&& kernel.tifWorkSyscallEntry != 0 then
    let (nr, task) := traceEnter passage.task
    (nr, { passage with task := task })
  else (nr, passage)

def arrayIndexNospec (index size : UInt64) : UInt64 := if index < size then index else 0

/-- Lines 320 to 324, for a number that is masked already. -/
def dispatch (kernel : Kernel ω) (nr : UInt64) (passage : Passage ω) : Passage ω :=
  if nr < kernel.nrSyscalls then
    let nr := arrayIndexNospec nr kernel.nrSyscalls
    let (ax, task) := kernel.sysCallTable nr passage.task
    { task := { task with ax := ax }, trace := passage.trace ++ [.sysCall nr] }
  else passage

/-- `traceEnter` is what tracing does and answers: `syscallTraceEnter kernel`,
or any other action. The result is absent when the hook traps. -/
def doSyscall64 (kernel : Kernel ω) (traceEnter : Task ω → UInt64 × Task ω) (nr : UInt64)
    (task : Task ω) : Option (Passage ω) := do
  let ids := task.uid.toInt32
  let (checker, task) ← kernel.findder ids nr task
  let passage := refuse kernel checker { task := task, trace := [.findder ids nr checker] }
  let passage := localIrqEnable (enterFromUserMode kernel passage)
  let (nr, passage) := traced kernel traceEnter nr passage
  let passage := dispatch kernel (nr &&& kernel.syscallMask) passage
  return syscallReturnSlowpath kernel passage

/-- Lines 342 to 344. -/
def compat (kernel : Kernel ω) (passage : Passage ω) : Passage ω :=
  if kernel.configIa32Emulation then
    passage.act (fun task => { task with status := task.status ||| kernel.tsCompat })
  else passage

/-- Lines 356 to 375; without the emulation the handler gets its arguments from
the registers, which are part of the task. -/
def ia32Dispatch (kernel : Kernel ω) (nr : UInt32) (passage : Passage ω) : Passage ω :=
  if nr < kernel.ia32NrSyscalls then
    let nr := (arrayIndexNospec nr.toUInt64 kernel.ia32NrSyscalls.toUInt64).toUInt32
    let (ax, task) := kernel.ia32SysCallTable nr passage.task
    { task := { task with ax := ax }, trace := passage.trace ++ [.ia32SysCall nr] }
  else passage

def doSyscall32IrqsOn (kernel : Kernel ω) (traceEnter : Task ω → UInt64 × Task ω)
    (passage : Passage ω) : Passage ω :=
  let nr := passage.task.origAx.toUInt32.toUInt64
  let (nr, passage) := traced kernel traceEnter nr (compat kernel passage)
  -- `nr` is an `unsigned int`, so a traced number is truncated.
  let passage := ia32Dispatch kernel nr.toUInt32 passage
  syscallReturnSlowpath kernel passage

def doInt80Syscall32 (kernel : Kernel ω) (traceEnter : Task ω → UInt64 × Task ω)
    (passage : Passage ω) : Passage ω :=
  doSyscall32IrqsOn kernel traceEnter (localIrqEnable (enterFromUserMode kernel passage))

end CS421.Entry
