import X11Os.Arch.KernelTask

/-!
# The kernel runtime

The owner of the kernel tasks on the single CPU (`arch/x86_64/runtime.rs`, `scheduler/reschedule.rs`).
-/

namespace X11Os

open Word

inductive YieldError where
  | nullCurrent
  | nullNext
  | sameContext
  | currentUninitialized
  | nextUninitialized
deriving DecidableEq, Repr

inductive RuntimeBindingError where
  | null
  | alreadyBound
deriving DecidableEq, Repr

inductive RuntimeError where
  | task (error : KernelTaskError)
  | noRunnableTask
  | missingExecutionPair
  | userspaceTaskRequiresSystemRuntime
  | yield (error : YieldError)
  | preemptionDisabled
  | interruptedState (error : ExecutionError)
  | cpuBinding (error : RuntimeBindingError)
  | interruptedTaskRequiresIret
deriving DecidableEq, Repr

structure KernelRuntime where
  manager : KernelTaskManager
  bootContext : Context
  reschedule : Bool
  preemptionDepth : Nat

namespace KernelRuntime

def new : KernelRuntime := ⟨.new, .empty, false, 0⟩

def requestReschedule (r : KernelRuntime) : KernelRuntime := { r with reschedule := true }

def spawn (r : KernelRuntime) (priority : Priority) (placement : Option Placement) :
    KernelRuntime × Except RuntimeError TaskId :=
  let (manager, result) := r.manager.spawn priority placement
  ({ r with manager }, result.mapError .task)

/-! ### Interrupted states -/

/-- The state that the timer has captured moves to the execution of the current task. -/
def commitInterruptedState (r : KernelRuntime) (cpu : Cpu) : KernelRuntime × Cpu × Except RuntimeError Unit :=
  match cpu.currentTask with
  | none => (r, cpu, if cpu.interrupted.isSome then .error .missingExecutionPair else .ok ())
  | some taskId =>
    match r.manager.executions.get taskId with
    | none => (r, cpu, .error .missingExecutionPair)
    | some binding =>
      if binding.interrupted.isSome then (r, cpu, .error (.interruptedState .interruptedStateAlreadyPresent))
      else
        match cpu.interrupted with
        | none => (r, cpu, .ok ())
        | some (capturedTask, snapshot) =>
          if capturedTask ≠ taskId then (r, cpu, .error .missingExecutionPair)
          else
            let (executions, result) := r.manager.executions.installInterrupted taskId snapshot
            ({ r with manager.executions := executions }, { cpu with interrupted := none },
              result.mapError .interruptedState)

/-- Of the runtime, only the executions change. -/
theorem commitInterruptedState_eq (r : KernelRuntime) (cpu : Cpu) :
    ∃ executions, (r.commitInterruptedState cpu).1 = { r with manager.executions := executions } := by
  unfold commitInterruptedState
  split
  · exact ⟨r.manager.executions, rfl⟩
  · split
    · exact ⟨r.manager.executions, rfl⟩
    · split_ifs
      · exact ⟨r.manager.executions, rfl⟩
      · split
        · exact ⟨r.manager.executions, rfl⟩
        · split_ifs
          · exact ⟨r.manager.executions, rfl⟩
          · exact ⟨_, rfl⟩

/-! ### Voluntary switches -/

/-- A context switch: the task that the scheduler has moved away from, the task that gets the CPU and the context
that it gets. -/
structure Switch where
  previous : Option TaskId
  next : TaskId
  restored : Context
deriving DecidableEq, Repr

/-- The checks of the head of the ready queue. -/
def checkCandidate (r : KernelRuntime) : Except RuntimeError Unit :=
  match r.manager.scheduler.nextReady with
  | none => .ok ()
  | some candidate =>
    if r.manager.scheduler.taskKind candidate = some .userspace then .error .userspaceTaskRequiresSystemRuntime
    else
      match r.manager.executions.preemptionPlan candidate with
      | some (.iretKernel _ _) => .error .interruptedTaskRequiresIret
      | _ => .ok ()

/-- `activate_first` from the boot thread: `saved` is what the switch stores for the caller. -/
def activateFirst (r : KernelRuntime) (cpu : Cpu) (next : TaskId) (saved : Context) :
    KernelRuntime × Cpu × Except RuntimeError Switch :=
  match r.manager.executions.get next with
  | none => (r, cpu, .error .missingExecutionPair)
  | some binding =>
    -- the scheduler has dispatched `next` already; only the CPU is taken back
    if !binding.context.isInitialized then (r, { cpu with currentTask := none }, .error (.yield .nextUninitialized))
    else ({ r with bootContext := saved }, { cpu with currentTask := some next }, .ok ⟨none, next, binding.context⟩)

/-- `yield_switch::switch` between two tasks. -/
def switchTasks (r : KernelRuntime) (cpu : Cpu) (previous next : TaskId) (saved : Context) :
    KernelRuntime × Cpu × Except RuntimeError Switch :=
  match r.manager.executions.contextPair previous next with
  | none => (r, cpu, .error .missingExecutionPair)
  | some (current, nextContext) =>
    if !current.isInitialized then
      (r, { cpu with currentTask := some previous }, .error (.yield .currentUninitialized))
    else if !nextContext.isInitialized then
      (r, { cpu with currentTask := some previous }, .error (.yield .nextUninitialized))
    else
      ({ r with manager.executions := r.manager.executions.setContext previous saved },
        { cpu with currentTask := some next }, .ok ⟨some previous, next, nextContext⟩)

/-- `dispatch_once` up to the switch.  The caller goes on after the switch when its context is restored
(`afterSwitch`). -/
def dispatchOnce (r : KernelRuntime) (cpu : Cpu) (saved : Context) :
    KernelRuntime × Cpu × Except RuntimeError Switch :=
  match r.checkCandidate with
  | .error error => (r, cpu, .error error)
  | .ok () =>
    match r.manager.prepareDispatch cpu with
    | (manager, cpu, .error error) => ({ r with manager }, cpu, .error (.task error))
    | (manager, cpu, .ok decision) =>
      let r := { r with manager }
      match decision.next with
      | none => (r, cpu, .error .noRunnableTask)
      | some next =>
        if r.manager.scheduler.taskKind next = some .userspace then
          (r, cpu, .error .userspaceTaskRequiresSystemRuntime)
        else
          match decision.previous with
          | none => r.activateFirst cpu next saved
          | some previous => r.switchTasks cpu previous next saved

/-- What `dispatch_once` does when it goes on after its switch. -/
def afterSwitch (previous : Option TaskId) (cpu : Cpu) : Cpu := { cpu with currentTask := previous }

/-- `yield_current` on a CPU to which the runtime is bound. -/
def yieldCurrent (r : KernelRuntime) (cpu : Cpu) (saved : Context) :
    KernelRuntime × Cpu × Except RuntimeError Switch :=
  r.requestReschedule.dispatchOnce cpu saved

def safeReschedulePoint (r : KernelRuntime) (cpu : Cpu) (saved : Context) :
    KernelRuntime × Cpu × Except RuntimeError (Option Switch) :=
  if r.preemptionDepth ≠ 0 then (r, cpu, .error .preemptionDisabled)
  else if !r.reschedule then (r, cpu, .ok none)
  else
    match { r with reschedule := false }.commitInterruptedState cpu with
    | (r, cpu, .error error) => (r, cpu, .error error)
    | (r, cpu, .ok ()) =>
      match r.dispatchOnce cpu saved with
      | (r, cpu, .ok switch) => (r, cpu, .ok (some switch))
      | (r, cpu, .error .interruptedTaskRequiresIret) =>
        (r.requestReschedule, cpu, .error .interruptedTaskRequiresIret)
      | (r, cpu, .error error) => (r, cpu, .error error)

def prepareRun (r : KernelRuntime) (cpu : Cpu) : KernelRuntime × Cpu × Except RuntimeError TaskId :=
  match r.manager.prepareDispatch cpu with
  | (manager, cpu, .error error) => ({ r with manager }, cpu, .error (.task error))
  | (manager, cpu, .ok decision) =>
    let r := { r with manager }
    match decision.next with
    | none => (r, cpu, .error .noRunnableTask)
    | some next =>
      if r.manager.scheduler.taskKind next = some .userspace then
        (r, cpu, .error .userspaceTaskRequiresSystemRuntime)
      else (r, cpu, .ok next)

/-! ### The timer -/

inductive InterruptPreemption where
  | resumeCurrent
  | returnToContext (context : Context)
  | returnToKernel (state : InterruptedState)
deriving DecidableEq, Repr

/-- The switch to the candidate of a preemption, with the plan that was made for it. -/
def finishPreemption (r : KernelRuntime) (cpu : Cpu) (candidate : TaskId) :
    PreemptionPlan → KernelRuntime × Cpu × Except RuntimeError InterruptPreemption
  | .returnToContext _ context =>
    ({ r with reschedule := false }, { cpu with currentTask := some candidate }, .ok (.returnToContext context))
  | .iretKernel _ _ =>
    match r.manager.executions.takeKernelPreemptState candidate with
    | (executions, none) =>
      ({ r with manager.executions := executions }.requestReschedule, cpu, .error .missingExecutionPair)
    | (executions, some state) =>
      ({ r with manager.executions := executions, reschedule := false }, { cpu with currentTask := some candidate },
        .ok (.returnToKernel state))

/-- The preemption of the current task by `candidate`. -/
def preempt (r : KernelRuntime) (cpu : Cpu) (candidate : TaskId) (plan : PreemptionPlan) :
    KernelRuntime × Cpu × Except RuntimeError InterruptPreemption :=
  match r.commitInterruptedState cpu with
  | (r, cpu, .error error) => (r.requestReschedule, cpu, .error error)
  | (r, cpu, .ok ()) =>
    match r.manager.prepareDispatch cpu with
    -- the snapshot has been committed at this point and stays stored
    | (manager, cpu, .error error) => ({ r with manager }.requestReschedule, cpu, .error (.task error))
    | (manager, cpu, .ok decision) =>
      let r := { r with manager }
      if decision.next ≠ some candidate then (r.requestReschedule, cpu, .error .missingExecutionPair)
      else r.finishPreemption cpu candidate plan

def handleTimerPreemption (r : KernelRuntime) (cpu : Cpu) :
    KernelRuntime × Cpu × Except RuntimeError InterruptPreemption :=
  let cpu := { cpu with timerPending := false }
  let discarded := { cpu with interrupted := none }
  if r.preemptionDepth ≠ 0 then (r.requestReschedule, discarded, .ok .resumeCurrent)
  else
    let r := { r with manager := (r.manager.expireSleepers cpu.timerTicks).1 }
    match r.manager.scheduler.nextReady with
    | none => (r.requestReschedule, discarded, .ok .resumeCurrent)
    | some candidate =>
      if r.manager.scheduler.taskKind candidate = some .userspace then
        -- the only exit before the plan that does not discard the snapshot
        (r.requestReschedule, cpu, .error .userspaceTaskRequiresSystemRuntime)
      else if some candidate = r.manager.scheduler.current then (r, discarded, .ok .resumeCurrent)
      else
        match r.manager.executions.preemptionPlan candidate with
        | none => (r.requestReschedule, discarded, .error .missingExecutionPair)
        | some plan => r.preempt cpu candidate plan

def serviceTimer (r : KernelRuntime) (now : U64) : KernelRuntime × Nat :=
  let (manager, woken) := r.manager.expireSleepers now
  ({ r with manager }.requestReschedule, woken)

def sleepCurrentUntil (r : KernelRuntime) (deadline : U64) : KernelRuntime × Except KernelTaskError TaskId :=
  let (manager, result) := r.manager.sleepCurrentUntil deadline
  ({ r with manager }, result)

end KernelRuntime

end X11Os
