import X11Os.Arch.Runtime
import X11Os.Arch.UserExecution
import X11Os.Lib.Transaction

/-!
# The system runtime

The owner of the processes, of the kernel runtime and of the userspace executions (`arch/x86_64/system_runtime.rs`,
`arch/x86_64/user_successor.rs`).  A call that also works on the CPU is a computation over `System`.
-/

namespace X11Os

open Word Exec

structure SystemRuntime where
  processes : ProcessManager
  runtime : KernelRuntime
  userspace : UserExecutionRegistry
  currentProcess : Option ProcessId
  pendingExit : Option (ProcessId × TaskId × U64)

inductive UserSuccessorError where
  | noReadyTask
  | notUserspace
  | missingBinding
  | processBindingMismatch
  | taskNotReady
deriving DecidableEq, Repr

inductive SystemRuntimeError where
  | runtime (error : RuntimeError)
  | userBinding (error : UserExecutionRegistryError)
  | process (error : ProcessManagerError)
  | addressSpaceMismatch
  | noCurrentProcess
  | taskBindingMismatch
  | schedulerTaskNotReady
  | successor (error : UserSuccessorError)
  | kernelStackUnavailable
deriving DecidableEq, Repr

namespace SystemRuntime

def new : SystemRuntime := ⟨.new, .new, .new, none, none⟩

def scheduler (s : SystemRuntime) : Scheduler := s.runtime.manager.scheduler

def executions (s : SystemRuntime) : ExecutionRegistry := s.runtime.manager.executions

/-- Writing through the references to the scheduler and to the execution registry. -/
def setTasks (s : SystemRuntime) (scheduler : Scheduler) (executions : ExecutionRegistry) : SystemRuntime :=
  { s with runtime.manager := { s.runtime.manager with scheduler, executions } }

/-! ### Spawning -/

def spawnUserReady (s : SystemRuntime) (image : ProcessImage) (launch : PreparedUserLaunch) (priority : Priority)
    (placement : Option Placement) : SystemRuntime × Except SystemRuntimeError (ProcessId × TaskId) :=
  let addressSpace := image.addressSpace.id
  if launch.addressSpace ≠ addressSpace then (s, .error .addressSpaceMismatch)
  else
    let (scheduler, task) := s.scheduler.createUserTask priority
    match scheduler.attachExecution task with
    | (scheduler, .error error) =>
      (s.setTasks (scheduler.destroyCreated task).1 s.executions, .error (.runtime (.task (.scheduler error))))
    | (scheduler, .ok execution) =>
      match s.executions.insert execution placement with
      | (executions, .error error) =>
        (s.setTasks (scheduler.destroyCreated task).1 executions, .error (.runtime (.task (.registry error))))
      | (executions, .ok ()) =>
        match s.processes.spawnReady image task execution addressSpace with
        | (processes, .error error) =>
          ({ s.setTasks (scheduler.destroyCreated task).1 (executions.remove execution).1 with processes },
            .error (.process error))
        | (processes, .ok spawned) =>
          match UserExecutionBinding.new spawned.id task addressSpace launch with
          | .error _ =>
            ({ s.setTasks (scheduler.destroyCreated task).1 (executions.remove execution).1 with
                processes := (processes.abortReady spawned.id).1 }, .error .addressSpaceMismatch)
          | .ok binding =>
            match s.userspace.insert binding with
            | (userspace, .error error) =>
              ({ s.setTasks (scheduler.destroyCreated task).1 (executions.remove execution).1 with
                  processes := (processes.abortReady spawned.id).1
                  userspace }, .error (.userBinding error))
            | (userspace, .ok ()) =>
              match scheduler.makeReady task with
              | (scheduler, false) =>
                ({ s.setTasks (scheduler.destroyCreated task).1 (executions.remove execution).1 with
                    processes := (processes.abortReady spawned.id).1
                    userspace := (userspace.remove task).1 }, .error .taskBindingMismatch)
              | (scheduler, true) =>
                ({ s.setTasks scheduler executions with processes, userspace }, .ok (spawned.id, task))

/-! ### The successor -/

structure UserSuccessorPlan where
  process : ProcessId
  task : TaskId
  binding : UserExecutionBinding
deriving DecidableEq, Repr

/-- The head of the ready queue, if it is a userspace task whose process is bound to it and ready. -/
def selectUserspaceSuccessor (s : SystemRuntime) (currentTask : Option TaskId) :
    Except UserSuccessorError UserSuccessorPlan :=
  match s.scheduler.nextReady with
  | none => .error .noReadyTask
  | some task =>
    if some task = currentTask then .error .taskNotReady
    else if s.scheduler.taskKind task ≠ some .userspace then .error .notUserspace
    else if s.scheduler.state task ≠ some .ready then .error .taskNotReady
    else
      match s.userspace.get task with
      | none => .error .missingBinding
      | some binding =>
        match s.processes.binding binding.process with
        | .error _ => .error .processBindingMismatch
        | .ok none => .error .processBindingMismatch
        | .ok (some processBinding) =>
          if processBinding.task ≠ task ∨ processBinding.addressSpace ≠ binding.addressSpace ∨
              s.processes.state binding.process ≠ .ok .ready then .error .processBindingMismatch
          else .ok ⟨binding.process, task, binding⟩

/-- What the selection has checked. -/
structure Selected (s : SystemRuntime) (currentTask : Option TaskId) (plan : UserSuccessorPlan) : Prop where
  next : s.scheduler.nextReady = some plan.task
  other : currentTask ≠ some plan.task
  kind : s.scheduler.taskKind plan.task = some .userspace
  state : s.scheduler.state plan.task = some .ready
  user : s.userspace.get plan.task = some plan.binding
  process : plan.binding.process = plan.process
  bound : ∃ b : ProcessExecutionBinding, s.processes.binding plan.process = .ok (some b) ∧ b.task = plan.task ∧
    b.addressSpace = plan.binding.addressSpace
  ready : s.processes.state plan.process = .ok .ready

theorem selectUserspaceSuccessor_eq_ok {s : SystemRuntime} {currentTask : Option TaskId} {plan : UserSuccessorPlan} :
    s.selectUserspaceSuccessor currentTask = .ok plan ↔ s.Selected currentTask plan := by
  unfold selectUserspaceSuccessor
  constructor
  · intro h
    split at h
    · cases h
    · rename_i task hnext
      split_ifs at h with hother hkind hstate
      split at h
      · cases h
      · rename_i binding huser
        split at h
        · cases h
        · cases h
        · rename_i processBinding hbound
          split_ifs at h with hmatch
          rw [not_or, not_or, not_not, not_not, not_not] at hmatch
          cases h
          exact ⟨hnext, fun heq => hother heq.symm, not_not.mp hkind, not_not.mp hstate, huser, rfl,
            ⟨processBinding, hbound, hmatch.1, hmatch.2.1⟩, hmatch.2.2⟩
  · rintro ⟨hnext, hother, hkind, hstate, huser, hprocess, ⟨b, hbound, htask, hspace⟩, hready⟩
    simp only [hnext, Ne.symm hother, if_false, hkind, hstate, ne_eq, not_true_eq_false, huser, hbound, htask, hspace,
      hready, or_self, hprocess]

end SystemRuntime

/-- The system runtime and the CPU it drives. -/
structure System extends SystemRuntime where
  cpu : Cpu

namespace System

/-- A call of an operation of the processes, of the scheduler or of the userspace executions. -/
def onProcesses {ε α : Type} (op : ProcessManager → ProcessManager × Except ε α) : Exec System ε α :=
  focus (·.processes) (fun processes s => { s with processes }) op

def onScheduler {ε α : Type} (op : Scheduler → Scheduler × Except ε α) : Exec System ε α :=
  focus (·.scheduler) (fun scheduler s => { s with runtime.manager.scheduler := scheduler }) op

def onUserspace {ε α : Type} (op : UserExecutionRegistry → UserExecutionRegistry × Except ε α) : Exec System ε α :=
  focus (·.userspace) (fun userspace s => { s with userspace }) op

def scheduleNext {ε : Type} : Exec System ε DispatchDecision :=
  onScheduler fun scheduler => (scheduler.scheduleNext.1, .ok scheduler.scheduleNext.2)

/-- The CPU enters the kernel on the stack of the task that it is about to run.  The task state segment is the one
that boot has set up, and the top of a stack is a canonical address: the panics of the source for anything else
are left out. -/
def setKernelStackTop {ε : Type} (stackTop : U64) : Exec System ε Unit :=
  modify fun s => { s with cpu.kernelStackTop := stackTop }

def setCurrentTask {ε : Type} (task : TaskId) : Exec System ε Unit :=
  modify fun s => { s with cpu.currentTask := some task }

/-! ### The first user process -/

/-- The writes of `start_user`; everything has been checked.  The value is the launch that the CPU enters. -/
def finishStart (process : ProcessId) (task : TaskId) (userBinding : UserExecutionBinding) (stackTop : U64) :
    Exec System SystemRuntimeError PreparedUserLaunch := do
  modify fun s => { s with pendingExit := none }
  mapErr .process (onProcesses (·.start process))
  let decision ← scheduleNext
  let s ← get
  reject (decision.next ≠ some task ∨ s.scheduler.current ≠ some task) .taskBindingMismatch
  setKernelStackTop stackTop
  modify fun s => { s with currentProcess := some process }
  setCurrentTask task
  return userBinding.launch

def startUser (process : ProcessId) : Exec System SystemRuntimeError PreparedUserLaunch := do
  let s ← get
  let binding ← orThrow .process (s.processes.binding process)
  let binding ← okOr binding .taskBindingMismatch
  let task := binding.task
  let userBinding ← okOr (s.userspace.get task) .taskBindingMismatch
  reject (userBinding.process ≠ process ∨ userBinding.addressSpace ≠ binding.addressSpace) .taskBindingMismatch
  let state ← orThrow .process (s.processes.state process)
  reject (state ≠ .ready) (.process .invalidTransition)
  let stackTop ← okOr (s.executions.kernelStackTop task) .kernelStackUnavailable
  reject (s.scheduler.state task ≠ some .ready ∨ s.scheduler.nextReady ≠ some task) .schedulerTaskNotReady
  finishStart process task userBinding stackTop

/-! ### Exit -/

/-- A state that has been handed to the CPU is no longer stored; that it is there has been checked. -/
def consumeResume {ε : Type} (transfer : UserReturnTransfer) (task : TaskId) : Exec System ε Unit :=
  if transfer.resume.isSome then do
    let _ ← expect (onUserspace (·.clearResume task))
  else return ()

/-- The writes of `commit_pending_exit`; everything has been checked. -/
def finishExit (process : ProcessId) (task : TaskId) (successor : SystemRuntime.UserSuccessorPlan)
    (transfer : UserReturnTransfer) (execution : ExecutionHandle) (successorStackTop : U64) :
    Exec System SystemRuntimeError UserReturnTransfer := do
  mapErr .process (onProcesses (·.start successor.process))
  -- `exit` takes no code: the one of the request is not passed on
  mapErr .process (onProcesses (·.exit process))
  let _ ← mapErr (fun _ => .taskBindingMismatch) (onScheduler (·.terminateCurrentTo successor.task))
  let _ ← mapErr .userBinding (onUserspace (·.remove task))
  modify fun s => { s with runtime.manager.executions := (s.executions.remove execution).1 }
  consumeResume transfer successor.task
  setKernelStackTop successorStackTop
  modify fun s => { s with currentProcess := some successor.process, pendingExit := none }
  setCurrentTask successor.task
  return transfer

def commitPendingExit : Exec System SystemRuntimeError UserReturnTransfer := do
  let s ← get
  let (process, task, _) ← okOr s.pendingExit .noCurrentProcess
  reject (s.currentProcess ≠ some process ∨ s.scheduler.current ≠ some task) .taskBindingMismatch
  let successor ← orThrow .successor (s.selectUserspaceSuccessor (some task))
  let currentBinding ← orThrow .process (s.processes.binding process)
  let currentBinding ← okOr currentBinding .taskBindingMismatch
  reject (currentBinding.task ≠ task) .taskBindingMismatch
  let state ← orThrow .process (s.processes.state process)
  reject (state ≠ .running) .taskBindingMismatch
  let transfer ← orThrow (fun _ => .taskBindingMismatch)
    ((UserReturnTransfer.new successor.binding).validate (some task))
  let currentExecution ← okOr (s.scheduler.execution task) .taskBindingMismatch
  let successorStackTop ← okOr (s.executions.kernelStackTop successor.task) .kernelStackUnavailable
  finishExit process task successor transfer currentExecution successorStackTop

/-! ### Yield -/

/-- The writes of `commit_userspace_yield_with_snapshot` after the snapshot has been stored. -/
def finishYield (currentProcess : ProcessId) (successor : SystemRuntime.UserSuccessorPlan)
    (transfer : UserReturnTransfer) (successorStackTop : U64) :
    Exec System SystemRuntimeError (Option UserReturnTransfer) := do
  mapErr .process (onProcesses (·.yieldTo currentProcess successor.process))
  let decision ← scheduleNext
  let s ← get
  reject (decision.next ≠ some successor.task ∨ s.scheduler.current ≠ some successor.task) .taskBindingMismatch
  consumeResume transfer successor.task
  setKernelStackTop successorStackTop
  modify fun s => { s with currentProcess := some successor.process }
  setCurrentTask successor.task
  return some transfer

def commitUserspaceYieldWithSnapshot (interrupted : Option (TaskId × InterruptedState)) :
    Exec System SystemRuntimeError (Option UserReturnTransfer) := do
  let s ← get
  let currentProcess ← okOr s.currentProcess .noCurrentProcess
  let currentTask ← okOr s.scheduler.current .noCurrentProcess
  let currentBinding ← orThrow .process (s.processes.binding currentProcess)
  let currentBinding ← okOr currentBinding .taskBindingMismatch
  reject (currentBinding.task ≠ currentTask) .taskBindingMismatch
  let state ← orThrow .process (s.processes.state currentProcess)
  reject (state ≠ .running) .taskBindingMismatch
  match s.selectUserspaceSuccessor (some currentTask) with
  -- with nobody to yield to the current task goes on, and its snapshot is not stored
  | .error .noReadyTask => return none
  | .error error => throw (.successor error)
  | .ok successor =>
    let transfer ← orThrow (fun _ => .taskBindingMismatch)
      ((UserReturnTransfer.new successor.binding).validate (some currentTask))
    let successorStackTop ← okOr (s.executions.kernelStackTop successor.task) .kernelStackUnavailable
    match interrupted with
    | none => finishYield currentProcess successor transfer successorStackTop
    | some (capturedTask, state) =>
      reject (capturedTask ≠ currentTask ∨ state.isUserValid = false) .taskBindingMismatch
      mapErr .userBinding (onUserspace (·.installResume currentTask state))
      finishYield currentProcess successor transfer successorStackTop

theorem scheduleNext_runs {ε : Type} {s : System} {scheduler : Scheduler} {decision : DispatchDecision}
    (h : s.scheduler.scheduleNext = (scheduler, decision)) :
    Runs (scheduleNext : Exec System ε DispatchDecision) s decision
      { s with runtime.manager.scheduler := scheduler } := by
  unfold scheduleNext onScheduler
  refine .focus ?_
  rw [h]

theorem consumeResume_runs {ε : Type} {s : System} {transfer : UserReturnTransfer} {task : TaskId}
    {b : UserExecutionBinding} (hb : s.userspace.get task = some b) (htransfer : transfer.resume = b.resume) :
    ∃ userspace, Runs (consumeResume transfer task : Exec System ε Unit) s () { s with userspace } ∧
      userspace.get = Function.update s.userspace.get task (some { b with resume := none }) := by
  unfold consumeResume
  split_ifs with hresume
  · obtain ⟨userspace, hclear, hget⟩ := UserExecutionRegistry.clearResume_ok hb
    exact ⟨userspace, .bind (.expect (.focus hclear)) .pure, hget⟩
  · refine ⟨s.userspace, .pure, ?_⟩
    have hnone : b.resume = none := by
      rw [← htransfer]
      exact Option.not_isSome_iff_eq_none.mp hresume
    rw [← hnone, ← hb, Function.update_eq_self]

/-! ### A yield in any state -/

/-- The writes succeed after the selection of a successor of the running process `process`, whatever else holds of the
state. -/
private theorem finishYield_runs_of_selected {s : System} {process : ProcessId} {task : TaskId}
    {plan : SystemRuntime.UserSuccessorPlan} (hcur : s.scheduler.current = some task)
    (hrunning : s.processes.state process = .ok .running) {binding : ProcessExecutionBinding}
    (hbinding : s.processes.binding process = .ok (some binding)) (hplan : s.Selected (some task) plan)
    (stackTop : U64) :
    ∃ s', Runs (finishYield process plan (.new plan.binding) stackTop) s (some (.new plan.binding)) s' ∧
      s'.userspace.get = Function.update s.userspace.get plan.task (some { plan.binding with resume := none }) ∧
      s'.cpu = { s.cpu with kernelStackTop := stackTop, currentTask := some plan.task } := by
  obtain ⟨slot, hslot, hstate⟩ := ProcessManager.state_eq_ok.mp hrunning
  obtain ⟨slot', hslot', hstate'⟩ := ProcessManager.state_eq_ok.mp hplan.ready
  obtain ⟨binding', hbinding', -⟩ := hplan.bound
  have hbound : slot.binding.isSome = true := by
    obtain ⟨c, hc, hbound⟩ := ProcessManager.binding_eq_ok.mp hbinding
    rw [hslot, Except.ok.injEq] at hc
    rw [hc, hbound]
    rfl
  have hbound' : slot'.binding.isSome = true := by
    obtain ⟨c, hc, hbound⟩ := ProcessManager.binding_eq_ok.mp hbinding'
    rw [hslot', Except.ok.injEq] at hc
    rw [hc, hbound]
    rfl
  have hother : process ≠ plan.process := by
    rintro rfl
    rw [hslot, Except.ok.injEq] at hslot'
    rw [hslot', hstate'] at hstate
    cases hstate
  obtain ⟨processes, hyield, -⟩ := ProcessManager.yieldTo_ok hother hslot hslot' hstate hstate' hbound hbound'
  obtain ⟨scheduler, hschedule, hcurrent⟩ := Scheduler.scheduleNext_of_head hplan.next (hcur ▸ hplan.other)
  rw [if_pos hplan.state] at hcurrent
  obtain ⟨userspace, hconsume, hget⟩ := consumeResume_runs (ε := SystemRuntimeError)
    (s := { s with processes, runtime.manager.scheduler := scheduler }) hplan.user
    (show (UserReturnTransfer.new plan.binding).resume = plan.binding.resume from rfl)
  refine ⟨_, .bind (.mapErr (.focus hyield)) (.bind (scheduleNext_runs hschedule) (.bind .get (.bind (.reject ?_)
    (.bind hconsume (.bind .modify (.bind .modify (.bind .modify .pure))))))), hget, rfl⟩
  rintro (hnext | hcurrent')
  · exact hnext hcurrent
  · exact hcurrent' hcurrent

/-- A yield has stored the captured state of `task` and has taken a transfer to another task. -/
structure SwitchedOut (s s' : System) (task : TaskId) (state : InterruptedState) (transfer : UserReturnTransfer) :
    Prop where
  accepted : transfer.validate none = .ok transfer
  empty : ∃ u, s.userspace.get task = some u ∧ u.resume = none
  stored : ∃ u, s'.userspace.get task = some u ∧ u.resume = some state
  switched : ∃ next, s'.cpu.currentTask = some next ∧ next ≠ task

/-- A yield that has nobody to yield to, or that fails, changes nothing; otherwise the captured state is stored. -/
theorem commitUserspaceYieldWithSnapshot_stores (s : System) (captured : TaskId) (state : InterruptedState) :
    Transacts (commitUserspaceYieldWithSnapshot (some (captured, state))) s fun transfer s' =>
      (transfer = none ∧ s' = s) ∨ ∃ t, transfer = some t ∧ SwitchedOut s s' captured state t := by
  refine .get (.okOr fun process hprocess => .okOr fun task hcur => .orThrow fun binding hbinding =>
    .okOr fun binding' hbound => .reject fun htask => .orThrow fun st hstate => .reject fun hrunning => ?_)
  split
  · exact .of_runs .pure (.inl ⟨rfl, rfl⟩)
  · exact .throws _
  · rename_i plan hplan
    refine .orThrow fun transfer htransfer => .okOr fun stackTop hstack => .reject fun hcaptured =>
      .focus rfl (fun c e he => ?_) fun userspace _ hinstall => ?_
    · rcases s.userspace.installResume_cases task state with ⟨e', h⟩ | ⟨r', b, h, -⟩
      · rw [h] at he
        exact (Prod.mk.inj he).1.symm
      · rw [h] at he
        cases (Prod.mk.inj he).2
    · rw [not_or, not_not] at hcaptured
      obtain ⟨rfl, -⟩ := hcaptured
      have hselected := SystemRuntime.selectUserspaceSuccessor_eq_ok.mp hplan
      have hother : plan.task ≠ captured := fun heq => hselected.other (congrArg some heq.symm)
      rcases s.userspace.installResume_cases captured state with ⟨e, h⟩ | ⟨r', u, h, hu, hresume, hget⟩
      · rw [h] at hinstall
        cases (Prod.mk.inj hinstall).2
      · rw [h, Prod.mk.injEq] at hinstall
        obtain ⟨rfl, -⟩ := hinstall
        obtain rfl := UserReturnTransfer.validate_eq_ok htransfer
        subst hbound
        have hselected' : SystemRuntime.Selected { s.toSystemRuntime with userspace := r' } (some captured) plan :=
          { hselected with user := by rw [← hselected.user, hget, Function.update_of_ne hother] }
        obtain ⟨s', hruns, hget', hcpu⟩ := finishYield_runs_of_selected (s := { s with userspace := r' }) hcur
          (hstate.trans (congrArg _ (not_not.mp hrunning))) hbinding hselected' stackTop
        refine ⟨_, s', hruns, .inr ⟨_, rfl,
          { accepted := UserReturnTransfer.validate_none htransfer
            empty := ⟨u, hu, hresume⟩
            stored := ⟨{ u with resume := some state }, ?_, rfl⟩
            switched := ⟨plan.task, by rw [hcpu], hother⟩ }⟩⟩
        rw [hget', Function.update_of_ne hother.symm, hget, Function.update_self]

end System

/-! ### Syscall control -/

namespace SystemRuntime

def currentBindingChecked (s : SystemRuntime) : Except SyscallError UserExecutionBinding :=
  if s.pendingExit.isSome then .error .invalidArguments
  else
    match s.currentProcess with
    | none => .error .invalidArguments
    | some process =>
      match s.processes.binding process with
      | .error _ => .error .invalidArguments
      | .ok none => .error .invalidArguments
      | .ok (some binding) =>
        match s.scheduler.current with
        | none => .error .invalidArguments
        | some task =>
          if binding.task ≠ task ∨ s.processes.state process ≠ .ok .running then .error .invalidArguments
          else
            match s.userspace.get task with
            | none => .error .invalidArguments
            | some user =>
              if user.process ≠ process ∨ user.addressSpace ≠ binding.addressSpace then .error .invalidArguments
              else .ok user

/-- The binding that has been checked is the one of the current process. -/
theorem currentProcess_of_checked {s : SystemRuntime} {user : UserExecutionBinding}
    (h : s.currentBindingChecked = .ok user) : s.currentProcess = some user.process := by
  unfold currentBindingChecked at h
  split_ifs at h
  split at h
  · cases h
  · rename_i process hprocess
    split at h
    · cases h
    · cases h
    · split at h
      · cases h
      · split_ifs at h
        split at h
        · cases h
        · split_ifs at h with hmatch
          rw [not_or, not_not] at hmatch
          cases h
          rw [hprocess, hmatch.1]

/-- While an exit is pending, nothing can be asked for. -/
theorem currentBindingChecked_of_pending {s : SystemRuntime} {request : ProcessId × TaskId × U64}
    (hpending : s.pendingExit = some request) : s.currentBindingChecked = .error .invalidArguments := by
  simp [currentBindingChecked, hpending]

def exit (s : SystemRuntime) (code : U64) : SystemRuntime × Except SyscallError Unit :=
  match s.currentBindingChecked with
  | .error error => (s, .error error)
  | .ok user =>
    ({ s with pendingExit := some (user.process, user.task, code), runtime := s.runtime.requestReschedule }, .ok ())

def yieldNow (s : SystemRuntime) : SystemRuntime × Except SyscallError Unit :=
  match s.currentBindingChecked with
  | .error error => (s, .error error)
  | .ok _ => ({ s with runtime := s.runtime.requestReschedule }, .ok ())

def syscallControl : ProcessSyscallControl SystemRuntime := ⟨exit, yieldNow⟩

end SystemRuntime

end X11Os
