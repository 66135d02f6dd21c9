import X11Os.Arch.Agreement

/-!
# The syscall entry

`syscall_entry_rust` (`arch/x86_64/interrupt_entry.rs`) dispatches the request in the registers of the caller, writes
the result to RAX, and commits the exit that a successful `Exit` has asked for.  The caller is resumed when the commit
fails: RAX then holds the success of the request, and the request stays pending.
-/

namespace X11Os

open Word Exec

/-! ### The entry -/

/-- Where the CPU goes on: in the frame of the caller, or in the task of a transfer. -/
inductive Continuation where
  | caller (registers : SavedRegisters)
  | transfer (transfer : UserReturnTransfer)
deriving DecidableEq, Repr

def syscallResultAbiValue : SyscallResult → U64
  | .ok value => value
  | .error error => error.abiReturnValue

/-- `execute_user_transfer` up to the switch of the address space. -/
def executeUserTransfer (transfer : UserReturnTransfer) : Panics UserReturnTransfer :=
  match transfer.validate none with
  | .ok _ => .returned transfer
  | .error _ => .panicked

/-- The dispatch of the request, on a CPU to which the system runtime is bound; `memory` is the view and the copy
backend of the caller, once the physical memory mapping is there. -/
def dispatchRequest (memory : Option (UserMemoryView × UserCopyBackend)) (sink : WriteSink)
    (registers : SavedRegisters) (received : List (List U8)) (s : SystemRuntime) : DispatchResult SystemRuntime :=
  let request : SyscallRequest := ⟨registers.rax, registers.rdi, registers.rsi, registers.rdx⟩
  match memory with
  | some (view, backend) =>
    dispatchWithMemoryAndControlAction request view backend sink SystemRuntime.syscallControl received s
  | none => ⟨.returned (.returned (.error .notImplemented)), received, s⟩

/-- The rest of the entry after the dispatch. -/
def finishRequest (registers : SavedRegisters) (s : System) (outcome : DispatchResult SystemRuntime) :
    Panics (System × List (List U8) × Continuation) :=
  outcome.dispatch.bind fun dispatch =>
    let s := { s with toSystemRuntime := outcome.control }
    let registers := { registers with rax := syscallResultAbiValue dispatch.result }
    match dispatch.action with
    | .terminate =>
      (System.commitPendingExit.exec s).bind fun
        | (.ok transfer, s) =>
          (executeUserTransfer transfer).bind fun transfer => .returned (s, outcome.received, .transfer transfer)
        | (.error _, s) => .returned (s, outcome.received, .caller registers)
    | action => .returned ({ s with cpu.syscallAction := some action }, outcome.received, .caller registers)

/-- The entry.  The result holds what the serial port has received. -/
def syscallEntryRust (memory : Option (UserMemoryView × UserCopyBackend)) (sink : WriteSink) (cs : U64)
    (registers : SavedRegisters) (received : List (List U8)) (s : System) :
    Panics (System × List (List U8) × Continuation) :=
  if cs &&& 3 ≠ 3 then .returned (s, received, .caller registers)
  else finishRequest registers s (dispatchRequest memory sink registers received s.toSystemRuntime)

/-! ### The current process asks -/

namespace SystemRuntime

/-- While no exit is pending, the identity of the current process passes every check. -/
theorem Coherent.currentBindingChecked {s : SystemRuntime} (hs : s.Coherent) (hpending : s.pendingExit = none)
    {process : ProcessId} {task : TaskId} (hprocess : s.currentProcess = some process)
    (hcur : s.scheduler.current = some task) :
    ∃ user, s.currentBindingChecked = .ok user ∧ user.process = process ∧ user.task = task := by
  obtain ⟨task', u, hcur', hu, rfl⟩ := hs.currentProcess_iff.mp hprocess
  obtain rfl : task = task' := Option.some.inj (hcur.symm.trans hcur')
  obtain ⟨b, pst, st, hb, htask, hspace, hstate, -⟩ := hs.user_bound hu
  have hrunning := (hs.running_iff _).mpr hprocess
  refine ⟨u, ?_, rfl, KeyedSlots.key_of_get hu⟩
  simp [SystemRuntime.currentBindingChecked, hpending, hprocess, hb, hcur, htask, hrunning, hu, hspace]

/-- A userspace task at the head of the queue can be switched to. -/
private theorem Coherent.selected {s : SystemRuntime} (hs : s.Coherent) {task next : TaskId}
    (hcur : s.scheduler.current = some task) (hnext : s.scheduler.nextReady = some next)
    (hkind : s.scheduler.taskKind next = some .userspace) :
    ∃ plan : UserSuccessorPlan, plan.task = next ∧ s.Selected (some task) plan := by
  obtain ⟨rest, hq⟩ := List.head?_eq_some_iff.mp hnext
  obtain ⟨u, hu⟩ := hs.user_of_kind hkind
  obtain ⟨b, pst, st, hb, htask, hspace, hstate, hst, hstep⟩ := hs.user_bound hu
  have hready : s.scheduler.state next = some .ready := by
    refine (hs.sound.mem_queue next).mp ?_
    rw [Scheduler.view_queue, hq]
    exact List.mem_cons_self
  rw [hready] at hst
  cases hst
  cases hstep
  have hne := hs.agrees.head_ne_owner hcur hq
  exact ⟨⟨u.process, next, u⟩, rfl,
    { next := hnext
      other := fun heq => hne (Option.some.inj heq).symm
      kind := hkind
      state := hready
      user := hu
      process := rfl
      bound := ⟨b, hb, htask, hspace⟩
      ready := hstate }⟩

/-- What the commits check of the current process and of its successor. -/
structure Succeeded (s : SystemRuntime) (process : ProcessId) (task : TaskId) (plan : UserSuccessorPlan) : Prop where
  selected : s.Selected (some task) plan
  handover : Nonempty (Handover s process task plan)
  binding : ∃ b, s.processes.binding process = .ok (some b) ∧ b.task = task
  running : s.processes.state process = .ok .running
  transfer : (UserReturnTransfer.new plan.binding).validate (some task) = .ok (.new plan.binding)
  stackTop : ∃ stackTop, s.executions.kernelStackTop plan.task = some stackTop

private theorem Coherent.succeeded {s : SystemRuntime} (hs : s.Coherent) {process : ProcessId} {task next : TaskId}
    (hprocess : s.currentProcess = some process) (hcur : s.scheduler.current = some task)
    (hnext : s.scheduler.nextReady = some next) (hkind : s.scheduler.taskKind next = some .userspace) :
    ∃ plan, plan.task = next ∧ s.Succeeded process task plan := by
  obtain ⟨plan, rfl, hselected⟩ := hs.selected hcur hnext hkind
  refine ⟨plan, rfl, hselected, hs.handover hprocess hcur hselected, ?_, (hs.running_iff process).mpr hprocess, ?_,
    ?_⟩
  · obtain ⟨b, hb, hbtask⟩ := (hs.bound_of_current process).mp hprocess
    exact ⟨b, hb, Option.some.inj (hbtask.symm.trans hcur)⟩
  · have htask : plan.binding.task = plan.task := KeyedSlots.key_of_get hselected.user
    refine UserReturnTransfer.validate_ok ?_ (hs.resume plan.task plan.binding hselected.user)
    rw [show (UserReturnTransfer.new plan.binding).task = plan.task from htask]
    exact hselected.other
  · have hlive : s.scheduler.taskKind plan.task ≠ none := by simp [hkind]
    obtain ⟨execution, hget⟩ := Option.isSome_iff_exists.mp (hs.execution_of_kind hlive)
    obtain ⟨stackTop, hstack⟩ := Option.isSome_iff_exists.mp (hs.stack plan.task execution hget)
    exact ⟨stackTop, by rw [ExecutionRegistry.kernelStackTop, hget, Option.bind_some, hstack]⟩

/-- A transfer to a task that is bound is executed. -/
theorem Coherent.transfer_accepted {s : SystemRuntime} (hs : s.Coherent) {task : TaskId} {b : UserExecutionBinding}
    (hb : s.userspace.get task = some b) : executeUserTransfer (.new b) = .returned (.new b) := by
  have hvalid : (UserReturnTransfer.new b).validate none = .ok (.new b) :=
    UserReturnTransfer.validate_ok (by simp) (hs.resume task b hb)
  rw [executeUserTransfer, hvalid]

/-- The transfer to the successor is executed. -/
theorem Handover.transfer_accepted {s : SystemRuntime} {process : ProcessId} {task : TaskId}
    {plan : UserSuccessorPlan} (h : Handover s process task plan) (hs : s.Coherent) :
    executeUserTransfer (.new plan.binding) = .returned (.new plan.binding) :=
  hs.transfer_accepted h.nextUser_eq

end SystemRuntime

namespace System

open SystemRuntime

/-- The commit of an exit succeeds when a userspace task is at the head of the queue. -/
theorem commitPendingExit_runs {s : System} (hs : s.Coherent) {process : ProcessId} {task next : TaskId} {code : U64}
    (hpending : s.pendingExit = some (process, task, code)) (hprocess : s.currentProcess = some process)
    (hcur : s.scheduler.current = some task) (hnext : s.scheduler.nextReady = some next)
    (hkind : s.scheduler.taskKind next = some .userspace) :
    ∃ (plan : UserSuccessorPlan) (s' : System), Runs commitPendingExit s (.new plan.binding) s' ∧
      ∃ h : Handover s.toSystemRuntime process task plan, ExitEffect s s' h := by
  obtain ⟨plan, rfl, hselected, ⟨h⟩, ⟨b, hb, hbtask⟩, hrunning, htransfer, stackTop, hstack⟩ :=
    hs.succeeded hprocess hcur hnext hkind
  have hexecution : s.scheduler.execution task = some (.forTask task) := by
    rw [Scheduler.execution, h.block_eq, Option.bind_some, hs.handle task h.block h.block_eq]
  obtain ⟨s', hruns, heffect⟩ := finishExit_runs h (.new plan.binding) rfl stackTop
  refine ⟨plan, s', .bind .get (.bind (.okOr hpending) (.bind (.reject ?_) (.bind
    (.orThrow (selectUserspaceSuccessor_eq_ok.mpr hselected))
    (.bind (.orThrow hb) (.bind (.okOr rfl) (.bind (.reject ?_)
    (.bind (.orThrow hrunning) (.bind (.reject ?_) (.bind (.orThrow htransfer) (.bind (.okOr hexecution)
    (.bind (.okOr hstack) hruns))))))))))), h, heffect⟩
  · simp [hprocess, hcur]
  · simpa using hbtask
  · simp

/-- A yield of the current task succeeds when a userspace task is at the head of the queue and the snapshot is one of
its user mode. -/
theorem commitUserspaceYieldWithSnapshot_runs {s : System} (hs : s.Coherent) {process : ProcessId}
    {task next : TaskId} (hprocess : s.currentProcess = some process) (hcur : s.scheduler.current = some task)
    (hnext : s.scheduler.nextReady = some next) (hkind : s.scheduler.taskKind next = some .userspace)
    {state : InterruptedState} (hvalid : state.isUserValid = true) :
    ∃ (plan : UserSuccessorPlan) (s' : System), plan.task = next ∧
      Runs (commitUserspaceYieldWithSnapshot (some (task, state))) s (some (.new plan.binding)) s' ∧
      ∃ h : Handover s.toSystemRuntime process task plan, YieldEffect s s' h (some state) := by
  obtain ⟨plan, rfl, hselected, ⟨h⟩, ⟨b, hb, hbtask⟩, hrunning, htransfer, stackTop, hstack⟩ :=
    hs.succeeded hprocess hcur hnext hkind
  obtain ⟨userspace, hinstall, hget⟩ :=
    UserExecutionRegistry.installResume_ok h.user_eq (hs.resume_owner hcur h.user_eq) hvalid
  obtain ⟨s', hruns, heffect⟩ := finishYield_runs h (.new plan.binding) rfl stackTop hget
  refine ⟨plan, s', rfl,
    .bind .get (.bind (.okOr hprocess) (.bind (.okOr hcur) (.bind (.orThrow hb) (.bind (.okOr rfl)
    (.bind (.reject ?_) (.bind (.orThrow hrunning) (.bind (.reject ?_) ?_))))))), h, heffect⟩
  · simpa using hbtask
  · simp
  · rw [selectUserspaceSuccessor_eq_ok.mpr hselected]
    refine .bind (.orThrow htransfer)
      (.bind (.okOr hstack) (.bind (.reject ?_) (.bind (.mapErr (.focus hinstall)) hruns)))
    simp [hvalid]

/-- Without a userspace task at the head of the queue the commit of an exit fails and changes nothing. -/
private theorem commitPendingExit_fails {s : System} (hs : s.Coherent)
    (hnext : ¬ ∃ next, s.scheduler.nextReady = some next ∧ s.scheduler.taskKind next = some .userspace) :
    ∃ e, commitPendingExit.exec s = .returned (.error e, s) := by
  rcases commitPendingExit_transacts hs with hfails | ⟨transfer, s', -, process, task, code, plan, -, -, -, h, -⟩
  · exact hfails
  · refine absurd ⟨plan.task, ?_, ?_⟩ hnext
    · rw [Scheduler.nextReady, RunQueue.peek, h.queue, List.head?_cons]
    · rw [Scheduler.taskKind, h.nextBlock_eq, Option.map_some, h.nextBlock_kind]

/-! ### Exit -/

/-- How an exit of the current process is to end: it has happened and another userspace task has the CPU, or the
caller goes on with an error and the system runtime is as it was, with no exit pending. -/
inductive ExitEnds (s : System) (process : ProcessId) (task : TaskId) :
    Panics (System × List (List U8) × Continuation) → Prop where
  | happened {s' : System} {received : List (List U8)} {transfer : UserReturnTransfer}
      (exited : s'.processes.state process = .ok .exited) (removed : s'.scheduler.task task = none)
      (other : transfer.task ≠ task) (kind : s'.scheduler.taskKind transfer.task = some .userspace)
      (current : s'.scheduler.current = some transfer.task) :
      ExitEnds s process task (.returned (s', received, .transfer transfer))
  | refused {s' : System} {received : List (List U8)} {registers : SavedRegisters} (error : SyscallError)
      (rax : registers.rax = error.abiReturnValue) (same : s'.toSystemRuntime = s.toSystemRuntime)
      (notPending : s'.pendingExit = none) : ExitEnds s process task (.returned (s', received, .caller registers))

section Exit

variable {view : UserMemoryView} {backend : UserCopyBackend} {sink : WriteSink} {cs : U64}
  {registers : SavedRegisters} {received : List (List U8)} {s : System}

private theorem syscall_exit (hrax : registers.rax = 1) :
    (SyscallRequest.mk registers.rax registers.rdi registers.rsi registers.rdx).syscall = some .exit := by
  rw [hrax]
  rfl

private theorem syscallEntryRust_exit_refused (hcs : cs &&& 3 = 3) (hrax : registers.rax = 1) {r : SystemRuntime}
    {e : SyscallError} (h : s.toSystemRuntime.exit registers.rdi = (r, .error e)) :
    syscallEntryRust (some (view, backend)) sink cs registers received s =
      .returned ({ s with toSystemRuntime := r, cpu.syscallAction := some .return }, received,
        .caller { registers with rax := e.abiReturnValue }) := by
  simp only [syscallEntryRust, finishRequest, dispatchRequest, hcs, ne_eq, not_true_eq_false, if_false,
    dispatchWithMemoryAndControlAction, syscall_exit hrax, syscallControl, h]
  rfl

private theorem syscallEntryRust_exit_accepted (hcs : cs &&& 3 = 3) (hrax : registers.rax = 1) {r : SystemRuntime}
    (h : s.toSystemRuntime.exit registers.rdi = (r, .ok ())) :
    syscallEntryRust (some (view, backend)) sink cs registers received s =
      (commitPendingExit.exec { s with toSystemRuntime := r }).bind fun
        | (.ok transfer, s) =>
          (executeUserTransfer transfer).bind fun transfer => .returned (s, received, .transfer transfer)
        | (.error _, s) => .returned (s, received, .caller { registers with rax := 0 }) := by
  simp only [syscallEntryRust, finishRequest, dispatchRequest, hcs, ne_eq, not_true_eq_false, if_false,
    dispatchWithMemoryAndControlAction, syscall_exit hrax, syscallControl, h]
  rfl

/-- An exit that has been committed has happened. -/
private theorem ExitEffect.ends {s₀ s' : System} {process : ProcessId} {task : TaskId} {plan : UserSuccessorPlan}
    {h : Handover s.toSystemRuntime process task plan} (e : ExitEffect s s' h) (hs : s.Coherent) :
    ExitEnds s₀ process task ((executeUserTransfer (.new plan.binding)).bind fun transfer =>
      .returned (s', received, .transfer transfer)) := by
  rw [h.transfer_accepted hs]
  have htask : (UserReturnTransfer.new plan.binding).task = plan.task := h.nextUser_task
  refine .happened ?_ ?_ ?_ ?_ ?_
  · refine ProcessManager.state_eq_ok.mpr ⟨{ h.slot with state := some .exited, exitCode := some 0 }, ?_, rfl⟩
    rw [e.processes, Function.update_self]
  · rw [e.task_eq, Function.update_of_ne h.task_ne.symm, Function.update_self]
  · rw [htask]
    exact h.task_ne
  · rw [htask, Scheduler.taskKind, e.task_eq, Function.update_self]
    exact congrArg some h.nextBlock_kind
  · rw [htask, e.current]

/-- An `Exit` of the current process ends as it should exactly when no exit is pending and a userspace task is at the
head of the ready queue. -/
theorem exitEnds_iff {trace : List (ResumeEvent TaskId InterruptedState)} (hrun : Run trace s) {process : ProcessId}
    {task : TaskId} (hprocess : s.currentProcess = some process) (hcur : s.scheduler.current = some task)
    (hcs : cs &&& 3 = 3) (hrax : registers.rax = 1) :
    ExitEnds s process task (syscallEntryRust (some (view, backend)) sink cs registers received s) ↔
      s.pendingExit = none ∧
        ∃ next, s.scheduler.nextReady = some next ∧ s.scheduler.taskKind next = some .userspace := by
  have hs := hrun.coherent
  cases hpending : s.pendingExit with
  | some request =>
    -- the request is refused because of the one that is still pending
    have hexit : s.toSystemRuntime.exit registers.rdi = (s.toSystemRuntime, .error .invalidArguments) := by
      rw [SystemRuntime.exit, currentBindingChecked_of_pending hpending]
    rw [syscallEntryRust_exit_refused hcs hrax hexit]
    simp only [reduceCtorEq, false_and, iff_false]
    rintro (_ | ⟨-, -, -, hnone⟩)
    rw [show s.pendingExit = none from hnone] at hpending
    cases hpending
  | none =>
    simp only [true_and]
    obtain ⟨user, hchecked, rfl, rfl⟩ := hs.currentBindingChecked hpending hprocess hcur
    have hexit : s.toSystemRuntime.exit registers.rdi = ({ s.toSystemRuntime with
        pendingExit := some (user.process, user.task, registers.rdi)
        runtime := s.runtime.requestReschedule }, .ok ()) := by
      rw [SystemRuntime.exit, hchecked]
    have hs₁ := (Effect.exitAsked registers.rdi hchecked).coherent hs
    rw [syscallEntryRust_exit_accepted hcs hrax hexit]
    constructor
    · intro hends
      by_contra hnext
      obtain ⟨e, hfails⟩ := commitPendingExit_fails hs₁ hnext
      rw [hfails] at hends
      obtain _ | ⟨-, -, -, hnone⟩ := hends
      cases hnone
    · rintro ⟨next, hnext, hkind⟩
      obtain ⟨plan, s', hruns, h, heffect⟩ := commitPendingExit_runs hs₁ rfl hprocess hcur hnext hkind
      rw [hruns]
      exact heffect.ends hs₁

end Exit

/-! ### The last process asks to exit -/

namespace ExitSample

def view : UserMemoryView := ⟨fun _ => .returned none, fun _ => .returned .unmapped, userRange⟩

def backend : UserCopyBackend := ⟨fun _ _ => .returned (.error .unmapped), by rintro - - - ⟨⟩⟩

def sink : WriteSink := ⟨fun _ _ => .ok ()⟩

/-- `Exit(7)`. -/
def registers : SavedRegisters := ⟨1, 0, 0, 0, 0, 0, 7, 0, 0, 0, 0, 0, 0, 0, 0⟩

def enter (s : System) : Panics (System × List (List U8) × Continuation) :=
  syscallEntryRust (some (view, backend)) sink 0x1b registers [] s

/-- RAX and the code of the pending exit when the caller goes on. -/
def resumed : Panics (System × List (List U8) × Continuation) → Option (U64 × Option U64)
  | .returned (s, _, .caller registers) => some (registers.rax, s.pendingExit.map fun request => request.2.2)
  | _ => none

private theorem not_exitEnds_of_pending {s : System} {process : ProcessId} {task : TaskId}
    {r : Panics (System × List (List U8) × Continuation)} {rax code : U64}
    (h : resumed r = some (rax, some code)) : ¬ ExitEnds s process task r := by
  rintro (_ | ⟨-, -, -, hnone⟩)
  · cases h
  · simp [resumed, hnone] at h

/-- The only process asks to exit.  It is resumed with 0 in RAX and its request stays pending, and asked again it gets
the error -3. -/
theorem exit_of_last_process : ∃ trace s, Run trace s ∧ s.currentProcess = some ⟨0, 1⟩ ∧
    s.scheduler.current = some ⟨0, 1⟩ ∧ s.pendingExit = none ∧
    resumed (enter s) = some (0, some 7) ∧
    resumed ((enter s).bind fun r => enter r.1) = some (0 - 3, some 7) ∧
    ¬ ExitEnds s ⟨0, 1⟩ ⟨0, 1⟩ (enter s) := by
  obtain ⟨trace, s, hrun, hprocess, hcur, hpending, hfirst, hsecond⟩ := Run.of_performAll 0
    (φ := fun _ s => s.currentProcess = some ⟨0, 1⟩ ∧ s.scheduler.current = some ⟨0, 1⟩ ∧ s.pendingExit = none ∧
      resumed (enter s) = some (0, some 7) ∧
      resumed ((enter s).bind fun r => enter r.1) = some (0 - 3, some 7))
    [.spawnSample 1 (by decide), .startUser ⟨0, 1⟩] (by decide +kernel)
  exact ⟨trace, s, hrun, hprocess, hcur, hpending, hfirst, hsecond, not_exitEnds_of_pending hfirst⟩

/-- With a second process the exit happens. -/
theorem exit_to_second_process : ∃ trace s, Run trace s ∧ s.currentProcess = some ⟨0, 1⟩ ∧
    s.scheduler.current = some ⟨0, 1⟩ ∧ ExitEnds s ⟨0, 1⟩ ⟨0, 1⟩ (enter s) := by
  obtain ⟨trace, s, hrun, hprocess, hcur, hpending, hnext, hkind⟩ := Run.of_performAll 0
    (φ := fun _ s => s.currentProcess = some ⟨0, 1⟩ ∧ s.scheduler.current = some ⟨0, 1⟩ ∧ s.pendingExit = none ∧
      s.scheduler.nextReady = some ⟨1, 1⟩ ∧ s.scheduler.taskKind ⟨1, 1⟩ = some .userspace)
    [.spawnSample 1 (by decide), .spawnSample 2 (by decide), .startUser ⟨0, 1⟩] (by decide +kernel)
  exact ⟨trace, s, hrun, hprocess, hcur,
    (exitEnds_iff hrun hprocess hcur (by decide) rfl).mpr ⟨hpending, _, hnext, hkind⟩⟩

end ExitSample

end System

end X11Os
