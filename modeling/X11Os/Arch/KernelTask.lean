import X11Os.Arch.Execution
import X11Os.Scheduler.Dispatch
import X11Os.Syscall.Basic

/-!
# Kernel tasks

The state of the single CPU (`arch/x86_64/cpu_local.rs`, the entry stack of `arch/x86_64/gdt.rs` and the timer
counters of `arch/x86_64/idt.rs`) and the coordinator that keeps the scheduler, the execution registry and the sleep
queue together (`arch/x86_64/kernel_task.rs`, `arch/x86_64/dispatch.rs`).
-/

namespace X11Os

open Word

/-! ### The CPU -/

structure Cpu where
  currentTask : Option TaskId
  syscallAction : Option SyscallReturnAction
  interrupted : Option (TaskId × InterruptedState)
  kernelStackTop : U64
  timerPending : Bool
  timerTicks : U64
deriving DecidableEq, Repr

namespace Cpu

/-- The CPU after boot, with the entry stack that the TSS starts with. -/
def new (kernelStackTop : U64) : Cpu := ⟨none, none, none, kernelStackTop, false, 0⟩

inductive CaptureError where
  | noCurrentTask
  | alreadyPending
  | invalidState
deriving DecidableEq, Repr

/-- `snapshot` is what the interrupt has found in the registers and in the return frame. -/
def captureInterrupted (cpu : Cpu) (snapshot : InterruptedState) : Cpu × Except CaptureError TaskId :=
  match cpu.currentTask with
  | none => (cpu, .error .noCurrentTask)
  | some task =>
    if cpu.interrupted.isSome then (cpu, .error .alreadyPending)
    else if !snapshot.isValid then (cpu, .error .invalidState)
    else ({ cpu with interrupted := some (task, snapshot) }, .ok task)

theorem captureInterrupted_cases (cpu : Cpu) (snapshot : InterruptedState) :
    ((cpu.interrupted = none → snapshot.isValid = true → cpu.currentTask = none) ∧
      ∃ e, cpu.captureInterrupted snapshot = (cpu, .error e)) ∨
    ∃ task, cpu.currentTask = some task ∧ cpu.interrupted = none ∧ snapshot.isValid = true ∧
      cpu.captureInterrupted snapshot = ({ cpu with interrupted := some (task, snapshot) }, .ok task) := by
  unfold captureInterrupted
  cases htask : cpu.currentTask with
  | none => exact .inl ⟨fun _ _ => rfl, _, rfl⟩
  | some task =>
    dsimp only
    split_ifs with hpending hinvalid
    · exact .inl ⟨fun hslot => by simp [hslot] at hpending, _, rfl⟩
    · exact .inl ⟨fun _ hvalid => by simp [hvalid] at hinvalid, _, rfl⟩
    · exact .inr ⟨task, rfl, by simpa using hpending, by simpa using hinvalid, rfl⟩

def recordTimerInterrupt (cpu : Cpu) : Cpu := { cpu with timerTicks := cpu.timerTicks + 1, timerPending := true }

end Cpu

/-! ### Validation of a dispatch -/

inductive DispatchError where
  | missingExecution
  | invalidExecution
  | sameTask
deriving DecidableEq, Repr

def validateTransition (registry : ExecutionRegistry) (previous : Option TaskId) (next : TaskId) :
    Except DispatchError Unit :=
  match registry.get next with
  | none => .error .missingExecution
  | some binding =>
    match binding.validate with
    | .error _ => .error .invalidExecution
    | .ok () => if previous = some next then .error .sameTask else .ok ()

private theorem validateTransition_eq_ok {registry : ExecutionRegistry} {previous : Option TaskId} {next : TaskId} :
    validateTransition registry previous next = .ok () ↔
      (∃ b, registry.get next = some b ∧ b.validate = .ok ()) ∧ previous ≠ some next := by
  unfold validateTransition
  cases hget : registry.get next with
  | none => simp
  | some b =>
    cases hvalid : b.validate with
    | error e => simp [hvalid]
    | ok _ =>
      by_cases hsame : previous = some next
      · simp [hsame, hvalid]
      · simp [hsame, hvalid]

/-! ### The coordinator -/

inductive KernelTaskError where
  | scheduler (error : SchedulerError)
  | registry (error : RegistryInsertError)
  | dispatch (error : DispatchError)
  | dispatchMismatch
  | kernelStackUnavailable
deriving DecidableEq, Repr

structure KernelTaskManager where
  scheduler : Scheduler
  executions : ExecutionRegistry
  sleepers : SleepQueue

namespace KernelTaskManager

def new : KernelTaskManager := ⟨.new, .new, .new⟩

def spawn (m : KernelTaskManager) (priority : Priority) (placement : Option Placement) :
    KernelTaskManager × Except KernelTaskError TaskId :=
  let (scheduler, taskId) := m.scheduler.createTask priority
  match scheduler.attachExecution taskId with
  | (scheduler, .error error) =>
    ({ m with scheduler := (scheduler.destroyCreated taskId).1 }, .error (.scheduler error))
  | (scheduler, .ok handle) =>
    match m.executions.insert handle placement with
    | (executions, .error error) =>
      ({ m with scheduler := (scheduler.destroyCreated taskId).1, executions }, .error (.registry error))
    | (executions, .ok ()) =>
      match scheduler.makeReady taskId with
      | (scheduler, false) =>
        ({ m with
            scheduler := (scheduler.destroyCreated taskId).1
            executions := (executions.remove handle).1 }, .error (.scheduler .taskNotCreated))
      | (scheduler, true) => ({ m with scheduler, executions }, .ok taskId)

def prepareDispatch (m : KernelTaskManager) (cpu : Cpu) :
    KernelTaskManager × Cpu × Except KernelTaskError DispatchDecision :=
  let previous := m.scheduler.current
  match m.scheduler.nextReady with
  | none => (m, cpu, .ok ⟨previous, none⟩)
  | some candidate =>
    if some candidate = previous then (m, cpu, .ok ⟨previous, none⟩)
    else
      match validateTransition m.executions previous candidate with
      | .error error => (m, cpu, .error (.dispatch error))
      | .ok () =>
        match m.executions.kernelStackTop candidate with
        | none => (m, cpu, .error .kernelStackUnavailable)
        | some stackTop =>
          let (scheduler, decision) := m.scheduler.scheduleNext
          let m := { m with scheduler }
          if decision.next ≠ some candidate then (m, cpu, .error .dispatchMismatch)
          else (m, { cpu with kernelStackTop := stackTop }, .ok decision)

def sleepCurrentUntil (m : KernelTaskManager) (deadline : U64) : KernelTaskManager × Except KernelTaskError TaskId :=
  let (scheduler, sleepers, result) := m.scheduler.sleepCurrentUntil deadline m.sleepers
  ({ m with scheduler, sleepers }, result.mapError .scheduler)

def expireSleepers (m : KernelTaskManager) (now : U64) : KernelTaskManager × Nat :=
  let (scheduler, sleepers, woken) := m.scheduler.expireSleepers now m.sleepers
  ({ m with scheduler, sleepers }, woken.length)

def exitCurrent (m : KernelTaskManager) : KernelTaskManager × Bool :=
  match m.scheduler.current with
  | none => (m, false)
  | some taskId =>
    match m.scheduler.execution taskId with
    | none => (m, false)
    | some handle =>
      let m := { m with sleepers := (m.sleepers.remove taskId).1 }
      match m.scheduler.exitCurrent with
      | (scheduler, false) => ({ m with scheduler }, false)
      | (scheduler, true) =>
        let (executions, removed) := m.executions.remove handle
        ({ m with scheduler, executions }, removed)

/-! ### Spawning -/

/-- Only the name of a task that was given up tells `m'` from `m`. -/
structure Abandoned (m m' : KernelTaskManager) (id : TaskId) : Prop where
  numbered : m'.scheduler.Numbered
  fresh : id ∉ m.scheduler.issued
  issued : m'.scheduler.issued = insert id m.scheduler.issued
  task : m'.scheduler.task = m.scheduler.task
  ready : m'.scheduler.ready = m.scheduler.ready
  current : m'.scheduler.current = m.scheduler.current
  executions : m'.executions.get = m.executions.get
  sleepers : m'.sleepers = m.sleepers

/-- `m'` has one task more, ready and at the end of the queue, with its execution handle and a fresh execution. -/
structure Added (m m' : KernelTaskManager) (id : TaskId) (kind : TaskKind) : Prop where
  numbered : m'.scheduler.Numbered
  fresh : id ∉ m.scheduler.issued
  issued : m'.scheduler.issued = insert id m.scheduler.issued
  task : ∃ t : TaskControlBlock, t.kind = kind ∧ t.state = .ready ∧ t.execution = some (.forTask id) ∧
    m'.scheduler.task = Function.update m.scheduler.task id (some t)
  ready : m'.scheduler.ready.queue = m.scheduler.ready.queue ++ [id]
  current : m'.scheduler.current = m.scheduler.current
  executions : ∃ b : X86ExecutionBinding, b.Fresh id ∧
    m'.executions.get = Function.update m.executions.get id (some b)
  sleepers : m'.sleepers = m.sleepers

/-- A task under construction that is given up. -/
theorem Abandoned.of_newborn {m : KernelTaskManager} {s : Scheduler} {id : TaskId} {kind : TaskKind}
    (h : Scheduler.Newborn m.scheduler s id kind) {executions : ExecutionRegistry}
    (hexecutions : executions.get = m.executions.get) :
    Abandoned m { m with scheduler := (s.destroyCreated id).1, executions } id := by
  obtain ⟨s', hdestroy, hnumbered, hissued, htask, hready, hcurrent⟩ := h.destroyCreated
  rw [hdestroy]
  exact ⟨hnumbered, h.fresh, hissued, htask, hready, hcurrent, hexecutions, rfl⟩

theorem Added.of_newborn {m : KernelTaskManager} {s : Scheduler} {id : TaskId} {kind : TaskKind}
    (h : Scheduler.Newborn m.scheduler s id kind) (hqueue : id ∉ m.scheduler.ready.queue)
    {executions : ExecutionRegistry} {b : X86ExecutionBinding} (hfresh : b.Fresh id)
    (hget : executions.get = Function.update m.executions.get id (some b)) :
    ∃ s', s.makeReady id = (s', true) ∧ Added m { m with scheduler := s', executions } id kind := by
  obtain ⟨s', t, hmake, hnumbered, hissued, hkind, hstate, hexecution, htask, hready, hcurrent⟩ := h.makeReady hqueue
  exact ⟨s', hmake,
    { numbered := hnumbered
      fresh := h.fresh
      issued := hissued
      task := ⟨t, hkind, hstate, hexecution, htask⟩
      ready := hready
      current := hcurrent
      executions := ⟨b, hfresh, hget⟩
      sleepers := rfl }⟩

/-- The tasks, the ready queue, the current task and the executions are the same, whatever the slots are
numbered with. -/
structure Restored (m m' : KernelTaskManager) : Prop where
  task : m'.scheduler.task = m.scheduler.task
  ready : m'.scheduler.ready = m.scheduler.ready
  current : m'.scheduler.current = m.scheduler.current
  executions : m'.executions.get = m.executions.get
  sleepers : m'.sleepers = m.sleepers

/-- There is exactly one task more, which is ready at the end of the queue, and one execution more,
which is its own. -/
structure Gained (m m' : KernelTaskManager) (id : TaskId) (kind : TaskKind) : Prop where
  absent : m.scheduler.task id = none
  task : ∃ t : TaskControlBlock, t.kind = kind ∧ t.state = .ready ∧ t.execution = some (.forTask id) ∧
    m'.scheduler.task = Function.update m.scheduler.task id (some t)
  ready : m'.scheduler.ready.queue = m.scheduler.ready.queue ++ [id]
  current : m'.scheduler.current = m.scheduler.current
  vacant : m.executions.get id = none
  executions : ∃ b : X86ExecutionBinding, b.Fresh id ∧
    m'.executions.get = Function.update m.executions.get id (some b)
  sleepers : m'.sleepers = m.sleepers

theorem Abandoned.restored {m m' : KernelTaskManager} {id : TaskId} (h : Abandoned m m' id) : Restored m m' :=
  ⟨h.task, h.ready, h.current, h.executions, h.sleepers⟩

theorem Added.gained {m m' : KernelTaskManager} {id : TaskId} {kind : TaskKind} (h : Added m m' id kind)
    (habsent : m.scheduler.task id = none) (hvacant : m.executions.get id = none) : Gained m m' id kind :=
  ⟨habsent, h.task, h.ready, h.current, hvacant, h.executions, h.sleepers⟩

/-- The two ways in which a spawn ends. -/
theorem spawn_ends {m : KernelTaskManager} (hnumbered : m.scheduler.Numbered) (hsound : m.scheduler.view.Sound)
    (hfits : m.scheduler.tasks.length < 2 ^ 32) (priority : Priority) (placement : Option Placement) :
    ∃ m' id, (∃ e, m.spawn priority placement = (m', .error e) ∧ Abandoned m m' id) ∨
      (m.spawn priority placement = (m', .ok id) ∧ Added m m' id .kernel ∧ Gained m m' id .kernel) := by
  rcases hcreate : m.scheduler.createTaskWithKind priority .kernel with ⟨s₁, id⟩
  obtain ⟨s₂, hattach, hborn⟩ := Scheduler.createTaskWithKind_newborn hnumbered hfits hcreate
  have hqueue : id ∉ m.scheduler.ready.queue := hsound.notMem (by simp [Scheduler.state, hborn.absent])
  unfold spawn
  simp only [Scheduler.createTask, hcreate, hattach]
  rcases m.executions.insert_cases (.forTask id) placement with ⟨e, hinsert⟩ | ⟨r, b, hinsert, hvacant, hfresh, hget⟩
  · simp only [hinsert]
    exact ⟨_, id, .inl ⟨_, rfl, .of_newborn hborn rfl⟩⟩
  · obtain ⟨s₃, hmake, hadded⟩ := Added.of_newborn hborn hqueue hfresh hget
    simp only [hinsert, hmake]
    exact ⟨_, id, .inr ⟨rfl, hadded, hadded.gained hborn.absent hvacant⟩⟩

/-- A spawn fails and leaves only a used-up name behind, or adds a task. -/
theorem spawn_cases {m : KernelTaskManager} (hnumbered : m.scheduler.Numbered) (hsound : m.scheduler.view.Sound)
    (hfits : m.scheduler.tasks.length < 2 ^ 32) (priority : Priority) (placement : Option Placement) :
    ∃ m' id, (∃ e, m.spawn priority placement = (m', .error e) ∧ Abandoned m m' id) ∨
      (m.spawn priority placement = (m', .ok id) ∧ Added m m' id .kernel) := by
  obtain ⟨m', id, hfails | ⟨hspawn, hadded, -⟩⟩ := spawn_ends hnumbered hsound hfits priority placement
  · exact ⟨m', id, .inl hfails⟩
  · exact ⟨m', id, .inr ⟨hspawn, hadded⟩⟩

/-! ### Dispatching -/

/-- Either the head of the ready queue is validated and dispatched, or nothing changes and nobody is dispatched. -/
theorem prepareDispatch_cases {m : KernelTaskManager} (hs : m.scheduler.Settled) (cpu : Cpu) :
    (∃ next b top s, m.scheduler.nextReady = some next ∧ m.executions.get next = some b ∧ b.validate = .ok () ∧
      Scheduler.Dispatched m.scheduler s next ∧ m.prepareDispatch cpu =
        ({ m with scheduler := s }, { cpu with kernelStackTop := top }, .ok ⟨m.scheduler.current, some next⟩)) ∨
    (∀ next b, m.scheduler.nextReady = some next → m.executions.get next = some b → b.validate ≠ .ok ()) ∧
      ∃ result, m.prepareDispatch cpu = (m, cpu, result) ∧ ∀ decision, result = .ok decision →
      decision.next = none := by
  unfold prepareDispatch
  dsimp only
  cases hnext : m.scheduler.nextReady with
  | none => exact .inr ⟨fun next b h => (by cases h), _, rfl, fun decision h => by cases h; rfl⟩
  | some next =>
    have hne : m.scheduler.current ≠ some next := hs.next_ne hnext
    simp only [if_neg (Ne.symm hne)]
    cases hget : m.executions.get next with
    | none =>
      simp only [validateTransition, hget]
      exact .inr ⟨fun next b h hb => (by cases h; rw [hget] at hb; cases hb), _, rfl, fun decision h => by cases h⟩
    | some b =>
      cases hvalid : b.validate with
      | error e =>
        simp only [validateTransition, hget, hvalid]
        refine .inr ⟨fun next b' h hb => ?_, _, rfl, fun decision h => by cases h⟩
        cases h
        rw [hget] at hb
        cases hb
        rw [hvalid]
        exact fun h => by cases h
      | ok _ =>
        obtain ⟨top, htop⟩ := ExecutionRegistry.kernelStackTop_of_validate hget hvalid
        obtain ⟨s, hschedule, hdispatched⟩ := Scheduler.scheduleNext_dispatched hs hnext
        simp only [validateTransition, hget, hvalid, if_neg hne, htop, hschedule, ne_eq, not_true_eq_false, if_false]
        exact .inl ⟨next, b, top, s, rfl, hget, hvalid, hdispatched, rfl⟩

/-- A task that a dispatch can give the CPU to. -/
structure Dispatchable (m : KernelTaskManager) (next : TaskId) : Prop where
  ready : m.scheduler.state next = some .ready
  valid : ∃ b, m.executions.get next = some b ∧ b.validate = .ok ()

instance (m : KernelTaskManager) (next : TaskId) : Decidable (m.Dispatchable next) :=
  decidable_of_iff (m.scheduler.state next = some .ready ∧ ∃ b ∈ m.executions.get next, b.validate = .ok ())
    ⟨fun h => ⟨h.1, h.2⟩, fun h => ⟨h.ready, h.valid⟩⟩

section AnyState

variable {m : KernelTaskManager} {next : TaskId} (hnext : m.scheduler.nextReady = some next)
  (hne : m.scheduler.current ≠ some next)

include hnext hne

theorem prepareDispatch_of_dispatchable (h : m.Dispatchable next) (cpu : Cpu) :
    ∃ s top, s.current = some next ∧ s.taskKind next = m.scheduler.taskKind next ∧ m.prepareDispatch cpu =
      ({ m with scheduler := s }, { cpu with kernelStackTop := top }, .ok ⟨m.scheduler.current, some next⟩) := by
  obtain ⟨b, hget, hvalid⟩ := h.valid
  obtain ⟨top, htop⟩ := ExecutionRegistry.kernelStackTop_of_validate hget hvalid
  obtain ⟨s, hschedule, hcurrent, hkind⟩ := Scheduler.scheduleNext_of_ready_head hnext hne h.ready
  refine ⟨s, top, hcurrent, hkind, ?_⟩
  simp only [prepareDispatch, hnext, if_neg (Ne.symm hne), validateTransition_eq_ok.mpr ⟨h.valid, hne⟩, htop,
    hschedule, ne_eq, not_true_eq_false, if_false]

/-- A task without a valid execution is refused before the scheduler is touched. -/
theorem prepareDispatch_of_invalid (h : ¬ ∃ b, m.executions.get next = some b ∧ b.validate = .ok ()) (cpu : Cpu) :
    ∃ e, m.prepareDispatch cpu = (m, cpu, .error (.dispatch e)) := by
  unfold prepareDispatch
  simp only [hnext, if_neg (Ne.symm hne)]
  cases hvalidate : validateTransition m.executions m.scheduler.current next with
  | error e => exact ⟨e, rfl⟩
  | ok _ => exact absurd (validateTransition_eq_ok.mp hvalidate).1 h

/-- Nobody is dispatched; the scheduler may have taken the CPU from the current task before it has noticed. -/
theorem prepareDispatch_of_not_dispatchable (h : ¬ m.Dispatchable next) (cpu : Cpu) :
    ∃ s e, m.prepareDispatch cpu = ({ m with scheduler := s }, cpu, .error e) := by
  by_cases hvalid : ∃ b, m.executions.get next = some b ∧ b.validate = .ok ()
  · have hready : m.scheduler.state next ≠ some .ready := fun hready => h ⟨hready, hvalid⟩
    obtain ⟨s, hschedule, hcurrent⟩ := Scheduler.scheduleNext_of_head hnext hne
    rw [if_neg hready] at hcurrent
    unfold prepareDispatch
    simp only [hnext, if_neg (Ne.symm hne), validateTransition_eq_ok.mpr ⟨hvalid, hne⟩]
    cases m.executions.kernelStackTop next with
    | none => exact ⟨m.scheduler, _, rfl⟩
    | some top => exact ⟨s, .dispatchMismatch, by simp [hschedule, hcurrent]⟩
  · obtain ⟨e, hprepare⟩ := prepareDispatch_of_invalid hnext hne hvalid cpu
    exact ⟨m.scheduler, .dispatch e, hprepare⟩

end AnyState

/-! ### Exiting -/

/-- Nobody exits, or the scheduler takes the current task out and its execution is removed. -/
theorem exitCurrent_cases (m : KernelTaskManager) :
    (∃ sleepers, m.exitCurrent = ({ m with sleepers }, false)) ∨
    ∃ id handle sleepers, m.scheduler.execution id = some handle ∧
      m.scheduler.exitCurrent.1.task = Function.update m.scheduler.task id none ∧
      m.exitCurrent =
        (⟨m.scheduler.exitCurrent.1, (m.executions.remove handle).1, sleepers⟩, (m.executions.remove handle).2) := by
  unfold exitCurrent
  cases hcur : m.scheduler.current with
  | none => exact .inl ⟨m.sleepers, rfl⟩
  | some id =>
    cases hexecution : m.scheduler.execution id with
    | none => exact .inl ⟨m.sleepers, by simp only [hexecution]⟩
    | some handle =>
      rcases m.scheduler.exitCurrent_cases with hexit | ⟨id', t, hcur', ht, -, hexit⟩
      · exact .inl ⟨(m.sleepers.remove id).1, by simp only [hexecution, hexit]⟩
      · obtain rfl : id = id' := Option.some.inj (hcur.symm.trans hcur')
        refine .inr ⟨id, handle, (m.sleepers.remove id).1, hexecution, ?_, by simp only [hexecution, hexit]⟩
        rw [hexit]
        exact Scheduler.task_clearSlot ht

end KernelTaskManager

end X11Os
