import X11Os.Process.Registry
import X11Os.Scheduler.Names

/-!
# The first task of a process

`bind_and_ready` of `process/scheduler_binding.rs`: a registered process gets a task of its own, and the task is
queued.  The call spans two state machines.  A failed call gives the new task back (`Restored`).  A successful call
leaves the process bound to a queued task (`BoundReady`), but the state of the process is nowhere looked at: a process
that has exited before it was ever bound gets a task like any other (`bindAndReady_iff`).
-/

namespace X11Os

inductive ProcessSchedulerBindError where
  | process (e : ProcessManagerError)
  | scheduler (e : SchedulerError)
  | cleanupFailed
deriving DecidableEq, Repr

def Scheduler.cleanupCreatedTask (s : Scheduler) (task : TaskId) :
    Scheduler × Except ProcessSchedulerBindError Unit :=
  match s.destroyCreated task with
  | (s, .ok _) => (s, .ok ())
  | (s, .error _) => (s, .error .cleanupFailed)

namespace ProcessManager

/-- What is left to do once `bind_and_ready` has failed with `e`: the task is taken back, and a task that cannot be
taken back is the error that is reported. -/
def cleanedUp (m : ProcessManager) (s : Scheduler) (task : TaskId) (e : ProcessSchedulerBindError) :
    ProcessManager × Scheduler × Except ProcessSchedulerBindError TaskId :=
  match s.cleanupCreatedTask task with
  | (s, .error e') => (m, s, .error e')
  | (s, .ok ()) => (m, s, .error e)

def bindAndReady (m : ProcessManager) (s : Scheduler) (process : ProcessId) (priority : Priority) :
    ProcessManager × Scheduler × Except ProcessSchedulerBindError TaskId :=
  match m.image process with
  | .error e => (m, s, .error (.process e))
  | .ok image =>
    match s.createTask priority with
    | (s, task) =>
      match s.attachExecution task with
      | (s, .error e) => m.cleanedUp s task (.scheduler e)
      | (s, .ok execution) =>
        match m.attachExecution process task execution image.addressSpace.id with
        | (m, .error e) => m.cleanedUp s task (.process e)
        | (m, .ok _) =>
          match s.makeReady task with
          | (s, false) => (m.exit process).1.cleanedUp s task .cleanupFailed
          | (s, true) => (m, s, .ok task)

/-! ### What a call may do -/

/-- The process is ready, bound to `task` in the address space of its image, and `task` is ready. -/
structure BoundReady (m : ProcessManager) (s : Scheduler) (process : ProcessId) (task : TaskId) : Prop where
  process_ready : m.state process = .ok .ready
  bound : ∃ image binding, m.image process = .ok image ∧ m.binding process = .ok (some binding) ∧
    binding.task = task ∧ binding.addressSpace = image.addressSpace.id
  task_ready : s.state task = some .ready

/-- Nothing of a failed call is left, and the failure is not one of the cleanup. -/
structure Restored (m m' : ProcessManager) (s s' : Scheduler) (e : ProcessSchedulerBindError) : Prop where
  manager : m' = m
  tasks : s'.task = s.task
  ready : s'.ready = s.ready
  current : s'.current = s.current
  not_cleanup : e ≠ .cleanupFailed

structure BindsOrRestores (m : ProcessManager) (s : Scheduler) (process : ProcessId) (priority : Priority) :
    Prop where
  binds : ∀ m' s' task, m.bindAndReady s process priority = (m', s', .ok task) → BoundReady m' s' process task
  restores : ∀ m' s' e, m.bindAndReady s process priority = (m', s', .error e) → Restored m m' s s' e

/-! ### The three ends of a call -/

section Ends

variable {m : ProcessManager} {s s₁ s₂ : Scheduler} {process : ProcessId} {task : TaskId}

/-- A task that has its execution and is not queued is taken back without a trace. -/
private theorem cleanedUp_of_newborn {kind : TaskKind} (h : Scheduler.Newborn s s₂ task kind)
    (e : ProcessSchedulerBindError) :
    ∃ s', m.cleanedUp s₂ task e = (m, s', .error e) ∧ s'.task = s.task ∧ s'.ready = s.ready ∧
      s'.current = s.current := by
  obtain ⟨s', hdestroy, -, -, htask, hready, hcurrent⟩ := h.destroyCreated
  refine ⟨s', ?_, htask, hready, hcurrent⟩
  simp [cleanedUp, Scheduler.cleanupCreatedTask, hdestroy]

/-- A name that is not registered is refused before anything is created. -/
private theorem bindAndReady_of_unregistered {e : ProcessManagerError} (h : m.image process = .error e)
    (priority : Priority) :
    m.bindAndReady s process priority = (m, s, .error (.process e)) := by
  simp [bindAndReady, h]

/-- A process that has an execution keeps it, and the new task is taken back. -/
private theorem bindAndReady_of_bound {slot : ProcessSlot} {image : ProcessImage} (hs : s.Numbered)
    (hfits : s.tasks.length < 2 ^ 32) (hslot : m.slot process = .ok slot) (himage : slot.image = some image)
    (hbound : slot.binding.isSome = true) (priority : Priority) :
    ∃ s', m.bindAndReady s process priority = (m, s', .error (.process .alreadyBound)) ∧ s'.task = s.task ∧
      s'.ready = s.ready ∧ s'.current = s.current := by
  rcases hcreate : s.createTask priority with ⟨s₁, task⟩
  obtain ⟨s₂, hattach, hnewborn⟩ := Scheduler.createTaskWithKind_newborn hs hfits hcreate
  obtain ⟨s', hclean, hsame⟩ := cleanedUp_of_newborn (m := m) hnewborn (.process .alreadyBound)
  have hrefused : m.attachExecution process task (.forTask task) image.addressSpace.id =
      (m, .error .alreadyBound) := by
    simp [attachExecution, hslot, hbound]
  refine ⟨s', ?_, hsame⟩
  simp only [bindAndReady, image_eq_ok.mpr ⟨slot, hslot, himage⟩, hcreate, hattach, hrefused, hclean]

/-- A process without an execution gets one, whatever its state. -/
private theorem bindAndReady_of_unbound {slot : ProcessSlot} {image : ProcessImage} (hs : s.Numbered)
    (hsound : s.view.Sound)
    (hfits : s.tasks.length < 2 ^ 32) (hslot : m.slot process = .ok slot) (himage : slot.image = some image)
    (hbound : slot.binding = none) (priority : Priority) :
    ∃ s' task binding, m.bindAndReady s process priority =
        (m.setSlot process { slot with binding := some binding }, s', .ok task) ∧
      binding.task = task ∧ binding.addressSpace = image.addressSpace.id ∧ s'.state task = some .ready := by
  rcases hcreate : s.createTask priority with ⟨s₁, task⟩
  obtain ⟨s₂, hattach, hnewborn⟩ := Scheduler.createTaskWithKind_newborn hs hfits hcreate
  have hqueue : task ∉ s.ready.queue := by
    refine hsound.notMem ?_
    simp [Scheduler.view, Scheduler.state, hnewborn.absent]
  obtain ⟨s', t, hmake, -, -, -, hstate, -, htask, -, -⟩ := hnewborn.makeReady hqueue
  have hnew : m.attachExecution process task (.forTask task) image.addressSpace.id =
      (m.setSlot process { slot with binding := some ⟨process, task, .forTask task, image.addressSpace.id, rfl⟩ },
        .ok ⟨process, task, .forTask task, image.addressSpace.id, rfl⟩) := by
    simp [attachExecution, hslot, hbound, himage, ProcessExecutionBinding.new, ExecutionHandle.forTask]
  refine ⟨s', task, ⟨process, task, .forTask task, image.addressSpace.id, rfl⟩, ?_, rfl, rfl, ?_⟩
  · simp only [bindAndReady, image_eq_ok.mpr ⟨slot, hslot, himage⟩, hcreate, hattach, hnew, hmake]
  · simp [Scheduler.state, htask, hstate]

end Ends

/-! ### Reachable states -/

private theorem BindsOrRestores.of_error {m m' : ProcessManager} {s s' : Scheduler} {process : ProcessId}
    {priority : Priority} {e : ProcessSchedulerBindError} (h : m.bindAndReady s process priority = (m', s', .error e))
    (hrestored : Restored m m' s s' e) : m.BindsOrRestores s process priority := by
  constructor
  · intro m₁ s₁ task h₁
    simp [h] at h₁
  · intro m₁ s₁ e₁ h₁
    rw [h, Prod.mk.injEq, Prod.mk.injEq, Except.error.injEq] at h₁
    obtain ⟨rfl, rfl, rfl⟩ := h₁
    exact hrestored

private theorem bindsOrRestores_of_ok {m m' : ProcessManager} {s s' : Scheduler} {process : ProcessId}
    {priority : Priority} {task : TaskId} (h : m.bindAndReady s process priority = (m', s', .ok task)) :
    m.BindsOrRestores s process priority ↔ BoundReady m' s' process task := by
  constructor
  · intro hbinds
    exact hbinds.binds m' s' task h
  · intro hbound
    constructor
    · intro m₁ s₁ task₁ h₁
      rw [h, Prod.mk.injEq, Prod.mk.injEq, Except.ok.injEq] at h₁
      obtain ⟨rfl, rfl, rfl⟩ := h₁
      exact hbound
    · intro m₁ s₁ e₁ h₁
      simp [h] at h₁

/-- For every registry and every scheduler that their operations reach: the call binds or restores exactly if the
process, where it is registered and not bound yet, is ready. -/
theorem bindAndReady_iff (ops : List Op) {s : Scheduler} (hs : s.Reached) (hfits : s.tasks.length < 2 ^ 32)
    (process : ProcessId) (priority : Priority) :
    (run ops).BindsOrRestores s process priority ↔
      ((run ops).binding process = .ok none → (run ops).state process = .ok .ready) := by
  have hvalid : (run ops).WellFormed := (run_account ops).valid
  generalize run ops = m at hvalid ⊢
  have hnumbered := hs.numbered hfits
  cases hslot : m.slot process with
  | error e =>
    have himage : m.image process = .error e := by simp [ProcessManager.image, hslot]
    refine iff_of_true (.of_error (bindAndReady_of_unregistered himage priority) ⟨rfl, rfl, rfl, rfl, nofun⟩) ?_
    intro hbinding
    simp [binding, hslot, Except.map] at hbinding
  | ok slot =>
    obtain ⟨hlt, hat, -, hregistered⟩ := slot_eq_ok.mp hslot
    -- a registered process has an image
    obtain ⟨image, himage⟩ : ∃ image, slot.image = some image := by
      rw [← Option.isSome_iff_exists, ← hat, (hvalid _).image, hat]
      exact hregistered
    have hstate : m.state process = .ok .ready ↔ slot.state = some .ready := by
      simp [state_eq_ok, hslot]
    cases hbound : slot.binding with
    | some b =>
      obtain ⟨s', hrefused, htask, hready, hcurrent⟩ :=
        bindAndReady_of_bound hnumbered hfits hslot himage (by simp [hbound]) priority
      refine iff_of_true (.of_error hrefused ⟨rfl, htask, hready, hcurrent, nofun⟩) ?_
      intro hbinding
      simp [binding, hslot, Except.map, hbound] at hbinding
    | none =>
      obtain ⟨s', task, b, hok, hbtask, hspace, hready⟩ :=
        bindAndReady_of_unbound hnumbered hs.sound hfits hslot himage hbound priority
      have hafter : (m.setSlot process { slot with binding := some b }).slot process =
          .ok { slot with binding := some b } := by
        rw [slot_setSlot hslot { slot with binding := some b } rfl, Function.update_self, if_pos hregistered]
      have hunbound : m.binding process = .ok none := binding_eq_ok.mpr ⟨slot, hslot, hbound⟩
      rw [bindsOrRestores_of_ok hok, hstate, forall_prop_of_true hunbound]
      constructor
      · intro h
        obtain ⟨slot', hslot', hstate'⟩ := state_eq_ok.mp h.process_ready
        rw [hafter, Except.ok.injEq] at hslot'
        rw [← hslot'] at hstate'
        exact hstate'
      · intro h
        exact {
          process_ready := state_eq_ok.mpr ⟨_, hafter, h⟩
          bound := ⟨image, b, image_eq_ok.mpr ⟨_, hafter, himage⟩, binding_eq_ok.mpr ⟨_, hafter, rfl⟩, hbtask, hspace⟩
          task_ready := hready }

/-- A process that has just been registered is bound. -/
theorem bindAndReady_iff_registered :
    (run [.registerReady UsedUpSlot.image]).BindsOrRestores .new ⟨0, 1⟩ .default :=
  (bindAndReady_iff [.registerReady UsedUpSlot.image] ⟨[], rfl⟩ (by decide) ⟨0, 1⟩ .default).mpr fun _ => by
    decide +kernel

/-- A process exits before it is bound: it gets a task all the same, and the task is queued. -/
theorem exited_process_bound :
    ((run [.registerReady UsedUpSlot.image, .exit ⟨0, 1⟩]).bindAndReady .new ⟨0, 1⟩ .default).2.2 = .ok ⟨0, 1⟩ ∧
    ((run [.registerReady UsedUpSlot.image, .exit ⟨0, 1⟩]).bindAndReady .new ⟨0, 1⟩ .default).1.state ⟨0, 1⟩ =
      .ok .exited ∧
    ((run [.registerReady UsedUpSlot.image, .exit ⟨0, 1⟩]).bindAndReady .new ⟨0, 1⟩ .default).2.1.ready.queue =
      [⟨0, 1⟩] ∧
    ¬ (run [.registerReady UsedUpSlot.image, .exit ⟨0, 1⟩]).BindsOrRestores .new ⟨0, 1⟩ .default := by
  refine ⟨by decide +kernel, by decide +kernel, by decide +kernel, fun h => ?_⟩
  have hstate : ((run [.registerReady UsedUpSlot.image, .exit ⟨0, 1⟩]).bindAndReady .new ⟨0, 1⟩ .default).1.state
      ⟨0, 1⟩ = .ok .ready :=
    (h.binds _ _ ⟨0, 1⟩ rfl).process_ready
  exact absurd hstate (by decide +kernel)

end ProcessManager

end X11Os
