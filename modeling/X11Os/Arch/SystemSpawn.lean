import X11Os.Arch.SystemLifecycle

/-!
# Spawning and reaping

A spawn of a user process or of a kernel task adds exactly what it announces, or gives everything back except for the
name of the task.  Reaping forgets a process that has exited.
-/

namespace X11Os

open Word

namespace SystemRuntime

/-! ### What a spawn does -/

/-- A spawn has been given up; the name of its task is not issued again. -/
structure GivenUp (s s' : SystemRuntime) (task : TaskId) : Prop where
  tasks : KernelTaskManager.Abandoned s.runtime.manager s'.runtime.manager task
  processes : s'.processes.slot = s.processes.slot
  userspace : s'.userspace = s.userspace
  currentProcess : s'.currentProcess = s.currentProcess
  pendingExit : s'.pendingExit = s.pendingExit

structure KernelSpawned (s s' : SystemRuntime) (task : TaskId) : Prop where
  tasks : KernelTaskManager.Added s.runtime.manager s'.runtime.manager task .kernel
  processes : s'.processes = s.processes
  userspace : s'.userspace = s.userspace
  currentProcess : s'.currentProcess = s.currentProcess
  pendingExit : s'.pendingExit = s.pendingExit

structure UserSpawned (s s' : SystemRuntime) (process : ProcessId) (task : TaskId) (addressSpace : AddressSpaceId) :
    Prop where
  tasks : KernelTaskManager.Added s.runtime.manager s'.runtime.manager task .userspace
  absent : s.processes.slot process = .error .invalidProcess
  processes : ∃ slot : ProcessSlot, slot.state = some .ready ∧ slot.image.isSome = true ∧
    (slot.binding.map fun b => (b.task, b.addressSpace)) = some (task, addressSpace) ∧
    s'.processes.slot = Function.update s.processes.slot process (.ok slot)
  userspace : ∃ b : UserExecutionBinding, userView b = ⟨process, addressSpace, none⟩ ∧
    s'.userspace.get = Function.update s.userspace.get task (some b)
  currentProcess : s'.currentProcess = s.currentProcess
  pendingExit : s'.pendingExit = s.pendingExit

section Executing

variable {s s' : SystemRuntime} {task : TaskId}

private theorem executing_insert {b : X86ExecutionBinding}
    (h : s'.executions.get = Function.update s.executions.get task (some b)) :
    s'.lifecycle.executing = insert task s.lifecycle.executing := by
  ext id
  show (s'.executions.get id).isSome = true ↔ id = task ∨ (s.executions.get id).isSome = true
  rw [h]
  by_cases hid : id = task
  · simp [hid]
  · simp [hid]

private theorem task_add {kind : TaskKind}
    (h : KernelTaskManager.Added s.runtime.manager s'.runtime.manager task kind) :
    s'.lifecycle.task = Function.update s.lifecycle.task task (some (kind, .ready)) := by
  obtain ⟨t, hkind, hstate, -, htask⟩ := h.task
  show Option.map taskView ∘ s'.scheduler.task = _
  rw [show s'.scheduler.task = Function.update s.scheduler.task task (some t) from htask, Function.comp_update,
    Option.map_some, taskView, hkind, hstate]
  rfl

private theorem handle_add {kind : TaskKind} (hs : s.Coherent)
    (h : KernelTaskManager.Added s.runtime.manager s'.runtime.manager task kind) :
    ∀ id t, s'.scheduler.task id = some t → t.execution = some (.forTask id) := by
  obtain ⟨t, -, -, hexecution, htask⟩ := h.task
  rw [show s'.scheduler.task = Function.update s.scheduler.task task (some t) from htask]
  refine forall_update hs.handle fun t' ht => ?_
  rw [← Option.some.inj ht]
  exact hexecution

private theorem stack_add {kind : TaskKind} (hs : s.Coherent)
    (h : KernelTaskManager.Added s.runtime.manager s'.runtime.manager task kind) :
    ∀ id b, s'.executions.get id = some b → b.stackTop.isSome = true := by
  obtain ⟨b, hfresh, hget⟩ := h.executions
  rw [show s'.executions.get = Function.update s.executions.get task (some b) from hget]
  refine forall_update hs.stack fun b' hb => ?_
  rw [← Option.some.inj hb]
  exact hfresh.stackTop_isSome

end Executing

/-! ### Every spawn is a move -/

namespace GivenUp

variable {s s' : SystemRuntime} {task : TaskId}

theorem move (h : GivenUp s s' task) : Lifecycle.Move s.lifecycle [] s'.lifecycle := by
  have heq : s'.lifecycle = { s.lifecycle with issued := insert task s.lifecycle.issued } := by
    apply Lifecycle.ext
    case task => exact congrArg (Option.map taskView ∘ ·) h.tasks.task
    case queue => exact congrArg RunQueue.queue h.tasks.ready
    case current => exact h.tasks.current
    case issued => exact h.tasks.issued
    case executing => exact congrArg (fun get : TaskId → _ => { id | (get id).isSome }) h.tasks.executions
    case user => exact congrArg (fun r : UserExecutionRegistry => Option.map userView ∘ r.get) h.userspace
    case process => exact congrArg (slotView ∘ ·) h.processes
    case currentProcess => exact h.currentProcess
  rw [heq]
  exact .claim h.tasks.fresh

theorem coherent (h : GivenUp s s' task) (hs : s.Coherent) : s'.Coherent where
  numbered := h.tasks.numbered
  agrees := h.move.agrees hs.agrees
  stored := h.move.stored hs.stored
  handle := by
    rw [show s'.scheduler.task = s.scheduler.task from h.tasks.task]
    exact hs.handle
  stack := by
    rw [show s'.executions.get = s.executions.get from h.tasks.executions]
    exact hs.stack
  resume := by
    rw [h.userspace]
    exact hs.resume
  image := by
    rw [h.processes]
    exact hs.image

end GivenUp

namespace KernelSpawned

variable {s s' : SystemRuntime} {task : TaskId}

theorem move (h : KernelSpawned s s' task) : Lifecycle.Move s.lifecycle [] s'.lifecycle := by
  obtain ⟨b, -, hget⟩ := h.tasks.executions
  have heq : s'.lifecycle = { s.lifecycle with
      task := Function.update s.lifecycle.task task (some (.kernel, .ready))
      queue := s.lifecycle.queue ++ [task]
      issued := insert task s.lifecycle.issued
      executing := insert task s.lifecycle.executing } := by
    apply Lifecycle.ext
    case task => exact task_add h.tasks
    case queue => exact h.tasks.ready
    case current => exact h.tasks.current
    case issued => exact h.tasks.issued
    case executing => exact executing_insert hget
    case user => exact congrArg (fun r : UserExecutionRegistry => Option.map userView ∘ r.get) h.userspace
    case process => exact congrArg (fun m : ProcessManager => slotView ∘ m.slot) h.processes
    case currentProcess => exact h.currentProcess
  rw [heq]
  exact .addKernel h.tasks.fresh

theorem coherent (h : KernelSpawned s s' task) (hs : s.Coherent) : s'.Coherent where
  numbered := h.tasks.numbered
  agrees := h.move.agrees hs.agrees
  stored := h.move.stored hs.stored
  handle := handle_add hs h.tasks
  stack := stack_add hs h.tasks
  resume := by
    rw [h.userspace]
    exact hs.resume
  image := by
    rw [h.processes]
    exact hs.image

end KernelSpawned

namespace UserSpawned

variable {s s' : SystemRuntime} {process : ProcessId} {task : TaskId} {addressSpace : AddressSpaceId}

theorem move (h : UserSpawned s s' process task addressSpace) : Lifecycle.Move s.lifecycle [] s'.lifecycle := by
  obtain ⟨b, -, hget⟩ := h.tasks.executions
  obtain ⟨slot, hstate, -, hbinding, hslot⟩ := h.processes
  obtain ⟨user, hview, huser⟩ := h.userspace
  have habsent : s.lifecycle.process process = none := by simp [lifecycle, h.absent, slotView]
  have heq : s'.lifecycle = { s.lifecycle with
      task := Function.update s.lifecycle.task task (some (.userspace, .ready))
      queue := s.lifecycle.queue ++ [task]
      issued := insert task s.lifecycle.issued
      executing := insert task s.lifecycle.executing
      user := Function.update s.lifecycle.user task (some ⟨process, addressSpace, none⟩)
      process := Function.update s.lifecycle.process process (some ⟨.ready, some (task, addressSpace)⟩) } := by
    apply Lifecycle.ext
    case task => exact task_add h.tasks
    case queue => exact h.tasks.ready
    case current => exact h.tasks.current
    case issued => exact h.tasks.issued
    case executing => exact executing_insert hget
    case user =>
      show Option.map userView ∘ s'.userspace.get = _
      rw [huser, Function.comp_update, Option.map_some, hview]
      rfl
    case process =>
      show slotView ∘ s'.processes.slot = _
      rw [hslot, Function.comp_update, slotView, hstate, hbinding]
      rfl
    case currentProcess => exact h.currentProcess
  rw [heq]
  exact .addUser h.tasks.fresh habsent

theorem coherent (h : UserSpawned s s' process task addressSpace) (hs : s.Coherent) : s'.Coherent where
  numbered := h.tasks.numbered
  agrees := h.move.agrees hs.agrees
  stored := h.move.stored hs.stored
  handle := handle_add hs h.tasks
  stack := stack_add hs h.tasks
  resume := by
    obtain ⟨user, hview, huser⟩ := h.userspace
    rw [huser]
    refine forall_update hs.resume fun b hb state hstate => ?_
    -- a process that has never run has no stored state
    have hnone : user.resume = none := congrArg UserEntry.resume hview
    rw [← Option.some.inj hb, hnone] at hstate
    cases hstate
  image := by
    obtain ⟨slot, -, himage, -, hslot⟩ := h.processes
    rw [hslot]
    refine forall_update hs.image fun slot' hslot' => ?_
    rw [← Except.ok.inj hslot']
    exact himage

end UserSpawned

/-! ### What the operations do -/

/-- `KernelRuntime::spawn`, called on the kernel runtime that the system runtime owns. -/
def spawnKernel (s : SystemRuntime) (priority : Priority) (placement : Option Placement) :
    SystemRuntime × Except RuntimeError TaskId :=
  let (runtime, result) := s.runtime.spawn priority placement
  ({ s with runtime }, result)

theorem spawnKernel_cases {s : SystemRuntime} (hs : s.Coherent) (hfits : s.scheduler.tasks.length < 2 ^ 32)
    (priority : Priority) (placement : Option Placement) :
    ∃ s' task, (∃ e, s.spawnKernel priority placement = (s', .error e) ∧ GivenUp s s' task) ∨
      (s.spawnKernel priority placement = (s', .ok task) ∧ KernelSpawned s s' task) := by
  unfold spawnKernel KernelRuntime.spawn
  obtain ⟨m, task, ⟨e, hspawn, hm⟩ | ⟨hspawn, hm⟩⟩ :=
    KernelTaskManager.spawn_cases hs.numbered hs.sound hfits priority placement
  · rw [hspawn]
    exact ⟨_, task, .inl ⟨_, rfl, hm, rfl, rfl, rfl, rfl⟩⟩
  · rw [hspawn]
    exact ⟨_, task, .inr ⟨rfl, hm, rfl, rfl, rfl, rfl⟩⟩

/-- The registries hold what they held, whatever their slots are numbered with. -/
structure Restored (s s' : SystemRuntime) : Prop where
  tasks : KernelTaskManager.Restored s.runtime.manager s'.runtime.manager
  processes : s'.processes.slot = s.processes.slot
  userspace : s'.userspace.get = s.userspace.get
  currentProcess : s'.currentProcess = s.currentProcess
  pendingExit : s'.pendingExit = s.pendingExit

/-- There is exactly one task more with its execution, one process and one userspace binding.  They name each other
and the address space of the image. -/
structure Gained (s s' : SystemRuntime) (process : ProcessId) (task : TaskId) (image : ProcessImage)
    (launch : PreparedUserLaunch) : Prop where
  tasks : KernelTaskManager.Gained s.runtime.manager s'.runtime.manager task .userspace
  absent : s.processes.slot process = .error .invalidProcess
  processes : ∃ slot : ProcessSlot, slot.state = some .ready ∧ slot.image = some image ∧
    (slot.binding.map fun b => (b.process, b.task, b.execution, b.addressSpace)) =
      some (process, task, .forTask task, image.addressSpace.id) ∧
    s'.processes.slot = Function.update s.processes.slot process (.ok slot)
  unbound : s.userspace.get task = none
  space : launch.addressSpace = image.addressSpace.id
  userspace : s'.userspace.get =
    Function.update s.userspace.get task (some ⟨process, task, image.addressSpace.id, launch, none⟩)
  currentProcess : s'.currentProcess = s.currentProcess
  pendingExit : s'.pendingExit = s.pendingExit

theorem GivenUp.restored {s s' : SystemRuntime} {task : TaskId} (h : GivenUp s s' task) : Restored s s' :=
  ⟨h.tasks.restored, h.processes, congrArg _ h.userspace, h.currentProcess, h.pendingExit⟩

private theorem Gained.userSpawned {s s' : SystemRuntime} {process : ProcessId} {task : TaskId} {image : ProcessImage}
    {launch : PreparedUserLaunch} (h : Gained s s' process task image launch)
    (htasks : KernelTaskManager.Added s.runtime.manager s'.runtime.manager task .userspace) :
    UserSpawned s s' process task image.addressSpace.id where
  tasks := htasks
  absent := h.absent
  processes := by
    obtain ⟨slot, hstate, himage, hbinding, hslot⟩ := h.processes
    refine ⟨slot, hstate, by rw [himage]; rfl, ?_, hslot⟩
    obtain ⟨binding, hb, hmatch⟩ := Option.map_eq_some_iff.mp hbinding
    simp only [Prod.mk.injEq] at hmatch
    rw [hb, Option.map_some, hmatch.2.1, hmatch.2.2.2]
  userspace := ⟨_, rfl, h.userspace⟩
  currentProcess := h.currentProcess
  pendingExit := h.pendingExit

/-- The ways in which a spawn of a process ends; the processes, the executions and the userspace
bindings may be any. -/
theorem spawnUserReady_ends {s : SystemRuntime} (hnumbered : s.scheduler.Numbered) (hsound : s.scheduler.view.Sound)
    (hfits : s.scheduler.tasks.length < 2 ^ 32) (image : ProcessImage) (launch : PreparedUserLaunch)
    (priority : Priority) (placement : Option Placement) :
    (∃ e, s.spawnUserReady image launch priority placement = (s, .error e)) ∨
    (∃ s' task e, s.spawnUserReady image launch priority placement = (s', .error e) ∧ GivenUp s s' task) ∨
    ∃ s' process task, s.spawnUserReady image launch priority placement = (s', .ok (process, task)) ∧
      KernelTaskManager.Added s.runtime.manager s'.runtime.manager task .userspace ∧
      Gained s s' process task image launch := by
  unfold spawnUserReady
  dsimp only
  split_ifs with hspace
  · exact .inl ⟨_, rfl⟩
  right
  rcases hcreate : s.scheduler.createTaskWithKind priority .userspace with ⟨s₁, task⟩
  obtain ⟨s₂, hattach, hborn⟩ := Scheduler.createTaskWithKind_newborn hnumbered hfits hcreate
  have hqueue : task ∉ s.scheduler.ready.queue := hsound.notMem (by simp [Scheduler.state, hborn.absent])
  simp only [Scheduler.createUserTask, hcreate, hattach]
  rcases s.executions.insert_cases (.forTask task) placement with ⟨e, hinsert⟩ |
    ⟨r, b, hinsert, hvacant, hfresh, hget⟩
  · simp only [hinsert]
    exact .inl ⟨_, task, _, rfl, .of_newborn hborn rfl, rfl, rfl, rfl, rfl⟩
  simp only [hinsert]
  -- whatever fails from here on, the execution that has been made for the task is removed again
  have hremove : (r.remove (.forTask task)).1.get = s.executions.get :=
    ExecutionRegistry.get_remove_added hvacant hget
  rcases s.processes.spawnReady_cases image task (.forTask task) image.addressSpace.id with
    ⟨m, e, hspawn, hslot⟩ | ⟨m, process, binding, hspawn, habsent, hbinding, hslot⟩
  · simp only [hspawn]
    exact .inl ⟨_, task, _, rfl, .of_newborn hborn hremove, hslot, rfl, rfl, rfl⟩
  simp only [hspawn, UserExecutionBinding.new, hspace, if_false]
  rcases s.userspace.insert_cases ⟨process, task, image.addressSpace.id, launch, none⟩ with
    ⟨e, huserInsert⟩ | ⟨u, huserInsert, hunbound, huserGet⟩
  · simp only [huserInsert]
    exact .inl ⟨_, task, _, rfl, .of_newborn hborn hremove, ProcessManager.slot_abortReady_added habsent hslot rfl,
      rfl, rfl, rfl⟩
  obtain ⟨s₃, hmake, hadded⟩ := KernelTaskManager.Added.of_newborn (m := s.runtime.manager) hborn hqueue hfresh hget
  simp only [huserInsert, hmake]
  refine .inr ⟨_, process, task, rfl, hadded, ?_⟩
  exact
    { tasks := hadded.gained hborn.absent hvacant
      absent := habsent
      processes := by
        unfold ProcessExecutionBinding.new at hbinding
        split_ifs at hbinding
        refine ⟨_, rfl, rfl, ?_, hslot⟩
        rw [← Option.some.inj hbinding]
        rfl
      unbound := hunbound
      space := not_not.mp hspace
      userspace := huserGet
      currentProcess := rfl
      pendingExit := rfl }

theorem spawnUserReady_cases {s : SystemRuntime} (hs : s.Coherent) (hfits : s.scheduler.tasks.length < 2 ^ 32)
    (image : ProcessImage) (launch : PreparedUserLaunch) (priority : Priority) (placement : Option Placement) :
    (∃ e, s.spawnUserReady image launch priority placement = (s, .error e)) ∨
    (∃ s' task e, s.spawnUserReady image launch priority placement = (s', .error e) ∧ GivenUp s s' task) ∨
    ∃ s' process task, s.spawnUserReady image launch priority placement = (s', .ok (process, task)) ∧
      UserSpawned s s' process task image.addressSpace.id := by
  rcases spawnUserReady_ends hs.numbered hs.sound hfits image launch priority placement with
    hrefused | hgiven | ⟨s', process, task, hspawn, hadded, hgained⟩
  · exact .inl hrefused
  · exact .inr (.inl hgiven)
  · exact .inr (.inr ⟨s', process, task, hspawn, hgained.userSpawned hadded⟩)

/-! ### Reaping -/

/-- `ProcessManager::reap`, called on the processes that the system runtime owns. -/
def reap (s : SystemRuntime) (process : ProcessId) : SystemRuntime × Except ProcessManagerError ReapedProcess :=
  let (processes, result) := s.processes.reap process
  ({ s with processes }, result)

/-- Only a process that has exited is gone. -/
structure Reaped (s s' : SystemRuntime) (process : ProcessId) : Prop where
  exited : ∃ slot, s.processes.slot process = .ok slot ∧ slot.state = some .exited
  processes : s'.processes.slot = Function.update s.processes.slot process (.error .invalidProcess)
  others : s' = { s with processes := s'.processes }

theorem reap_cases (s : SystemRuntime) (process : ProcessId) :
    (∃ e, s.reap process = (s, .error e)) ∨ ∃ s' r, s.reap process = (s', .ok r) ∧ Reaped s s' process := by
  unfold reap
  rcases s.processes.reap_cases process with ⟨e, h⟩ | ⟨m, slot, image, code, h, hslot, hstate, -, -, hslots⟩
  · rw [h]
    exact .inl ⟨e, rfl⟩
  · rw [h]
    exact .inr ⟨_, _, rfl, ⟨slot, hslot, hstate⟩, hslots, rfl⟩

namespace Reaped

variable {s s' : SystemRuntime} {process : ProcessId}

theorem move (h : Reaped s s' process) : Lifecycle.Move s.lifecycle [] s'.lifecycle := by
  obtain ⟨slot, hslot, hstate⟩ := h.exited
  have heq : s'.lifecycle = { s.lifecycle with process := Function.update s.lifecycle.process process none } := by
    have hprocess : slotView ∘ s'.processes.slot = Function.update (slotView ∘ s.processes.slot) process none := by
      rw [h.processes, Function.comp_update]
      rfl
    rw [h.others]
    show Lifecycle.mk _ _ _ _ _ _ (slotView ∘ s'.processes.slot) _ = _
    rw [hprocess]
    rfl
  rw [heq]
  exact .reap (lifecycle_process (e := ⟨.exited, _⟩) |>.mpr ⟨slot, hslot, hstate, rfl⟩) rfl

theorem coherent (h : Reaped s s' process) (hs : s.Coherent) : s'.Coherent := by
  have hmove := h.move
  obtain ⟨-, hprocesses, hothers⟩ := h
  have himage : ∀ id slot, s'.processes.slot id = .ok slot → slot.image.isSome = true := by
    rw [hprocesses]
    exact forall_update hs.image fun slot hslot => by cases hslot
  rw [hothers] at hmove ⊢
  exact ⟨hs.numbered, hmove.agrees hs.agrees, hmove.stored hs.stored, hs.handle, hs.stack, hs.resume, himage⟩

end Reaped

end SystemRuntime

end X11Os
