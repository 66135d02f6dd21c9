import X11Os.Arch.SystemRuntime
import X11Os.Process.Lifecycle

/-!
# The system runtime follows the lifecycle

What the system runtime shows of itself is a lifecycle (`SystemRuntime.lifecycle`).  Each of its transactions fails
and changes nothing of it but for a used-up name, or is one of the moves.
-/

namespace X11Os

open Word Exec

namespace SystemRuntime

/-! ### The view -/

def taskView (t : TaskControlBlock) : TaskKind × TaskState := (t.kind, t.state)

def userView (b : UserExecutionBinding) : UserEntry ProcessId AddressSpaceId InterruptedState :=
  ⟨b.process, b.addressSpace, b.resume⟩

def slotView : Except ProcessManagerError ProcessSlot → Option (ProcessEntry TaskId AddressSpaceId)
  | .error _ => none
  | .ok slot => slot.state.map fun state => ⟨state, slot.binding.map fun b => (b.task, b.addressSpace)⟩

private theorem taskView_of_kind {t : TaskControlBlock} {kind : TaskKind} (h : t.kind = kind) (state : TaskState) :
    taskView { t with state } = (kind, state) := by
  rw [← h]
  rfl

private theorem slotView_of_binding {slot : ProcessSlot} {binding : Option (TaskId × AddressSpaceId)}
    (h : (slot.binding.map fun b => (b.task, b.addressSpace)) = binding) {state : ProcessState}
    {exitCode : Option U64} :
    slotView (.ok { slot with state := some state, exitCode }) = some ⟨state, binding⟩ := by
  rw [← h]
  rfl

def lifecycle (s : SystemRuntime) : Lifecycle TaskId ProcessId AddressSpaceId InterruptedState where
  task := Option.map taskView ∘ s.scheduler.task
  queue := s.scheduler.ready.queue
  current := s.scheduler.current
  issued := s.scheduler.issued
  executing := { id | (s.executions.get id).isSome }
  user := Option.map userView ∘ s.userspace.get
  process := slotView ∘ s.processes.slot
  currentProcess := s.currentProcess

/-- The registries agree, and what they hold can be used: every task has its execution handle, every execution has a
stack, every stored state is one of user mode, every process has its image. -/
structure Coherent (s : SystemRuntime) : Prop where
  numbered : s.scheduler.Numbered
  agrees : s.lifecycle.Agrees
  stored : s.lifecycle.Stored
  handle : ∀ id t, s.scheduler.task id = some t → t.execution = some (.forTask id)
  stack : ∀ id b, s.executions.get id = some b → b.stackTop.isSome = true
  resume : ∀ id b, s.userspace.get id = some b → ∀ state, b.resume = some state → state.isUserValid = true
  image : ∀ id slot, s.processes.slot id = .ok slot → slot.image.isSome = true

theorem lifecycle_task {s : SystemRuntime} {id : TaskId} {kind : TaskKind} {state : TaskState} :
    s.lifecycle.task id = some (kind, state) ↔ ∃ t, s.scheduler.task id = some t ∧ t.kind = kind ∧
    t.state = state := by
  simp [lifecycle, taskView]

theorem lifecycle_user {s : SystemRuntime} {id : TaskId} {u : UserEntry ProcessId AddressSpaceId InterruptedState} :
    s.lifecycle.user id = some u ↔ ∃ b, s.userspace.get id = some b ∧ userView b = u := by
  simp [lifecycle]

theorem lifecycle_process {s : SystemRuntime} {id : ProcessId} {e : ProcessEntry TaskId AddressSpaceId} :
    s.lifecycle.process id = some e ↔ ∃ slot, s.processes.slot id = .ok slot ∧ slot.state = some e.state ∧
      (slot.binding.map fun b => (b.task, b.addressSpace)) = e.binding := by
  cases e
  cases hs : s.processes.slot id with
  | error _ => simp [lifecycle, slotView, hs]
  | ok slot => simp [lifecycle, slotView, hs]

private theorem view_eq_discipline (s : SystemRuntime) : s.scheduler.view = s.lifecycle.discipline := by
  simp only [Scheduler.view, Lifecycle.discipline, lifecycle, Discipline.mk.injEq, and_true]
  funext id
  simp only [Scheduler.state, Function.comp, Option.map_map]
  rfl

theorem Coherent.sound {s : SystemRuntime} (hs : s.Coherent) : s.scheduler.view.Sound := by
  rw [view_eq_discipline]
  exact hs.agrees.sound

/-! ### Handing the CPU over -/

/-- The owner of the CPU and its process, and the userspace task at the head of the queue and its process. -/
structure Handover (s : SystemRuntime) (process : ProcessId) (task : TaskId) (plan : UserSuccessorPlan) where
  slot : ProcessSlot
  block : TaskControlBlock
  user : UserExecutionBinding
  nextSlot : ProcessSlot
  nextBlock : TaskControlBlock
  rest : List TaskId
  current : s.scheduler.current = some task
  queue : s.scheduler.ready.queue = plan.task :: rest
  notMem_queue : task ∉ s.scheduler.ready.queue
  task_ne : plan.task ≠ task
  process_ne : plan.process ≠ process
  slot_eq : s.processes.slot process = .ok slot
  slot_state : slot.state = some .running
  slot_binding : (slot.binding.map fun b => (b.task, b.addressSpace)) = some (task, user.addressSpace)
  block_eq : s.scheduler.task task = some block
  block_kind : block.kind = .userspace
  block_state : block.state = .running
  user_eq : s.userspace.get task = some user
  user_process : user.process = process
  nextSlot_eq : s.processes.slot plan.process = .ok nextSlot
  nextSlot_state : nextSlot.state = some .ready
  nextSlot_binding :
    (nextSlot.binding.map fun b => (b.task, b.addressSpace)) = some (plan.task, plan.binding.addressSpace)
  nextBlock_eq : s.scheduler.task plan.task = some nextBlock
  nextBlock_kind : nextBlock.kind = .userspace
  nextBlock_state : nextBlock.state = .ready
  nextUser_eq : s.userspace.get plan.task = some plan.binding
  nextUser_process : plan.binding.process = plan.process

private theorem Handover.nextSlot_bound {s : SystemRuntime} {process : ProcessId} {task : TaskId}
    {plan : UserSuccessorPlan} (h : Handover s process task plan) : h.nextSlot.binding.isSome = true := by
  rw [← Option.isSome_map, h.nextSlot_binding]
  rfl

private theorem Handover.slot_bound {s : SystemRuntime} {process : ProcessId} {task : TaskId}
    {plan : UserSuccessorPlan} (h : Handover s process task plan) : h.slot.binding.isSome = true := by
  rw [← Option.isSome_map, h.slot_binding]
  rfl

theorem Handover.nextUser_task {s : SystemRuntime} {process : ProcessId} {task : TaskId} {plan : UserSuccessorPlan}
    (h : Handover s process task plan) : plan.binding.task = plan.task :=
  KeyedSlots.key_of_get h.nextUser_eq

/-- A userspace execution belongs to a live task and to the process bound to it. -/
theorem Coherent.entry {s : SystemRuntime} (hs : s.Coherent) {id : TaskId} {b : UserExecutionBinding}
    (hb : s.userspace.get id = some b) :
    ∃ block slot pst st, s.scheduler.task id = some block ∧ taskView block = (.userspace, st) ∧
      s.processes.slot b.process = .ok slot ∧ slot.state = some pst ∧
      (slot.binding.map fun b => (b.task, b.addressSpace)) = some (id, b.addressSpace) ∧
      Lifecycle.InStep pst st := by
  obtain ⟨st, pst, htask, hstep, hprocess⟩ := hs.agrees.user id _ (lifecycle_user.mpr ⟨b, hb, rfl⟩)
  obtain ⟨block, hblock, hkind, hstate⟩ := lifecycle_task.mp htask
  obtain ⟨slot, hslot, hpst, hbinding⟩ := lifecycle_process.mp hprocess
  exact ⟨block, slot, pst, st, hblock, by rw [taskView, hkind, hstate], hslot, hpst, hbinding, hstep⟩

/-- Without a current process nobody owns the CPU. -/
private theorem Coherent.idle {s : SystemRuntime} (hs : s.Coherent) (h : s.currentProcess = none) :
    s.scheduler.current = none := by
  by_contra hne
  obtain ⟨task, hcur⟩ := Option.ne_none_iff_exists'.mp hne
  obtain ⟨u, hu⟩ := Option.ne_none_iff_exists'.mp (hs.agrees.bound task _ (hs.agrees.owner task hcur))
  have hsome : s.currentProcess = some u.process := (hs.agrees.currentProcess _).mpr ⟨task, u, hcur, hu, rfl⟩
  rw [h] at hsome
  cases hsome

/-- The owner of the CPU has no stored state, so its snapshot can be stored. -/
theorem Coherent.resume_owner {s : SystemRuntime} (hs : s.Coherent) {task : TaskId}
    {b : UserExecutionBinding} (hcur : s.scheduler.current = some task) (hb : s.userspace.get task = some b) :
    b.resume = none :=
  hs.stored.owner hcur (lifecycle_user.mpr ⟨b, hb, rfl⟩)

theorem Coherent.handover {s : SystemRuntime} (hs : s.Coherent) {process : ProcessId} {task : TaskId}
    {plan : UserSuccessorPlan} (hprocess : s.currentProcess = some process) (hcur : s.scheduler.current = some task)
    (hplan : s.Selected (some task) plan) : Nonempty (Handover s process task plan) := by
  obtain ⟨task', u, hcur', hu, huprocess⟩ := (hs.agrees.currentProcess process).mp hprocess
  obtain rfl : task = task' := Option.some.inj (hcur.symm.trans hcur')
  obtain ⟨user, huser, rfl⟩ := lifecycle_user.mp hu
  obtain ⟨rest, hq⟩ := List.head?_eq_some_iff.mp hplan.next
  obtain ⟨block, slot, pst, st, hblock, hview, hslot, hpst, hbinding, hstep⟩ := hs.entry huser
  obtain ⟨nextBlock, nextSlot, pst', st', hblock', hview', hslot', hpst', hbinding', hstep'⟩ := hs.entry hplan.user
  have hne : plan.task ≠ task := fun heq => hplan.other (by rw [heq])
  have hrunning : st = .running := by
    obtain ⟨t, ht, -, hst⟩ := lifecycle_task.mp (hs.agrees.owner task hcur)
    rw [hblock, Option.some.injEq] at ht
    rw [← ht] at hst
    exact (congrArg Prod.snd hview).symm.trans hst
  have hready : st' = .ready := by
    have hst := hplan.state
    rw [Scheduler.state, hblock', Option.map_some, Option.some.injEq] at hst
    exact (congrArg Prod.snd hview').symm.trans hst
  subst hrunning hready
  cases hstep
  cases hstep'
  have hpne : plan.process ≠ process := by
    rintro rfl
    rw [← hplan.process] at huprocess
    refine hne (hs.agrees.user_inj (lifecycle_user.mpr ⟨_, hplan.user, rfl⟩) hu ?_)
    exact huprocess.symm
  have hnot : task ∉ s.scheduler.ready.queue := by
    refine hs.sound.notMem ?_
    rw [Scheduler.view_state, Scheduler.state_of_task hblock, show block.state = _ from congrArg Prod.snd hview]
    simp
  rw [show user.process = process from huprocess] at hslot
  rw [hplan.process] at hslot'
  exact ⟨{ slot, block, user, nextSlot, nextBlock, rest
           current := hcur, queue := hq, notMem_queue := hnot, task_ne := hne, process_ne := hpne
           slot_eq := hslot, slot_state := hpst, slot_binding := hbinding
           block_eq := hblock, block_kind := congrArg Prod.fst hview, block_state := congrArg Prod.snd hview
           user_eq := huser, user_process := huprocess
           nextSlot_eq := hslot', nextSlot_state := hpst', nextSlot_binding := hbinding'
           nextBlock_eq := hblock', nextBlock_kind := congrArg Prod.fst hview'
           nextBlock_state := congrArg Prod.snd hview'
           nextUser_eq := hplan.user, nextUser_process := hplan.process }⟩

end SystemRuntime

namespace System

open SystemRuntime

/-! ### Exit -/

/-- What a committed exit has done. -/
structure ExitEffect (s s' : System) {process : ProcessId} {task : TaskId} {plan : UserSuccessorPlan}
    (h : Handover s.toSystemRuntime process task plan) : Prop where
  processes : s'.processes.slot = Function.update
    (Function.update s.processes.slot plan.process (.ok { h.nextSlot with state := some .running }))
    process (.ok { h.slot with state := some .exited, exitCode := some 0 })
  task_eq : s'.scheduler.task = Function.update (Function.update s.scheduler.task task none) plan.task
    (some { h.nextBlock with state := .running })
  queue : s'.scheduler.ready.queue = h.rest
  current : s'.scheduler.current = some plan.task
  names : s.scheduler.SameNames s'.scheduler
  executions : s'.executions.get = Function.update s.executions.get task none
  userspace : s'.userspace.get = Function.update (Function.update s.userspace.get task none) plan.task
    (some { plan.binding with resume := none })
  currentProcess : s'.currentProcess = some plan.process
  pendingExit : s'.pendingExit = none

theorem finishExit_runs {s : System} {process : ProcessId} {task : TaskId} {plan : UserSuccessorPlan}
    (h : Handover s.toSystemRuntime process task plan) (transfer : UserReturnTransfer)
    (htransfer : transfer.resume = plan.binding.resume) (stackTop : U64) :
    ∃ s', Runs (finishExit process task plan transfer (.forTask task) stackTop) s transfer s' ∧
    ExitEffect s s' h := by
  obtain ⟨m₁, hstart, hslot₁⟩ := ProcessManager.start_ok h.nextSlot_eq h.nextSlot_state h.nextSlot_bound
  have hc₁ : m₁.slot process = .ok h.slot := by rw [hslot₁, Function.update_of_ne h.process_ne.symm, h.slot_eq]
  obtain ⟨m₂, hexit, hslot₂⟩ := ProcessManager.requestExit_ok hc₁ (.inr h.slot_state) 0
  obtain ⟨scheduler, hterm, htask, hqueue, hcurrent, hnames⟩ := Scheduler.terminateCurrentTo_spec h.current
    h.task_ne.symm h.queue h.block_eq h.block_state h.nextBlock_eq
    h.nextBlock_state
  obtain ⟨u₁, hremove, hget₁⟩ := UserExecutionRegistry.remove_ok h.user_eq
  have hu₁ : u₁.get plan.task = some plan.binding := by rw [hget₁, Function.update_of_ne h.task_ne, h.nextUser_eq]
  obtain ⟨u₂, hconsume, hget₂⟩ := consumeResume_runs (ε := SystemRuntimeError) (s := { s with
    processes := m₂
    runtime.manager.scheduler := scheduler
    runtime.manager.executions := (s.executions.remove (.forTask task)).1
    userspace := u₁ }) hu₁ htransfer
  refine ⟨_, .bind (.mapErr (.focus hstart)) (.bind (.mapErr (.focus hexit)) (.bind (.mapErr (.focus hterm))
    (.bind (.mapErr (.focus hremove)) (.bind .modify (.bind hconsume (.bind .modify (.bind .modify
      (.bind .modify .pure)))))))), ?_⟩
  exact
    { processes := hslot₂.trans (by rw [hslot₁])
      task_eq := htask
      queue := hqueue
      current := hcurrent
      names := hnames
      executions := ExecutionRegistry.get_remove ..
      userspace := hget₂.trans (by rw [hget₁])
      currentProcess := rfl
      pendingExit := rfl }

namespace ExitEffect

variable {s s' : System} {process : ProcessId} {task : TaskId} {plan : UserSuccessorPlan}
  {h : Handover s.toSystemRuntime process task plan}

private theorem lifecycle_eq (e : ExitEffect s s' h) :
    s'.lifecycle =
      (s.lifecycle.retire task (userView h.user)).dispatch plan.task (userView plan.binding) none h.rest := by
  apply Lifecycle.ext
  case task =>
    show Option.map taskView ∘ s'.scheduler.task = _
    rw [e.task_eq, Function.comp_update, Function.comp_update, Option.map_none, Option.map_some,
      taskView_of_kind h.nextBlock_kind .running]
    rfl
  case queue => exact e.queue
  case current => exact e.current
  case issued => exact e.names.issued
  case executing =>
    ext id
    show (s'.executions.get id).isSome = true ↔ (s.executions.get id).isSome = true ∧ id ∉ ({task} : Set TaskId)
    rw [e.executions]
    by_cases hid : id = task <;> simp [hid]
  case user =>
    show Option.map userView ∘ s'.userspace.get = _
    rw [e.userspace, Function.comp_update, Function.comp_update]
    rfl
  case process =>
    show slotView ∘ s'.processes.slot = Function.update (Function.update (slotView ∘ s.processes.slot) h.user.process
      (some ⟨.exited, some (task, h.user.addressSpace)⟩)) plan.binding.process
      (some ⟨.running, some (plan.task, plan.binding.addressSpace)⟩)
    rw [e.processes, Function.update_comm h.process_ne, Function.comp_update, Function.comp_update,
      slotView_of_binding h.slot_binding, slotView_of_binding h.nextSlot_binding, h.user_process, h.nextUser_process]
  case currentProcess =>
    show s'.currentProcess = some plan.binding.process
    rw [e.currentProcess, h.nextUser_process]

theorem move (e : ExitEffect s s' h) :
    Lifecycle.Move s.lifecycle [.transferred plan.task plan.binding.resume] s'.lifecycle := by
  rw [e.lifecycle_eq]
  exact .exitTo h.current (lifecycle_user.mpr ⟨_, h.user_eq, rfl⟩) h.queue
    (lifecycle_user.mpr ⟨_, h.nextUser_eq, rfl⟩)

theorem coherent (e : ExitEffect s s' h) (hs : s.Coherent) : s'.Coherent where
  numbered := e.names.numbered hs.numbered
  agrees := e.move.agrees hs.agrees
  stored := e.move.stored hs.stored
  handle := by
    rw [e.task_eq]
    refine forall_update (forall_update hs.handle (by simp)) fun t ht => ?_
    rw [← Option.some.inj ht]
    exact hs.handle plan.task h.nextBlock h.nextBlock_eq
  stack := by
    rw [e.executions]
    exact forall_update hs.stack (by simp)
  resume := by
    rw [e.userspace]
    refine forall_update (forall_update hs.resume (by simp)) fun b hb state hstate => ?_
    rw [← Option.some.inj hb] at hstate
    cases hstate
  image := by
    rw [e.processes]
    refine forall_update (forall_update hs.image fun slot hslot => ?_) fun slot hslot => ?_
    · rw [← Except.ok.inj hslot]
      exact hs.image plan.process h.nextSlot h.nextSlot_eq
    · rw [← Except.ok.inj hslot]
      exact hs.image process h.slot h.slot_eq

end ExitEffect

/-- A commit fails and changes nothing, or it is an exit of the process that asked for it. -/
theorem commitPendingExit_transacts {s : System} (hs : s.Coherent) :
    Transacts commitPendingExit s fun transfer s' => ∃ process task code plan,
      s.pendingExit = some (process, task, code) ∧ s.currentProcess = some process ∧
      transfer = UserReturnTransfer.new plan.binding ∧
      ∃ h : Handover s.toSystemRuntime process task plan, ExitEffect s s' h := by
  refine .get (.okOr fun ⟨process, task, code⟩ hpending => .reject fun hcurrent => .orThrow fun plan hplan =>
    .orThrow fun binding hbinding => .okOr fun binding' hbound => .reject fun htask => .orThrow fun state hstate =>
    .reject fun hrunning => .orThrow fun transfer htransfer => .okOr fun execution hexecution =>
    .okOr fun stackTop hstack => ?_)
  rw [not_or, not_not, not_not] at hcurrent
  obtain ⟨h⟩ := hs.handover hcurrent.1 hcurrent.2 (selectUserspaceSuccessor_eq_ok.mp hplan)
  obtain rfl := UserReturnTransfer.validate_eq_ok htransfer
  have hhandle : execution = .forTask task := by
    rw [Scheduler.execution, h.block_eq, Option.bind_some, hs.handle task h.block h.block_eq] at hexecution
    exact (Option.some.inj hexecution).symm
  subst hhandle
  obtain ⟨s', hruns, heffect⟩ := finishExit_runs h (.new plan.binding) rfl stackTop
  exact .of_runs hruns ⟨process, task, code, plan, hpending, hcurrent.1, rfl, h, heffect⟩

/-! ### Yield -/

/-- What a committed yield has done; `resume` is what is stored for the task that has lost the CPU. -/
structure YieldEffect (s s' : System) {process : ProcessId} {task : TaskId} {plan : UserSuccessorPlan}
    (h : Handover s.toSystemRuntime process task plan) (resume : Option InterruptedState) : Prop where
  processes : s'.processes.slot = Function.update
    (Function.update s.processes.slot process (.ok { h.slot with state := some .ready }))
    plan.process (.ok { h.nextSlot with state := some .running })
  task_eq : s'.scheduler.task = Function.update
    (Function.update s.scheduler.task task (some { h.block with state := .ready })) plan.task
    (some { h.nextBlock with state := .running })
  queue : s'.scheduler.ready.queue = h.rest ++ [task]
  current : s'.scheduler.current = some plan.task
  names : s.scheduler.SameNames s'.scheduler
  executions : s'.executions = s.executions
  userspace : s'.userspace.get = Function.update
    (Function.update s.userspace.get task (some { h.user with resume })) plan.task
    (some { plan.binding with resume := none })
  currentProcess : s'.currentProcess = some plan.process
  pendingExit : s'.pendingExit = s.pendingExit

theorem finishYield_runs {s : System} {process : ProcessId} {task : TaskId} {plan : UserSuccessorPlan}
    (h : Handover s.toSystemRuntime process task plan) (transfer : UserReturnTransfer)
    (htransfer : transfer.resume = plan.binding.resume) (stackTop : U64) {userspace : UserExecutionRegistry}
    {resume : Option InterruptedState}
    (huserspace : userspace.get = Function.update s.userspace.get task (some { h.user with resume })) :
    ∃ s', Runs (finishYield process plan transfer stackTop) { s with userspace } (some transfer) s' ∧
      YieldEffect s s' h resume := by
  obtain ⟨m₁, hyield, hslot₁⟩ := ProcessManager.yieldTo_ok h.process_ne.symm h.slot_eq h.nextSlot_eq h.slot_state
    h.nextSlot_state h.slot_bound h.nextSlot_bound
  obtain ⟨scheduler, hschedule, htask, hqueue, hcurrent, hnames⟩ := Scheduler.scheduleNext_running_spec h.current
    h.block_eq h.block_state h.notMem_queue h.queue h.nextBlock_eq h.nextBlock_state
  have hu₁ : userspace.get plan.task = some plan.binding := by
    rw [huserspace, Function.update_of_ne h.task_ne, h.nextUser_eq]
  obtain ⟨u₂, hconsume, hget₂⟩ := consumeResume_runs (ε := SystemRuntimeError) (s := { s with
    processes := m₁
    runtime.manager.scheduler := scheduler
    userspace }) hu₁ htransfer
  refine ⟨_, .bind (.mapErr (.focus hyield)) (.bind (scheduleNext_runs hschedule) (.bind .get (.bind (.reject ?_)
    (.bind hconsume (.bind .modify (.bind .modify (.bind .modify .pure))))))), ?_⟩
  · rintro (hnext | hcur)
    · exact hnext rfl
    · exact hcur hcurrent
  · exact
      { processes := hslot₁
        task_eq := htask
        queue := hqueue
        current := hcurrent
        names := hnames
        executions := rfl
        userspace := hget₂.trans (by rw [huserspace])
        currentProcess := rfl
        pendingExit := rfl }

namespace YieldEffect

variable {s s' : System} {process : ProcessId} {task : TaskId} {plan : UserSuccessorPlan}
  {h : Handover s.toSystemRuntime process task plan} {resume : Option InterruptedState}

private theorem lifecycle_eq (e : YieldEffect s s' h resume) :
    s'.lifecycle = (s.lifecycle.suspend task (userView h.user) resume).dispatch plan.task (userView plan.binding) none
      (h.rest ++ [task]) := by
  apply Lifecycle.ext
  case task =>
    show Option.map taskView ∘ s'.scheduler.task = _
    rw [e.task_eq, Function.comp_update, Function.comp_update, Option.map_some, Option.map_some,
      taskView_of_kind h.block_kind .ready, taskView_of_kind h.nextBlock_kind .running]
    rfl
  case queue => exact e.queue
  case current => exact e.current
  case issued => exact e.names.issued
  case executing =>
    show { id | (s'.executions.get id).isSome } = { id | (s.executions.get id).isSome }
    rw [e.executions]
  case user =>
    show Option.map userView ∘ s'.userspace.get = _
    rw [e.userspace, Function.comp_update, Function.comp_update]
    rfl
  case process =>
    show slotView ∘ s'.processes.slot = Function.update (Function.update (slotView ∘ s.processes.slot) h.user.process
      (some ⟨.ready, some (task, h.user.addressSpace)⟩)) plan.binding.process
      (some ⟨.running, some (plan.task, plan.binding.addressSpace)⟩)
    rw [e.processes, Function.comp_update, Function.comp_update, slotView_of_binding h.slot_binding,
      slotView_of_binding h.nextSlot_binding, h.user_process, h.nextUser_process]
  case currentProcess =>
    show s'.currentProcess = some plan.binding.process
    rw [e.currentProcess, h.nextUser_process]

theorem move {snapshot : Option InterruptedState} (e : YieldEffect s s' h (snapshot.or h.user.resume)) :
    Lifecycle.Move s.lifecycle [.switchedOut task snapshot, .transferred plan.task plan.binding.resume]
      s'.lifecycle := by
  rw [e.lifecycle_eq]
  exact .yieldTo snapshot h.current (lifecycle_user.mpr ⟨_, h.user_eq, rfl⟩) h.queue
    (lifecycle_user.mpr ⟨_, h.nextUser_eq, rfl⟩)

theorem coherent {snapshot : Option InterruptedState} (e : YieldEffect s s' h (snapshot.or h.user.resume))
    (hs : s.Coherent) (hvalid : ∀ state, snapshot = some state → state.isUserValid = true) : s'.Coherent where
  numbered := e.names.numbered hs.numbered
  agrees := e.move.agrees hs.agrees
  stored := e.move.stored hs.stored
  handle := by
    rw [e.task_eq]
    refine forall_update (forall_update hs.handle fun t ht => ?_) fun t ht => ?_
    · rw [← Option.some.inj ht]
      exact hs.handle task h.block h.block_eq
    · rw [← Option.some.inj ht]
      exact hs.handle plan.task h.nextBlock h.nextBlock_eq
  stack := by
    rw [e.executions]
    exact hs.stack
  resume := by
    rw [e.userspace]
    refine forall_update (forall_update hs.resume fun b hb state hstate => ?_) fun b hb state hstate => ?_
    · rw [← Option.some.inj hb] at hstate
      cases snapshot with
      | none => exact hs.resume task h.user h.user_eq state hstate
      | some captured => exact hvalid state hstate
    · rw [← Option.some.inj hb] at hstate
      cases hstate
  image := by
    rw [e.processes]
    refine forall_update (forall_update hs.image fun slot hslot => ?_) fun slot hslot => ?_
    · rw [← Except.ok.inj hslot]
      exact hs.image process h.slot h.slot_eq
    · rw [← Except.ok.inj hslot]
      exact hs.image plan.process h.nextSlot h.nextSlot_eq

end YieldEffect

/-- A yield fails or finds nothing to yield to and changes nothing, or it is a switch to the successor. -/
theorem commitUserspaceYieldWithSnapshot_transacts {s : System} (hs : s.Coherent)
    (interrupted : Option (TaskId × InterruptedState)) :
    Transacts (commitUserspaceYieldWithSnapshot interrupted) s fun transfer s' =>
      (transfer = none ∧ s' = s) ∨ ∃ process task plan,
        transfer = some (UserReturnTransfer.new plan.binding) ∧ s.currentProcess = some process ∧
        (∀ captured state, interrupted = some (captured, state) → captured = task ∧ state.isUserValid = true) ∧
        ∃ h : Handover s.toSystemRuntime process task plan,
          YieldEffect s s' h ((interrupted.map Prod.snd).or h.user.resume) := by
  refine .get (.okOr fun process hprocess => .okOr fun task hcur => .orThrow fun binding hbinding =>
    .okOr fun binding' hbound => .reject fun htask => .orThrow fun state hstate => .reject fun hrunning => ?_)
  split
  · exact .of_runs .pure (.inl ⟨rfl, rfl⟩)
  · exact .throws _
  · rename_i plan hplan
    refine .orThrow fun transfer htransfer => .okOr fun stackTop hstack => ?_
    obtain ⟨h⟩ := hs.handover hprocess hcur (selectUserspaceSuccessor_eq_ok.mp hplan)
    obtain rfl := UserReturnTransfer.validate_eq_ok htransfer
    split
    · have hsame : s.userspace.get =
          Function.update s.userspace.get task (some { h.user with resume := h.user.resume }) := by
        rw [← h.user_eq, Function.update_eq_self]
      obtain ⟨s', hruns, heffect⟩ := finishYield_runs h (.new plan.binding) rfl stackTop hsame
      exact .of_runs hruns (.inr ⟨process, task, plan, rfl, hprocess, by simp, h, heffect⟩)
    · rename_i captured state
      refine .reject fun hcaptured => ?_
      rw [not_or, not_not, Bool.not_eq_false] at hcaptured
      -- the owner of the CPU has no stored state, so the snapshot can be stored
      obtain ⟨u₁, hinstall, hget⟩ :=
        UserExecutionRegistry.installResume_ok h.user_eq (hs.resume_owner hcur h.user_eq) hcaptured.2
      obtain ⟨s', hruns, heffect⟩ := finishYield_runs h (.new plan.binding) rfl stackTop hget
      refine .of_runs (.bind (.mapErr (.focus hinstall)) hruns)
        (.inr ⟨process, task, plan, rfl, hprocess, ?_, h, heffect⟩)
      rintro c st ⟨⟩
      exact hcaptured

/-! ### The first user process -/

/-- The userspace task at the head of the queue while nobody owns the CPU. -/
structure Launch (s : SystemRuntime) (process : ProcessId) (user : UserExecutionBinding) where
  slot : ProcessSlot
  block : TaskControlBlock
  rest : List TaskId
  current : s.scheduler.current = none
  queue : s.scheduler.ready.queue = user.task :: rest
  slot_eq : s.processes.slot process = .ok slot
  slot_state : slot.state = some .ready
  slot_binding : (slot.binding.map fun b => (b.task, b.addressSpace)) = some (user.task, user.addressSpace)
  block_eq : s.scheduler.task user.task = some block
  block_kind : block.kind = .userspace
  block_state : block.state = .ready
  user_eq : s.userspace.get user.task = some user
  user_process : user.process = process

/-- What `start_user` has done. -/
structure StartEffect (s s' : System) {process : ProcessId} {user : UserExecutionBinding}
    (h : Launch s.toSystemRuntime process user) : Prop where
  processes : s'.processes.slot = Function.update s.processes.slot process
    (.ok { h.slot with state := some .running })
  task_eq : s'.scheduler.task = Function.update s.scheduler.task user.task (some { h.block with state := .running })
  queue : s'.scheduler.ready.queue = h.rest
  current : s'.scheduler.current = some user.task
  names : s.scheduler.SameNames s'.scheduler
  executions : s'.executions = s.executions
  userspace : s'.userspace = s.userspace
  currentProcess : s'.currentProcess = some process
  pendingExit : s'.pendingExit = none

private theorem finishStart_runs {s : System} {process : ProcessId} {user : UserExecutionBinding}
    (h : Launch s.toSystemRuntime process user) (stackTop : U64) :
    ∃ s', Runs (finishStart process user.task user stackTop) s user.launch s' ∧ StartEffect s s' h := by
  obtain ⟨m₁, hstart, hslot₁⟩ := ProcessManager.start_ok h.slot_eq h.slot_state (by
    rw [← Option.isSome_map, h.slot_binding]
    rfl)
  obtain ⟨scheduler, hschedule, htask, hqueue, hcurrent, hnames⟩ := Scheduler.scheduleNext_idle_spec h.current
    h.queue h.block_eq h.block_state
  refine ⟨_, .bind .modify (.bind (.mapErr (.focus hstart)) (.bind (scheduleNext_runs hschedule) (.bind .get
    (.bind (.reject ?_) (.bind .modify (.bind .modify (.bind .modify .pure))))))), ?_⟩
  · rintro (hnext | hcur)
    · exact hnext rfl
    · exact hcur hcurrent
  · exact
      { processes := hslot₁
        task_eq := htask
        queue := hqueue
        current := hcurrent
        names := hnames
        executions := rfl
        userspace := rfl
        currentProcess := rfl
        pendingExit := rfl }

namespace StartEffect

variable {s s' : System} {process : ProcessId} {user : UserExecutionBinding}
  {h : Launch s.toSystemRuntime process user}

private theorem lifecycle_eq (e : StartEffect s s' h) :
    s'.lifecycle = s.lifecycle.dispatch user.task (userView user) user.resume h.rest := by
  apply Lifecycle.ext
  case task =>
    show Option.map taskView ∘ s'.scheduler.task = _
    rw [e.task_eq, Function.comp_update, Option.map_some, taskView_of_kind h.block_kind .running]
    rfl
  case queue => exact e.queue
  case current => exact e.current
  case issued => exact e.names.issued
  case executing =>
    show { id | (s'.executions.get id).isSome } = { id | (s.executions.get id).isSome }
    rw [e.executions]
  case user =>
    show Option.map userView ∘ s'.userspace.get = Function.update (Option.map userView ∘ s.userspace.get) user.task
      (some (userView user))
    rw [e.userspace, ← Option.map_some, ← h.user_eq, ← Function.comp_update, Function.update_eq_self]
  case process =>
    show slotView ∘ s'.processes.slot = Function.update (slotView ∘ s.processes.slot) user.process
      (some ⟨.running, some (user.task, user.addressSpace)⟩)
    rw [e.processes, Function.comp_update, slotView_of_binding h.slot_binding, h.user_process]
  case currentProcess =>
    show s'.currentProcess = some user.process
    rw [e.currentProcess, h.user_process]

theorem move (e : StartEffect s s' h) : Lifecycle.Move s.lifecycle [] s'.lifecycle := by
  rw [e.lifecycle_eq]
  exact .start h.current h.queue (lifecycle_user.mpr ⟨_, h.user_eq, rfl⟩)

theorem coherent (e : StartEffect s s' h) (hs : s.Coherent) : s'.Coherent where
  numbered := e.names.numbered hs.numbered
  agrees := e.move.agrees hs.agrees
  stored := e.move.stored hs.stored
  handle := by
    rw [e.task_eq]
    refine forall_update hs.handle fun t ht => ?_
    rw [← Option.some.inj ht]
    exact hs.handle user.task h.block h.block_eq
  stack := by
    rw [e.executions]
    exact hs.stack
  resume := by
    rw [e.userspace]
    exact hs.resume
  image := by
    rw [e.processes]
    refine forall_update hs.image fun slot hslot => ?_
    rw [← Except.ok.inj hslot]
    exact hs.image process h.slot h.slot_eq

end StartEffect

/-- At boot, `start_user` fails and changes nothing, or the process runs. -/
theorem startUser_transacts {s : System} (hs : s.Coherent) (hidle : s.currentProcess = none) (process : ProcessId) :
    Transacts (startUser process) s fun launch s' =>
      ∃ user, launch = user.launch ∧ ∃ h : Launch s.toSystemRuntime process user, StartEffect s s' h := by
  refine .get (.orThrow fun binding hbinding => .okOr fun binding' hbound => .okOr fun user huser =>
    .reject fun hmatch => .orThrow fun state hstate => .reject fun hready => .okOr fun stackTop hstack =>
    .reject fun hnext => ?_)
  rw [not_or, not_not, not_not] at hmatch hnext
  have htask : user.task = binding'.task := KeyedSlots.key_of_get huser
  rw [← htask] at huser hnext ⊢
  obtain ⟨block, slot, pst, st, hblock, hview, hslot, hpst, hslotBinding, hstep⟩ := hs.entry huser
  obtain ⟨rest, hq⟩ := List.head?_eq_some_iff.mp hnext.2
  have hst : st = .ready := by
    have hst := hnext.1
    rw [Scheduler.state, hblock, Option.map_some, Option.some.injEq] at hst
    exact (congrArg Prod.snd hview).symm.trans hst
  subst hst
  cases hstep
  rw [hmatch.1] at hslot
  have h : Launch s.toSystemRuntime process user :=
    { slot, block, rest
      current := hs.idle hidle, queue := hq, slot_eq := hslot, slot_state := hpst, slot_binding := hslotBinding
      block_eq := hblock, block_kind := congrArg Prod.fst hview, block_state := congrArg Prod.snd hview
      user_eq := huser, user_process := hmatch.1 }
  obtain ⟨s', hruns, heffect⟩ := finishStart_runs h stackTop
  exact .of_runs hruns ⟨user, rfl, h, heffect⟩

end System

end X11Os
