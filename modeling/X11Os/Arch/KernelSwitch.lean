import X11Os.Arch.Runtime

/-!
# What a switch of the kernel runtime does

While every task is a kernel task with an execution that can be switched to (`KernelTaskManager.Equipped`), each
operation of the kernel runtime leaves the executions alone and gives the CPU to nobody (`KernelRuntime.Kept`), or
gives it to the head of the ready queue.
-/

namespace X11Os

open Word

/-! ### Executions that can be switched to -/

namespace X86ExecutionBinding

structure Usable (b : X86ExecutionBinding) : Prop where
  initialized : b.context.isInitialized = true
  iret : ∀ state, b.interrupted = some state → state.returnState.kernelIretWords.isSome = true

private theorem Fresh.usable {b : X86ExecutionBinding} {task : TaskId} (h : b.Fresh task) : b.Usable where
  initialized := h.initialized
  iret state hstate := by
    rw [h.interrupted_eq] at hstate
    cases hstate

end X86ExecutionBinding

/-- A task goes on from the registers that a switch has saved or from the ones that an interrupt has found. -/
inductive KernelContinuation where
  | context (context : Context)
  | interrupted (state : InterruptedState)
deriving DecidableEq, Repr

/-- What a binding stores for its task: an interrupted state comes before the context. -/
def X86ExecutionBinding.continuation (b : X86ExecutionBinding) : KernelContinuation :=
  match b.interrupted with
  | some state => .interrupted state
  | none => .context b.context

/-- Some tasks get another execution, each one that can be switched to. -/
structure Exchanged (g g' : TaskId → Option X86ExecutionBinding) : Prop where
  bound : ∀ id, (g' id).isSome = (g id).isSome
  usable : ∀ id b, g' id = some b → b.Usable

theorem Exchanged.update {g g' : TaskId → Option X86ExecutionBinding} (h : Exchanged g g') {task : TaskId}
    {b b' : X86ExecutionBinding} (hg : g task = some b) (hb' : b'.Usable) :
    Exchanged g (Function.update g' task (some b')) where
  bound id := by
    by_cases hid : id = task
    · rw [hid, Function.update_self, hg]
      rfl
    · rw [Function.update_of_ne hid, h.bound]
  usable := forall_update h.usable fun b₂ hb₂ => by
    cases hb₂
    exact hb'

namespace KernelTaskManager

structure Equipped (m : KernelTaskManager) : Prop where
  settled : m.scheduler.Settled
  kernel : ∀ id, m.scheduler.taskKind id ≠ some .userspace
  bound : ∀ id, (m.scheduler.taskKind id).isSome = (m.executions.get id).isSome
  usable : ∀ id b, m.executions.get id = some b → b.Usable

theorem new_equipped : new.Equipped where
  settled := Scheduler.new_settled
  kernel := by rintro id ⟨⟩
  bound _ := rfl
  usable := by rintro id b ⟨⟩

/-- The head of the ready queue has an execution that does not pass its check. -/
def Jammed (m : KernelTaskManager) : Prop :=
  ∃ next b, m.scheduler.nextReady = some next ∧ m.executions.get next = some b ∧ b.validate ≠ .ok ()

/-- The head of the ready queue has an execution that passes its check, and no interrupted state is stored for it. -/
def HeadSwitchable (m : KernelTaskManager) : Prop :=
  ∃ next ∈ m.scheduler.nextReady, ∃ b ∈ m.executions.get next, b.validate = .ok () ∧ b.interrupted = none

instance (m : KernelTaskManager) : Decidable m.HeadSwitchable :=
  inferInstanceAs (Decidable (∃ next ∈ m.scheduler.nextReady, ∃ b ∈ m.executions.get next, _ ∧ _))

namespace Equipped

variable {m m' : KernelTaskManager}

private theorem binding_of_state (h : m.Equipped) {id : TaskId} {st : TaskState}
    (hst : m.scheduler.state id = some st) :
    ∃ b, m.executions.get id = some b := by
  obtain ⟨t, ht, -⟩ := Scheduler.task_of_state hst
  rw [← Option.isSome_iff_exists, ← h.bound, Scheduler.taskKind, ht]
  rfl

theorem binding_of_next (h : m.Equipped) {next : TaskId} (hnext : m.scheduler.nextReady = some next) :
    ∃ b, m.executions.get next = some b :=
  h.binding_of_state (h.settled.next_ready hnext)

/-- The scheduler keeps its tasks, and some executions are exchanged. -/
theorem replace (h : m.Equipped) (hsettled : m'.scheduler.Settled)
    (hkind : m'.scheduler.taskKind = m.scheduler.taskKind)
    (hexecutions : Exchanged m.executions.get m'.executions.get) : m'.Equipped where
  settled := hsettled
  kernel := by
    rw [hkind]
    exact h.kernel
  bound id := by rw [hkind, h.bound, hexecutions.bound]
  usable := hexecutions.usable

theorem exchanged (h : m.Equipped) : Exchanged m.executions.get m.executions.get := ⟨fun _ => rfl, h.usable⟩

theorem keeps (h : m.Equipped) (hkeeps : m.scheduler.Keeps m'.scheduler)
    (hget : m'.executions.get = m.executions.get) : m'.Equipped :=
  h.replace (hkeeps.settled h.settled) hkeeps.kind (hget ▸ h.exchanged)

end Equipped

theorem Jammed.keeps {m m' : KernelTaskManager} (h : m.Jammed) (hkeeps : m.scheduler.Keeps m'.scheduler)
    (hget : m'.executions.get = m.executions.get) : m'.Jammed := by
  obtain ⟨next, b, hnext, hb, hvalid⟩ := h
  exact ⟨next, b, hkeeps.nextReady hnext, by rw [hget, hb], hvalid⟩

/-! ### Spawning -/

theorem Abandoned.keeps {m m' : KernelTaskManager} {id : TaskId} (h : Abandoned m m' id) :
    m.scheduler.Keeps m'.scheduler := by
  have hstate : m'.scheduler.state = m.scheduler.state := by
    funext id
    rw [Scheduler.state, Scheduler.state, h.task]
  refine ⟨fun _ => h.numbered, fun hs => ?_, ?_, ?_, fun id hid => ?_, ?_⟩
  · rwa [Scheduler.view, hstate, h.ready, h.current]
  · funext id
    rw [Scheduler.taskKind, Scheduler.taskKind, h.task]
  · funext id
    rw [Scheduler.execution, Scheduler.execution, h.task]
  · rw [← h.current, hstate]
    exact ⟨hid, fun hrun => hrun⟩
  · exact h.ready ▸ List.prefix_rfl

theorem Added.absent {m m' : KernelTaskManager} {id : TaskId} {kind : TaskKind} (h : Added m m' id kind)
    (hm : m.Equipped) : m.scheduler.task id = none ∧ m.executions.get id = none := by
  have htask : m.scheduler.task id = none := by
    by_contra hne
    obtain ⟨t, ht⟩ := Option.ne_none_iff_exists'.mp hne
    exact h.fresh (hm.settled.numbered.mem_issued ht)
  refine ⟨htask, ?_⟩
  have hbound := hm.bound id
  rw [Scheduler.taskKind, htask, Option.map_none, eq_comm] at hbound
  exact Option.not_isSome_iff_eq_none.mp (Bool.not_eq_true _ ▸ hbound)

theorem Added.equipped {m m' : KernelTaskManager} {id : TaskId} (h : Added m m' id .kernel) (hm : m.Equipped) :
    m'.Equipped := by
  obtain ⟨t, hkind, hst, -, htask⟩ := h.task
  obtain ⟨b, hfresh, hget⟩ := h.executions
  have hstate : m'.scheduler.state = Function.update m.scheduler.state id (some .ready) := by
    rw [Scheduler.state_of_task_update htask, Option.map_some, hst]
  have hkinds : m'.scheduler.taskKind = Function.update m.scheduler.taskKind id (some .kernel) := by
    show Option.map TaskControlBlock.kind ∘ m'.scheduler.task = _
    rw [htask, Function.comp_update, Option.map_some, hkind]
    rfl
  have hnone : m.scheduler.state id = none := by rw [Scheduler.state, (h.absent hm).1, Option.map_none]
  refine ⟨⟨h.numbered, ?_, fun id' hid' => ?_⟩, fun id' => ?_, fun id' => ?_, ?_⟩
  · rw [Scheduler.view, hstate, h.ready, h.current]
    exact hm.settled.sound.enqueue (by rw [Scheduler.view_state, hnone]; exact fun h => by cases h)
  · have hrun := hm.settled.running id' (h.current ▸ hid')
    have hne : id' ≠ id := by
      rintro rfl
      rw [hnone] at hrun
      cases hrun
    rw [hstate, Function.update_of_ne hne, hrun]
  · rw [hkinds]
    by_cases hid : id' = id
    · rw [hid, Function.update_self]
      exact fun h => by cases h
    · rw [Function.update_of_ne hid]
      exact hm.kernel id'
  · rw [hkinds, hget]
    by_cases hid : id' = id
    · rw [hid, Function.update_self, Function.update_self]
      rfl
    · rw [Function.update_of_ne hid, Function.update_of_ne hid, hm.bound]
  · rw [hget]
    exact forall_update hm.usable fun b' hb' => by cases hb'; exact hfresh.usable

end KernelTaskManager

/-! ### Plans -/

private theorem ExecutionRegistry.preemptionPlan_of_context {r : ExecutionRegistry} {task : TaskId}
    {b : X86ExecutionBinding} (hget : r.get task = some b) (hb : b.Usable) (hinterrupted : b.interrupted = none) :
    r.preemptionPlan task = some (.returnToContext task b.context) := by
  simp [preemptionPlan, hget, hinterrupted, hb.initialized]

private theorem ExecutionRegistry.preemptionPlan_of_interrupted {r : ExecutionRegistry} {task : TaskId}
    {b : X86ExecutionBinding} {state : InterruptedState} (hget : r.get task = some b) (hb : b.Usable)
    (hinterrupted : b.interrupted = some state) : r.preemptionPlan task = some (.iretKernel task state) := by
  simp [preemptionPlan, hget, hinterrupted, hb.iret state hinterrupted]

theorem ExecutionRegistry.interrupted_of_iretKernel {r : ExecutionRegistry} {task id : TaskId}
    {state : InterruptedState} (h : r.preemptionPlan task = some (.iretKernel id state)) :
    ∃ b, r.get task = some b ∧ b.interrupted = some state ∧ state.returnState.kernelIretWords.isSome = true := by
  unfold preemptionPlan at h
  split at h
  · cases h
  · rename_i b hget
    split at h
    · rename_i state' hstate
      split_ifs at h with hiret
      · cases h
        exact ⟨b, hget, hstate, hiret⟩
      · cases h
    · split_ifs at h
      cases h

private theorem ExecutionRegistry.get_installInterrupted {r : ExecutionRegistry} {task : TaskId}
    {b : X86ExecutionBinding}
    {snapshot : InterruptedState} (hget : r.get task = some b) (hinterrupted : b.interrupted = none)
    (hvalid : snapshot.isValid = true) :
    ∃ r', r.installInterrupted task snapshot = (r', .ok ()) ∧
      r'.get = Function.update r.get task (some { b with interrupted := some snapshot }) := by
  have hinstall : b.installInterrupted snapshot = ({ b with interrupted := some snapshot }, .ok ()) := by
    simp [X86ExecutionBinding.installInterrupted, hinterrupted, hvalid]
  simp only [installInterrupted, hget, hinstall]
  refine ⟨_, rfl, ?_⟩
  rw [KeyedSlots.get_modify, hget, Option.map_some, hinstall]

private theorem ExecutionRegistry.get_takeKernelPreemptState {r : ExecutionRegistry} {task : TaskId}
    {b : X86ExecutionBinding} {state : InterruptedState} (hget : r.get task = some b) (hb : b.Usable)
    (hinterrupted : b.interrupted = some state) :
    ∃ r', r.takeKernelPreemptState task = (r', some state) ∧
      r'.get = Function.update r.get task (some { b with interrupted := none }) := by
  have hiret := hb.iret state hinterrupted
  rw [Option.isSome_iff_ne_none, ne_eq, ← Option.isNone_iff_eq_none] at hiret
  simp only [takeKernelPreemptState, hget, hinterrupted, if_neg hiret]
  refine ⟨_, rfl, ?_⟩
  rw [KeyedSlots.get_modify, hget, Option.map_some]

namespace KernelRuntime

variable {r : KernelRuntime}

/-- What is stored for the boot thread (`none`) and for the tasks. -/
def stored (r : KernelRuntime) : Option TaskId → Option KernelContinuation
  | none => some (.context r.bootContext)
  | some task => (r.manager.executions.get task).map X86ExecutionBinding.continuation

theorem stored_congr {r' : KernelRuntime} (hboot : r'.bootContext = r.bootContext) {t : Option TaskId}
    (h : ∀ task, t = some task → r'.manager.executions.get task = r.manager.executions.get task) :
    r'.stored t = r.stored t := by
  cases t with
  | none => rw [stored, stored, hboot]
  | some task => rw [stored, stored, h task rfl]

/-! ### Operations that switch to nobody -/

/-- Nobody gets the CPU, and what is stored for the tasks and for the boot thread stays. -/
structure Kept (r r' : KernelRuntime) : Prop where
  scheduler : r.manager.scheduler.Keeps r'.manager.scheduler
  executions : r'.manager.executions.get = r.manager.executions.get
  bootContext : r'.bootContext = r.bootContext

theorem Kept.refl (r : KernelRuntime) : Kept r r := ⟨.refl _, rfl, rfl⟩

theorem Kept.stored {r' : KernelRuntime} (h : Kept r r') : r'.stored = r.stored :=
  funext fun _ => stored_congr h.bootContext fun task _ => congrFun h.executions task

theorem sleepCurrentUntil_kept (r : KernelRuntime) (deadline : U64) : Kept r (r.sleepCurrentUntil deadline).1 :=
  ⟨r.manager.scheduler.sleepCurrentUntil_keeps deadline r.manager.sleepers, rfl, rfl⟩

theorem expireSleepers_kept (r : KernelRuntime) (now : U64) :
    Kept r { r with manager := (r.manager.expireSleepers now).1 } :=
  ⟨r.manager.scheduler.expireSleepers_keeps now r.manager.sleepers, rfl, rfl⟩

theorem serviceTimer_kept (r : KernelRuntime) (now : U64) : Kept r (r.serviceTimer now).1 :=
  ⟨(r.expireSleepers_kept now).scheduler, rfl, rfl⟩

/-! ### Voluntary switches -/

/-- Writes the context that `dispatch_once` has chosen for the caller. -/
def saveContext (r : KernelRuntime) : Option TaskId → Context → KernelRuntime
  | none, context => { r with bootContext := context }
  | some task, context => { r with manager.executions := r.manager.executions.setContext task context }

@[simp] theorem scheduler_saveContext (r : KernelRuntime) (caller : Option TaskId) (saved : Context) :
    (r.saveContext caller saved).manager.scheduler = r.manager.scheduler := by
  cases caller <;> rfl

theorem get_saveContext (r : KernelRuntime) (caller : Option TaskId) (saved : Context) (task : TaskId) :
    (r.saveContext caller saved).manager.executions.get task =
      if caller = some task then (r.manager.executions.get task).map fun b => { b with context := saved }
      else r.manager.executions.get task := by
  cases caller with
  | none => rfl
  | some caller =>
    show (r.manager.executions.setContext caller saved).get task = _
    rw [ExecutionRegistry.setContext, KeyedSlots.get_modify]
    by_cases htask : caller = task
    · rw [if_pos (congrArg some htask), htask, Function.update_self]
    · rw [if_neg (fun h => htask (Option.some.inj h)), Function.update_of_ne (Ne.symm htask)]

/-- What holds of all executions holds of them after a write to the context of the caller. -/
theorem forall_saveContext {φ : TaskId → X86ExecutionBinding → Prop}
    (h : ∀ id b, r.manager.executions.get id = some b → φ id b) {caller : Option TaskId} {saved : Context}
    (hsaved : ∀ id b, caller = some id → r.manager.executions.get id = some b → φ id { b with context := saved }) :
    ∀ id b, (r.saveContext caller saved).manager.executions.get id = some b → φ id b := by
  intro id b hb
  rw [get_saveContext] at hb
  split_ifs at hb with hcaller
  · obtain ⟨b₀, hget, rfl⟩ := Option.map_eq_some_iff.mp hb
    exact hsaved id b₀ hcaller hget
  · exact h id b hb

theorem stored_saveContext {caller : Option TaskId}
    (hcaller : ∀ task, caller = some task → ∃ b, r.manager.executions.get task = some b ∧ b.interrupted = none)
    (saved : Context) :
    (r.saveContext caller saved).stored = Function.update r.stored caller (some (.context saved)) := by
  funext t
  by_cases ht : t = caller
  · rw [ht, Function.update_self]
    cases caller with
    | none => rfl
    | some task =>
      obtain ⟨b, hget, hinterrupted⟩ := hcaller task rfl
      rw [stored, get_saveContext, if_pos rfl, hget, Option.map_some, Option.map_some,
        X86ExecutionBinding.continuation]
      simp only [hinterrupted]
  · rw [Function.update_of_ne ht]
    cases t with
    | none =>
      cases caller with
      | none => exact absurd rfl ht
      | some task => rfl
    | some task => rw [stored, get_saveContext, if_neg (Ne.symm ht), stored]

/-- A dispatch changes nothing because the head of the ready queue cannot be switched to, or saves the caller where
the scheduler's current task belongs and switches to the context of the head of the ready queue. -/
theorem dispatchOnce_cases (h : r.manager.Equipped) (cpu : Cpu) (saved : Context) :
    (¬ r.manager.HeadSwitchable ∧ ∃ e, r.dispatchOnce cpu saved = (r, cpu, .error e)) ∨
    ∃ next b top s, r.manager.scheduler.nextReady = some next ∧ r.manager.executions.get next = some b ∧
      b.validate = .ok () ∧ b.interrupted = none ∧ Scheduler.Dispatched r.manager.scheduler s next ∧
      r.dispatchOnce cpu saved =
        ({ r with manager.scheduler := s }.saveContext r.manager.scheduler.current saved,
          { cpu with kernelStackTop := top, currentTask := some next },
          .ok ⟨r.manager.scheduler.current, next, b.context⟩) := by
  unfold dispatchOnce
  rcases r.manager.prepareDispatch_cases h.settled cpu with
    ⟨next, b, top, s, hnext, hget, hvalid, hdispatched, hprepare⟩ | ⟨hrefused, result, hprepare, hnone⟩
  · have hb := h.usable next b hget
    cases hinterrupted : b.interrupted with
    | some state =>
      have hcheck : r.checkCandidate = .error .interruptedTaskRequiresIret := by
        simp only [checkCandidate, hnext, if_neg (h.kernel next),
          ExecutionRegistry.preemptionPlan_of_interrupted hget hb hinterrupted]
      refine .inl ⟨?_, _, by rw [hcheck]⟩
      rintro ⟨next', hnext', b', hget', -, hclean⟩
      obtain rfl : next = next' := Option.some.inj (hnext.symm.trans hnext')
      obtain rfl : b = b' := Option.some.inj (hget.symm.trans hget')
      cases hinterrupted.symm.trans hclean
    | none =>
      have hcheck : r.checkCandidate = .ok () := by
        simp only [checkCandidate, hnext, if_neg (h.kernel next),
          ExecutionRegistry.preemptionPlan_of_context hget hb hinterrupted]
      have hkind : s.taskKind next ≠ some .userspace := by
        rw [hdispatched.kind]
        exact h.kernel next
      refine .inr ⟨next, b, top, s, hnext, hget, hvalid, hinterrupted, hdispatched, ?_⟩
      simp only [hcheck, hprepare, if_neg hkind]
      cases hcur : r.manager.scheduler.current with
      | none => simp [activateFirst, hget, hb.initialized, saveContext]
      | some previous =>
        obtain ⟨b', hget'⟩ := h.binding_of_state (h.settled.running previous hcur)
        have hne : previous ≠ next := fun heq => h.settled.next_ne hnext (heq ▸ hcur)
        simp [switchTasks, ExecutionRegistry.contextPair, hne, hget, hget', (h.usable previous b' hget').initialized,
          hb.initialized, saveContext]
  · have hstays : ¬ r.manager.HeadSwitchable := by
      rintro ⟨next, hnext, b, hget, hvalid, -⟩
      exact hrefused next b hnext hget hvalid
    refine .inl ⟨hstays, ?_⟩
    cases hcheck : r.checkCandidate with
    | error e => exact ⟨e, rfl⟩
    | ok _ =>
      cases result with
      | error e => exact ⟨.task e, by simp only [hprepare]⟩
      | ok decision => exact ⟨.noRunnableTask, by simp only [hprepare, hnone decision rfl]⟩

theorem saveContext_equipped (h : r.manager.Equipped) {s : Scheduler} {next : TaskId}
    (hdispatched : Scheduler.Dispatched r.manager.scheduler s next) (caller : Option TaskId) {saved : Context}
    (hsaved : saved.isInitialized = true) :
    ({ r with manager.scheduler := s }.saveContext caller saved).manager.Equipped := by
  refine h.replace ?_ ?_ ⟨fun id => ?_, ?_⟩
  · rw [scheduler_saveContext]
    exact hdispatched.settled
  · rw [scheduler_saveContext]
    exact hdispatched.kind
  · rw [get_saveContext]
    split_ifs
    · exact Option.isSome_map
    · rfl
  · exact forall_saveContext (r := { r with manager.scheduler := s }) h.usable fun id b _ hget =>
      ⟨hsaved, (h.usable id b hget).iret⟩

/-! ### The timer -/

/-- What the CPU goes on with; `none` is the interrupted code. -/
def InterruptPreemption.continuation : InterruptPreemption → Option KernelContinuation
  | resumeCurrent => none
  | returnToContext context => some (.context context)
  | returnToKernel state => some (.interrupted state)

/-- A timer interrupt at time `now` finds the task itself, with the execution `b`, at the head of the ready queue and
can switch to it. -/
def FindsTask (r : KernelRuntime) (now : U64) (task : TaskId) (b : X86ExecutionBinding) : Prop :=
  r.preemptionDepth = 0 ∧ (r.manager.expireSleepers now).1.scheduler.nextReady = some task ∧ b.interrupted = none ∧
    b.validate = .ok ()

instance (r : KernelRuntime) (now : U64) (task : TaskId) (b : X86ExecutionBinding) :
    Decidable (r.FindsTask now task b) :=
  inferInstanceAs (Decidable (_ ∧ _ ∧ _ ∧ _))

/-- What a timer interrupt at time `now` can do that has captured `snapshot` of a task with the execution `b`: the
runtime, the task that has the CPU and the continuation that it gets. -/
inductive TimerEffect (r : KernelRuntime) (now : U64) (task : TaskId) (b : X86ExecutionBinding)
    (snapshot : InterruptedState) : KernelRuntime → TaskId → Option KernelContinuation → Prop where
  | resumed {r' : KernelRuntime} (hspared : ¬ r.FindsTask now task b) (h : Kept r r') :
      TimerEffect r now task b snapshot r' task none
  | jammed {r₁ r' : KernelRuntime} (hspared : ¬ r.FindsTask now task b) (h : Kept r r₁)
    (hscheduler : r'.manager.scheduler = r₁.manager.scheduler)
      (hbootContext : r'.bootContext = r.bootContext)
      (hexecutions : r'.manager.executions.get =
        Function.update r.manager.executions.get task (some { b with interrupted := some snapshot }))
      (hjammed : r'.manager.Jammed) : TimerEffect r now task b snapshot r' task none
  | preempted {r₁ r' : KernelRuntime} {next : TaskId} {b' : X86ExecutionBinding} (h : Kept r r₁)
      (hdepth : r.preemptionDepth = 0)
      (hnext : (r.manager.expireSleepers now).1.scheduler.nextReady = some next)
      (hinterrupted : b.interrupted = none) (hget : r.manager.executions.get next = some b')
      (hvalid : b'.validate = .ok ())
      (hdispatched : Scheduler.Dispatched r₁.manager.scheduler r'.manager.scheduler next)
      (hbootContext : r'.bootContext = r.bootContext)
      (hexecutions : next ≠ task → r'.manager.executions.get =
        Function.update (Function.update r.manager.executions.get task (some { b with interrupted := some snapshot }))
          next (some { b' with interrupted := none })) :
      TimerEffect r now task b snapshot r' next (some b'.continuation)

theorem commitInterruptedState_of_present {cpu : Cpu} {task : TaskId} {b : X86ExecutionBinding}
    {state : InterruptedState} (hcpu : cpu.currentTask = some task) (hget : r.manager.executions.get task = some b)
    (hinterrupted : b.interrupted = some state) :
    r.commitInterruptedState cpu = (r, cpu, .error (.interruptedState .interruptedStateAlreadyPresent)) := by
  simp [commitInterruptedState, hcpu, hget, hinterrupted]

theorem commitInterruptedState_of_captured {cpu : Cpu} {task : TaskId} {b : X86ExecutionBinding}
    {snapshot : InterruptedState} (hcpu : cpu.currentTask = some task)
    (hcaptured : cpu.interrupted = some (task, snapshot))
    (hvalid : snapshot.isValid = true) (hget : r.manager.executions.get task = some b)
    (hinterrupted : b.interrupted = none) :
    ∃ executions, r.commitInterruptedState cpu =
        ({ r with manager.executions := executions }, { cpu with interrupted := none }, .ok ()) ∧
      executions.get = Function.update r.manager.executions.get task
      (some { b with interrupted := some snapshot }) := by
  obtain ⟨executions, hinstall, hexecutions⟩ :=
    ExecutionRegistry.get_installInterrupted hget hinterrupted hvalid
  refine ⟨executions, ?_, hexecutions⟩
  simp [commitInterruptedState, hcpu, hget, hinterrupted, hcaptured, hinstall, Except.mapError]

/-- After the snapshot of `task` is stored and `next` is dispatched, `next` gets what was stored for it before. -/
private theorem finishPreemption_spec {r₁ : KernelRuntime} (r₂ : KernelRuntime) (cpu : Cpu) {task next : TaskId}
    {b b' : X86ExecutionBinding} {snapshot : InterruptedState} {plan : PreemptionPlan}
    (hget : r₁.manager.executions.get task = some b)
    (hinterrupted : b.interrupted = none) (hget' : r₁.manager.executions.get next = some b') (hb' : b'.Usable)
    (hplan : r₁.manager.executions.preemptionPlan next = some plan)
    (hexecutions : r₂.manager.executions.get =
      Function.update r₁.manager.executions.get task (some { b with interrupted := some snapshot })) :
    ∃ executions result, r₂.finishPreemption cpu next plan =
        ({ r₂ with manager.executions := executions, reschedule := false }, { cpu with currentTask := some next },
          .ok result) ∧ result.continuation = some b'.continuation ∧
      (next ≠ task → executions.get =
        Function.update (Function.update r₁.manager.executions.get task
          (some { b with interrupted := some snapshot }))
          next (some { b' with interrupted := none })) := by
  cases hstate : b'.interrupted with
  | none =>
    rw [ExecutionRegistry.preemptionPlan_of_context hget' hb' hstate, Option.some.injEq] at hplan
    subst hplan
    refine ⟨r₂.manager.executions, _, rfl, ?_, fun hne => ?_⟩
    · rw [InterruptPreemption.continuation, X86ExecutionBinding.continuation, hstate]
    · rw [hexecutions, eq_comm, Function.update_eq_self_iff, Function.update_of_ne hne, hget', ← hstate]
  | some state =>
    rw [ExecutionRegistry.preemptionPlan_of_interrupted hget' hb' hstate, Option.some.injEq] at hplan
    subst hplan
    have hne : next ≠ task := by
      rintro rfl
      rw [hget, Option.some.injEq] at hget'
      rw [← hget', hinterrupted] at hstate
      cases hstate
    have hget₂ : r₂.manager.executions.get next = some b' := by
      rw [hexecutions, Function.update_of_ne hne, hget']
    obtain ⟨executions, htake, htaken⟩ := ExecutionRegistry.get_takeKernelPreemptState hget₂ hb' hstate
    refine ⟨executions, .returnToKernel state, by simp only [finishPreemption, htake], ?_, fun _ => ?_⟩
    · rw [InterruptPreemption.continuation, X86ExecutionBinding.continuation, hstate]
    · rw [htaken, hexecutions]

section Timer

variable (cpu : Cpu) {task : TaskId} {b : X86ExecutionBinding} {snapshot : InterruptedState}
  (hcpu : cpu.currentTask = some task) (hcaptured : cpu.interrupted = some (task, snapshot))
  (hvalid : snapshot.isValid = true) (hget : r.manager.executions.get task = some b)

include hcpu hcaptured hvalid hget

private theorem preempt_effect {r₁ : KernelRuntime} (hkept : Kept r r₁) (h : r₁.manager.Equipped)
    (hdepth : r.preemptionDepth = 0) {now : U64} {next : TaskId}
    (hhead : (r.manager.expireSleepers now).1.scheduler.nextReady = some next)
    (hnext : r₁.manager.scheduler.nextReady = some next) {plan : PreemptionPlan}
    (hplan : r₁.manager.executions.preemptionPlan next = some plan) :
    ∃ r' cpu' owner result, r₁.preempt cpu next plan = (r', cpu', result) ∧ cpu'.currentTask = some owner ∧
      TimerEffect r now task b snapshot r' owner (result.toOption.bind InterruptPreemption.continuation) := by
  obtain ⟨b', hget'⟩ := h.binding_of_next hnext
  have hget₁ : r₁.manager.executions.get task = some b := by rw [hkept.executions, hget]
  unfold preempt
  cases hinterrupted : b.interrupted with
  | some state =>
    rw [commitInterruptedState_of_present hcpu hget₁ hinterrupted]
    refine ⟨_, _, task, _, rfl, hcpu, .resumed (fun hfinds => ?_)
      ⟨hkept.scheduler, hkept.executions, hkept.bootContext⟩⟩
    cases hinterrupted.symm.trans hfinds.2.2.1
  | none =>
    obtain ⟨executions, hcommit, hexecutions⟩ :=
      commitInterruptedState_of_captured hcpu hcaptured hvalid hget₁ hinterrupted
    rw [hcommit]
    dsimp only
    rcases KernelTaskManager.prepareDispatch_cases (m := { r₁.manager with executions }) h.settled
        { cpu with interrupted := none } with
      ⟨next', b₂, top, s, hnext', hget₂, hchecked, hdispatched, hprepare⟩ | ⟨hrefused, result, hprepare, hnone⟩
    · obtain rfl : next = next' := Option.some.inj (hnext.symm.trans hnext')
      have hvalid' : b'.validate = .ok () := by
        replace hget₂ : executions.get next = some b₂ := hget₂
        rw [hexecutions] at hget₂
        by_cases hne : next = task
        · subst hne
          obtain rfl : b = b' := Option.some.inj (hget₁.symm.trans hget')
          rw [Function.update_self, Option.some.injEq] at hget₂
          exact (X86ExecutionBinding.validate_of_interrupted hinterrupted hvalid).mp (hget₂ ▸ hchecked)
        · rw [Function.update_of_ne hne, hget', Option.some.injEq] at hget₂
          rw [hget₂]
          exact hchecked
      obtain ⟨executions', result, hfinish, hresult, htaken⟩ :=
        finishPreemption_spec { r₁ with manager := { r₁.manager with scheduler := s, executions } }
          { cpu with interrupted := none, kernelStackTop := top } hget₁ hinterrupted hget' (h.usable next b' hget')
          hplan hexecutions
      simp only [hprepare, ne_eq, not_true_eq_false, if_false]
      refine ⟨_, _, next, _, hfinish, rfl, ?_⟩
      rw [Except.toOption, Option.bind_some, hresult]
      rw [hkept.executions] at hget' htaken
      exact .preempted hkept hdepth hhead hinterrupted hget' hvalid' hdispatched hkept.bootContext htaken
    · -- the snapshot stays stored while its task goes on
      have hget₂ : ∃ b₂, executions.get next = some b₂ := by
        rw [hexecutions]
        by_cases hne : next = task
        · exact ⟨_, by rw [hne, Function.update_self]⟩
        · exact ⟨b', by rw [Function.update_of_ne hne, hget']⟩
      obtain ⟨b₂, hget₂⟩ := hget₂
      have hjammed : KernelTaskManager.Jammed { r₁.manager with executions } :=
        ⟨next, b₂, hnext, hget₂, hrefused next b₂ hnext hget₂⟩
      have hspared : ¬ r.FindsTask now task b := by
        intro hfinds
        obtain rfl : next = task := Option.some.inj (hhead.symm.trans hfinds.2.1)
        rw [hexecutions, Function.update_self, Option.some.injEq] at hget₂
        refine hrefused next b₂ hnext (by rw [← hget₂]; exact congrFun hexecutions next ▸ Function.update_self ..) ?_
        rw [← hget₂]
        exact (X86ExecutionBinding.validate_of_interrupted hinterrupted hvalid).mpr hfinds.2.2.2
      rw [hkept.executions] at hexecutions
      cases result with
      | error e =>
        simp only [hprepare]
        exact ⟨_, _, task, _, rfl, hcpu, .jammed hspared hkept rfl hkept.bootContext hexecutions hjammed⟩
      | ok decision =>
        have hother : decision.next ≠ some next := by
          rw [hnone decision rfl]
          exact fun h => by cases h
        simp only [hprepare, if_pos hother]
        exact ⟨_, _, task, _, rfl, hcpu, .jammed hspared hkept rfl hkept.bootContext hexecutions hjammed⟩

/-- The effect of a timer interrupt that has captured the task which has the CPU. -/
theorem handleTimerPreemption_effect (h : r.manager.Equipped) :
    ∃ r' cpu' owner result, r.handleTimerPreemption cpu = (r', cpu', result) ∧ cpu'.currentTask = some owner ∧
      TimerEffect r cpu.timerTicks task b snapshot r' owner
        (result.toOption.bind InterruptPreemption.continuation) := by
  unfold handleTimerPreemption
  dsimp only
  split_ifs with hdepth
  · exact ⟨_, _, task, _, rfl, hcpu, .resumed (fun hfinds => hdepth hfinds.1) ⟨.refl _, rfl, rfl⟩⟩
  · rw [not_not] at hdepth
    have hkept := r.expireSleepers_kept cpu.timerTicks
    have h₁ := h.keeps hkept.scheduler hkept.executions
    cases hnext : (r.manager.expireSleepers cpu.timerTicks).1.scheduler.nextReady with
    | none =>
      refine ⟨_, _, task, _, rfl, hcpu, .resumed (fun hfinds => ?_) ⟨hkept.scheduler, rfl, rfl⟩⟩
      cases hnext.symm.trans hfinds.2.1
    | some next =>
      obtain ⟨b', hget'⟩ := h₁.binding_of_next hnext
      have hplan : ∃ plan, (r.manager.expireSleepers cpu.timerTicks).1.executions.preemptionPlan next =
        some plan := by
        cases hinterrupted : b'.interrupted with
        | none => exact ⟨_, ExecutionRegistry.preemptionPlan_of_context hget' (h₁.usable next b' hget') hinterrupted⟩
        | some state =>
          exact ⟨_, ExecutionRegistry.preemptionPlan_of_interrupted hget' (h₁.usable next b' hget') hinterrupted⟩
      obtain ⟨plan, hplan⟩ := hplan
      simp only [if_neg (h₁.kernel next), if_neg (Ne.symm (h₁.settled.next_ne hnext)), hplan]
      exact preempt_effect { cpu with timerPending := false } hcpu hcaptured hvalid hget hkept h₁ hdepth hnext hnext
        hplan

end Timer

end KernelRuntime

end X11Os
