import X11Os.Arch.KernelSwitch

/-!
# Tasks that have yielded

A voluntary switch stores the registers of the task that leaves, and `prepare_dispatch` validates what is stored for
the task that it is about to give the CPU to.  A new task has the address of its activation record in `r12`, where the
trampoline takes it from, and `X86ExecutionBinding::validate` still asks for that address when the task has long used
`r12` for something else.  So in every run without interrupts the head of the ready queue is dispatched exactly if
that address is in its `r12`.
-/

namespace X11Os

open Word

namespace KernelTaskManager

/-- Every task is a kernel task with an execution of its own: a handle that names the task, a stack and no interrupted
state. -/
structure Resident (m : KernelTaskManager) : Prop where
  equipped : m.Equipped
  handle : ∀ id kind, m.scheduler.taskKind id = some kind → m.scheduler.execution id = some (.forTask id)
  stack : ∀ id b, m.executions.get id = some b → b.stackTop.isSome = true
  uninterrupted : ∀ id b, m.executions.get id = some b → b.interrupted = none

/-- What is stored for a task has the address of its activation record in `r12`. -/
def Activated (m : KernelTaskManager) (id : TaskId) : Prop :=
  ∀ b, m.executions.get id = some b → b.context.r12 = b.activation

/-- The head of the ready queue, if it does not own the CPU, is dispatched. -/
def DispatchesHead (m : KernelTaskManager) (cpu : Cpu) : Prop :=
  ∀ next, m.scheduler.nextReady = some next → m.scheduler.current ≠ some next →
    (m.prepareDispatch cpu).2.2 = .ok ⟨m.scheduler.current, some next⟩

def HeadActivated (m : KernelTaskManager) : Prop :=
  ∀ next, m.scheduler.nextReady = some next → m.scheduler.current ≠ some next → m.Activated next

namespace Resident

variable {m m' : KernelTaskManager}

private theorem validate_iff (h : m.Resident) {id : TaskId} {b : X86ExecutionBinding}
    (hget : m.executions.get id = some b) :
    b.validate = .ok () ↔ b.context.r12 = b.activation := by
  rw [X86ExecutionBinding.validate_eq_ok, h.uninterrupted id b hget]
  simp [(h.equipped.usable id b hget).initialized, h.stack id b hget]

private theorem dispatchesHead_iff (h : m.Resident) (cpu : Cpu) : m.DispatchesHead cpu ↔ m.HeadActivated := by
  have hiff : ∀ next, m.scheduler.nextReady = some next → m.scheduler.current ≠ some next →
      ((m.prepareDispatch cpu).2.2 = .ok ⟨m.scheduler.current, some next⟩ ↔ m.Activated next) := by
    intro next hnext hne
    obtain ⟨b, hget⟩ := h.equipped.binding_of_next hnext
    have hactivated : m.Activated next ↔ b.context.r12 = b.activation :=
      ⟨fun hall => hall b hget, fun hr12 b' hget' => by rwa [← Option.some.inj (hget.symm.trans hget')]⟩
    rw [hactivated, ← h.validate_iff hget]
    constructor
    · intro hok
      by_contra hinvalid
      have hnot : ¬ m.Dispatchable next := by
        rintro ⟨-, b', hget', hvalid⟩
        rw [← Option.some.inj (hget.symm.trans hget')] at hvalid
        exact hinvalid hvalid
      obtain ⟨s, e, hprepare⟩ := prepareDispatch_of_not_dispatchable hnext hne hnot cpu
      rw [hprepare] at hok
      cases hok
    · intro hvalid
      obtain ⟨s, top, -, -, hprepare⟩ :=
        prepareDispatch_of_dispatchable hnext hne ⟨h.equipped.settled.next_ready hnext, b, hget, hvalid⟩ cpu
      rw [hprepare]
  exact ⟨fun hall next hnext hne => (hiff next hnext hne).mp (hall next hnext hne),
    fun hall next hnext hne => (hiff next hnext hne).mpr (hall next hnext hne)⟩

/-! ### Operations -/

private theorem new : KernelTaskManager.new.Resident where
  equipped := new_equipped
  handle := by rintro id kind ⟨⟩
  stack := by rintro id b ⟨⟩
  uninterrupted := by rintro id b ⟨⟩

private theorem keeps (h : m.Resident) (hkeeps : m.scheduler.Keeps m'.scheduler)
    (hget : m'.executions.get = m.executions.get) : m'.Resident where
  equipped := h.equipped.keeps hkeeps hget
  handle := by
    rw [hkeeps.kind, hkeeps.execution]
    exact h.handle
  stack := by
    rw [hget]
    exact h.stack
  uninterrupted := by
    rw [hget]
    exact h.uninterrupted

private theorem added (h : m.Resident) {id : TaskId} (hadded : Added m m' id .kernel) : m'.Resident := by
  obtain ⟨t, hkind, -, hexecution, htask⟩ := hadded.task
  obtain ⟨b, hfresh, hget⟩ := hadded.executions
  refine ⟨hadded.equipped h.equipped, fun k kind hk => ?_, ?_, ?_⟩
  · by_cases hid : k = id
    · rw [hid, Scheduler.execution, htask, Function.update_self]
      exact hexecution
    · rw [Scheduler.taskKind, htask, Function.update_of_ne hid] at hk
      rw [Scheduler.execution, htask, Function.update_of_ne hid]
      exact h.handle k kind hk
  · rw [hget]
    exact forall_update h.stack fun b' hb' => by cases hb'; exact hfresh.stackTop_isSome
  · rw [hget]
    exact forall_update h.uninterrupted fun b' hb' => by cases hb'; exact hfresh.interrupted_eq

/-- A task that exits takes its own execution with it. -/
private theorem exitCurrent_cases (h : m.Resident) :
    (∃ sleepers, m.exitCurrent.1 = { m with sleepers }) ∨
    ∃ id executions sleepers, m.exitCurrent.1 = ⟨m.scheduler.exitCurrent.1, executions, sleepers⟩ ∧
      m.scheduler.exitCurrent.1.task = Function.update m.scheduler.task id none ∧
      executions.get = Function.update m.executions.get id none := by
  rcases KernelTaskManager.exitCurrent_cases m with ⟨sleepers, hexit⟩ | ⟨id, handle, sleepers, hhandle, htask, hexit⟩
  · exact .inl ⟨sleepers, by rw [hexit]⟩
  · have hid : handle = .forTask id := by
      obtain ⟨t, ht, -⟩ := Option.bind_eq_some_iff.mp hhandle
      have hexecution := h.handle id t.kind (by rw [Scheduler.taskKind, ht]; rfl)
      exact Option.some.inj (hhandle.symm.trans hexecution)
    refine .inr ⟨id, (m.executions.remove handle).1, sleepers, by rw [hexit], htask, ?_⟩
    rw [hid, ExecutionRegistry.get_remove]
    rfl

private theorem exitCurrent (h : m.Resident) : m.exitCurrent.1.Resident := by
  rcases h.exitCurrent_cases with ⟨sleepers, hexit⟩ | ⟨id, executions, sleepers, hexit, htask, hget⟩
  · rw [hexit]
    exact h.keeps (.refl _) rfl
  · have hkind : m.scheduler.exitCurrent.1.taskKind = Function.update m.scheduler.taskKind id none := by
      show Option.map TaskControlBlock.kind ∘ m.scheduler.exitCurrent.1.task = _
      rw [htask, Function.comp_update]
      rfl
    rw [hexit]
    constructor
    case equipped =>
      refine ⟨Scheduler.exitCurrent_settled h.equipped.settled, fun k => ?_, fun k => ?_, ?_⟩
      · rw [hkind]
        by_cases hk : k = id
        · rw [hk, Function.update_self]
          exact fun h => by cases h
        · rw [Function.update_of_ne hk]
          exact h.equipped.kernel k
      · rw [hkind, hget]
        by_cases hk : k = id
        · rw [hk, Function.update_self, Function.update_self]
          rfl
        · rw [Function.update_of_ne hk, Function.update_of_ne hk]
          exact h.equipped.bound k
      · rw [hget]
        exact forall_update h.equipped.usable fun b hb => by cases hb
    case handle =>
      rw [hkind]
      intro k kind hk
      have hne : k ≠ id := by
        rintro rfl
        rw [Function.update_self] at hk
        cases hk
      rw [Function.update_of_ne hne] at hk
      rw [Scheduler.execution, htask, Function.update_of_ne hne]
      exact h.handle k kind hk
    case stack =>
      rw [hget]
      exact forall_update h.stack fun b hb => by cases hb
    case uninterrupted =>
      rw [hget]
      exact forall_update h.uninterrupted fun b hb => by cases hb

end Resident

end KernelTaskManager

/-! ### Runs without interrupts -/

namespace KernelRuntime.Voluntary

/-- What the threads of the kernel do of their own accord.  A thread calls `dispatch_once` or `yield_current` on a CPU
in any state, and the switch stores the registers that it finds. -/
inductive Op where
  | spawn (priority : Priority) (placement : Option Placement)
  | dispatchOnce (cpu : Cpu) (saved : Context)
  | yieldCurrent (cpu : Cpu) (saved : Context)
  | sleepCurrentUntil (deadline : U64)
  | serviceTimer (now : U64)
  | exitCurrent

namespace Op

def perform (r : KernelRuntime) : Op → KernelRuntime
  | spawn priority placement => (r.spawn priority placement).1
  | dispatchOnce cpu saved => (r.dispatchOnce cpu saved).1
  | yieldCurrent cpu saved => (r.yieldCurrent cpu saved).1
  | sleepCurrentUntil deadline => (r.sleepCurrentUntil deadline).1
  | serviceTimer now => (r.serviceTimer now).1
  | exitCurrent => { r with manager := r.manager.exitCurrent.1 }

/-- A thread that calls a function has a stack and a return address, and the tasks can be numbered with the 32 bits
that a name has for it. -/
def Enabled (r : KernelRuntime) : Op → Prop
  | spawn .. => r.manager.scheduler.tasks.length < 2 ^ 32
  | dispatchOnce _ saved => saved.isInitialized = true
  | yieldCurrent _ saved => saved.isInitialized = true
  | _ => True

instance (r : KernelRuntime) (op : Op) : Decidable (op.Enabled r) := by
  cases op <;> unfold Enabled <;> infer_instance

/-- A task that leaves has the address of its activation record in `r12`. -/
def KeepsActivation (r : KernelRuntime) : Op → Prop
  | dispatchOnce _ saved => ∀ b ∈ r.manager.scheduler.current.bind r.manager.executions.get, saved.r12 = b.activation
  | yieldCurrent _ saved => ∀ b ∈ r.manager.scheduler.current.bind r.manager.executions.get, saved.r12 = b.activation
  | _ => True

instance (r : KernelRuntime) (op : Op) : Decidable (op.KeepsActivation r) := by
  cases op <;> unfold KeepsActivation <;> infer_instance

end Op

inductive Run (allowed : KernelRuntime → Op → Prop) : KernelRuntime → Prop where
  | boot : Run allowed .new
  | step {r : KernelRuntime} (h : Run allowed r) (op : Op) (hallowed : allowed r op) : Run allowed (op.perform r)

section Steps

variable {r : KernelRuntime}

private theorem dispatchOnce_resident (h : r.manager.Resident) (cpu : Cpu) {saved : Context}
    (hsaved : saved.isInitialized = true) : (r.dispatchOnce cpu saved).1.manager.Resident := by
  rcases r.dispatchOnce_cases h.equipped cpu saved with
    ⟨-, e, hresult⟩ | ⟨next, b, top, s, -, -, -, -, hdispatched, hresult⟩
  · rw [hresult]
    exact h
  · rw [hresult]
    constructor
    case equipped => exact saveContext_equipped h.equipped hdispatched _ hsaved
    case handle =>
      rw [scheduler_saveContext, hdispatched.kind, hdispatched.execution]
      exact h.handle
    case stack =>
      exact forall_saveContext (r := { r with manager.scheduler := s }) h.stack fun id b _ hget => h.stack id b hget
    case uninterrupted =>
      exact forall_saveContext (r := { r with manager.scheduler := s }) h.uninterrupted fun id b _ hget =>
        h.uninterrupted id b hget

private theorem Op.perform_resident (h : r.manager.Resident) (op : Op) (henabled : op.Enabled r) :
    (op.perform r).manager.Resident := by
  cases op with
  | spawn priority placement =>
    obtain ⟨m, id, ⟨e, hspawn, habandoned⟩ | ⟨hspawn, hadded⟩⟩ := KernelTaskManager.spawn_cases
      h.equipped.settled.numbered h.equipped.settled.sound henabled priority placement
    · rw [perform, KernelRuntime.spawn, hspawn]
      exact h.keeps habandoned.keeps habandoned.executions
    · rw [perform, KernelRuntime.spawn, hspawn]
      exact h.added hadded
  | dispatchOnce cpu saved => exact dispatchOnce_resident h cpu henabled
  | yieldCurrent cpu saved => exact dispatchOnce_resident (r := r.requestReschedule) h cpu henabled
  | sleepCurrentUntil deadline => exact h.keeps (r.sleepCurrentUntil_kept deadline).scheduler rfl
  | serviceTimer now => exact h.keeps (r.serviceTimer_kept now).scheduler rfl
  | exitCurrent => exact h.exitCurrent

private theorem dispatchOnce_activated (h : r.manager.Resident) (hactivated : ∀ id, r.manager.Activated id)
    (cpu : Cpu) {saved : Context}
    (hkeeps : ∀ b ∈ r.manager.scheduler.current.bind r.manager.executions.get, saved.r12 = b.activation) :
    ∀ id, (r.dispatchOnce cpu saved).1.manager.Activated id := by
  rcases r.dispatchOnce_cases h.equipped cpu saved with
    ⟨-, e, hresult⟩ | ⟨next, b, top, s, -, -, -, -, -, hresult⟩
  · rw [hresult]
    exact hactivated
  · rw [hresult]
    refine forall_saveContext (r := { r with manager.scheduler := s }) hactivated fun id b hcaller hget => hkeeps b ?_
    rw [hcaller, Option.bind_some]
    exact hget

private theorem Op.perform_activated (h : r.manager.Resident) (hactivated : ∀ id, r.manager.Activated id) (op : Op)
    (henabled : op.Enabled r) (hkeeps : op.KeepsActivation r) : ∀ id, (op.perform r).manager.Activated id := by
  cases op with
  | spawn priority placement =>
    obtain ⟨m, id, ⟨e, hspawn, habandoned⟩ | ⟨hspawn, hadded⟩⟩ := KernelTaskManager.spawn_cases
      h.equipped.settled.numbered h.equipped.settled.sound henabled priority placement
    · rw [perform, KernelRuntime.spawn, hspawn]
      intro id b hb
      rw [habandoned.executions] at hb
      exact hactivated id b hb
    · obtain ⟨b, hfresh, hget⟩ := hadded.executions
      rw [perform, KernelRuntime.spawn, hspawn]
      show ∀ id b, m.executions.get id = some b → b.context.r12 = b.activation
      rw [hget]
      exact forall_update hactivated fun b' hb' => by cases hb'; exact hfresh.activated
  | dispatchOnce cpu saved => exact dispatchOnce_activated h hactivated cpu hkeeps
  | yieldCurrent cpu saved => exact dispatchOnce_activated (r := r.requestReschedule) h hactivated cpu hkeeps
  | sleepCurrentUntil deadline => exact hactivated
  | serviceTimer now => exact hactivated
  | exitCurrent =>
    show ∀ id b, r.manager.exitCurrent.1.executions.get id = some b → b.context.r12 = b.activation
    rcases h.exitCurrent_cases with ⟨sleepers, hexit⟩ | ⟨id, executions, sleepers, hexit, -, hget⟩
    · rw [hexit]
      exact hactivated
    · rw [hexit, hget]
      exact forall_update hactivated fun b hb => by cases hb

end Steps

private theorem Run.resident {allowed : KernelRuntime → Op → Prop} {r : KernelRuntime} (h : Run allowed r)
    (hallowed : ∀ {r op}, allowed r op → op.Enabled r) : r.manager.Resident := by
  induction h with
  | boot => exact .new
  | step h op hop ih => exact op.perform_resident ih (hallowed hop)

private theorem Run.activated {r : KernelRuntime} (h : Run (fun r op => op.Enabled r ∧ op.KeepsActivation r) r) :
    ∀ id, r.manager.Activated id := by
  induction h with
  | boot => rintro id b ⟨⟩
  | step h op hop ih => exact op.perform_activated (h.resident And.left) ih hop.1 hop.2

/-- In every run the head of the ready queue is dispatched exactly if it has the address of its activation record in
`r12`.  So it is dispatched in every run in which each task that leaves has that address there. -/
theorem run_dispatchesHead {r : KernelRuntime} (h : Run (fun r op => op.Enabled r) r) (cpu : Cpu) :
    (r.manager.DispatchesHead cpu ↔ r.manager.HeadActivated) ∧
      (Run (fun r op => op.Enabled r ∧ op.KeepsActivation r) r → r.manager.DispatchesHead cpu) := by
  have hiff := (h.resident id).dispatchesHead_iff cpu
  exact ⟨hiff, fun hkeeps => hiff.mpr fun next _ _ => hkeeps.activated next⟩

/-! ### Two tasks -/

def performAll (r : KernelRuntime) (ops : List Op) : KernelRuntime := ops.foldl (fun r op => op.perform r) r

/-- Every operation is allowed when its turn comes. -/
def admits (allowed : KernelRuntime → Op → Prop) [∀ r op, Decidable (allowed r op)] (r : KernelRuntime) :
    List Op → Bool
  | [] => true
  | op :: ops => decide (allowed r op) && admits allowed (op.perform r) ops

private theorem Run.performAll {allowed : KernelRuntime → Op → Prop} [∀ r op, Decidable (allowed r op)]
    {r : KernelRuntime}
    (h : Run allowed r) {ops : List Op} (hops : admits allowed r ops = true) : Run allowed (performAll r ops) := by
  induction ops generalizing r with
  | nil => exact h
  | cons op ops ih =>
    rw [admits, Bool.and_eq_true, decide_eq_true_eq] at hops
    exact ih (h.step op hops.1) hops.2

/-- A task is dispatched and yields to a second one; `r12` is what it has in that register. -/
def yieldOnce (r12 : U64) : List Op :=
  [.spawn .default (some ⟨0x100000, 0x9000, 0x8000, Placement.sample_ne_zero⟩),
    .spawn .default (some ⟨0x200000, 0x9100, 0x8000, Placement.sample_ne_zero⟩),
    .dispatchOnce (.new 0) { Context.empty with rsp := 0x7f00, rip := 0x8100 },
    .yieldCurrent (.new 0) { Context.empty with rsp := 0x107f00, r12, rip := 0x8100 }]

/-- A task that has used `r12` is at the head of the ready queue and is not dispatched. -/
theorem yielded_not_dispatched :
    Run (fun r op => op.Enabled r) (performAll .new (yieldOnce 5)) ∧
    (performAll .new (yieldOnce 5)).manager.scheduler.nextReady = some ⟨0, 1⟩ ∧
    (performAll .new (yieldOnce 5)).manager.scheduler.current = some ⟨1, 1⟩ ∧
    (performAll .new (yieldOnce 5)).manager.scheduler.state ⟨0, 1⟩ = some .ready ∧
    ((performAll .new (yieldOnce 5)).manager.prepareDispatch (.new 0)).2.2 = .error (.dispatch .invalidExecution) :=
  ⟨Run.boot.performAll (by decide +kernel), by decide +kernel, by decide +kernel, by decide +kernel,
    by decide +kernel⟩

/-- A task that has the address of its activation record in `r12` when it yields is dispatched again. -/
theorem run_dispatchesHead_yieldOnce :
    Run (fun r op => op.Enabled r) (performAll .new (yieldOnce 0x9000)) ∧
    Run (fun r op => op.Enabled r ∧ op.KeepsActivation r) (performAll .new (yieldOnce 0x9000)) ∧
    (performAll .new (yieldOnce 0x9000)).manager.scheduler.nextReady = some ⟨0, 1⟩ ∧
    (performAll .new (yieldOnce 0x9000)).manager.scheduler.current = some ⟨1, 1⟩ ∧
    (performAll .new (yieldOnce 0x9000)).manager.HeadActivated ∧
    (performAll .new (yieldOnce 0x9000)).manager.DispatchesHead (.new 0) := by
  have hrun : Run (fun r op => op.Enabled r) (performAll .new (yieldOnce 0x9000)) :=
    Run.boot.performAll (by decide +kernel)
  have hkeeps : Run (fun r op => op.Enabled r ∧ op.KeepsActivation r) (performAll .new (yieldOnce 0x9000)) :=
    Run.boot.performAll (by decide +kernel)
  obtain ⟨hiff, hdispatches⟩ := run_dispatchesHead hrun (.new 0)
  exact ⟨hrun, hkeeps, by decide +kernel, by decide +kernel, hiff.mp (hdispatches hkeeps), hdispatches hkeeps⟩

end KernelRuntime.Voluntary

end X11Os
