import X11Os.Arch.RefusedDispatch
import X11Os.Arch.TimerEntry

/-!
# The request to reschedule

A request to reschedule is a flag that a switch consumes (`scheduler/reschedule.rs`).  The timer takes it when it has
switched, and sets it on every way out that has not.  `safe_reschedule_point` takes it before it tries, and sets it
again only if the candidate has to be resumed by an interrupt return; after any other failure the request is lost.
-/

namespace X11Os

open Word

namespace KernelRuntime

/-! ### The timer -/

/-- The interrupted task keeps the CPU. -/
def Stays : Except RuntimeError InterruptPreemption → Prop
  | .error _ => True
  | .ok .resumeCurrent => True
  | .ok (.returnToContext _) => False
  | .ok (.returnToKernel _) => False

private theorem reschedule_commitInterruptedState (r : KernelRuntime) (cpu : Cpu) :
    (r.commitInterruptedState cpu).1.reschedule = r.reschedule := by
  obtain ⟨executions, hcommit⟩ := r.commitInterruptedState_eq cpu
  rw [hcommit]

private theorem finishPreemption_pending {r : KernelRuntime} {cpu : Cpu} {candidate : TaskId} {plan : PreemptionPlan}
    (h : Stays (r.finishPreemption cpu candidate plan).2.2) :
    (r.finishPreemption cpu candidate plan).1.reschedule = true := by
  cases plan with
  | returnToContext id context => exact h.elim
  | iretKernel id state =>
    unfold finishPreemption at h ⊢
    dsimp only at h ⊢
    split at h
    · rfl
    · exact h.elim

private theorem preempt_pending {r : KernelRuntime} {cpu : Cpu} {candidate : TaskId} {plan : PreemptionPlan}
    (h : Stays (r.preempt cpu candidate plan).2.2) : (r.preempt cpu candidate plan).1.reschedule = true := by
  unfold preempt at h ⊢
  rcases hcommit : r.commitInterruptedState cpu with ⟨r₁, cpu₁, e | _⟩
  · rfl
  · rw [hcommit] at h
    dsimp only at h ⊢
    rcases hprepare : r₁.manager.prepareDispatch cpu₁ with ⟨m, cpu₂, e | decision⟩
    · rfl
    · rw [hprepare] at h
      dsimp only at h ⊢
      split_ifs at h ⊢
      · rfl
      · exact finishPreemption_pending h

/-- A timer interrupt that gives the CPU to nobody else leaves a request pending. -/
private theorem handleTimerPreemption_pending {r : KernelRuntime} (hpending : r.reschedule = true) {cpu : Cpu}
    (h : Stays (r.handleTimerPreemption cpu).2.2) : (r.handleTimerPreemption cpu).1.reschedule = true := by
  unfold handleTimerPreemption at h ⊢
  dsimp only at h ⊢
  split_ifs at h ⊢
  · rfl
  · cases hnext : (r.manager.expireSleepers cpu.timerTicks).1.scheduler.nextReady with
    | none => rfl
    | some candidate =>
      simp only [hnext] at h ⊢
      split_ifs at h ⊢
      · rfl
      · exact hpending
      · cases hplan : (r.manager.expireSleepers cpu.timerTicks).1.executions.preemptionPlan candidate with
        | none => rfl
        | some plan =>
          simp only [hplan] at h ⊢
          exact preempt_pending h

end KernelRuntime

/-! ### Committing a snapshot -/

/-- The snapshot that an interrupt has taken of the task on the CPU. -/
def Cpu.captured (cpu : Cpu) (task : TaskId) : Option InterruptedState :=
  if cpu.currentTask = some task then cpu.interrupted.map Prod.snd else none

/-- What `b` becomes when the snapshot of `task` has been stored. -/
def X86ExecutionBinding.store (b : X86ExecutionBinding) (captured : Option InterruptedState) : X86ExecutionBinding :=
  { b with interrupted := captured.or b.interrupted }

@[simp] theorem X86ExecutionBinding.store_none (b : X86ExecutionBinding) : b.store none = b := rfl

namespace KernelRuntime

/-- The slot of the CPU is empty or holds a valid snapshot of the task on the CPU, whose execution has none. -/
def Committable (r : KernelRuntime) (cpu : Cpu) : Prop :=
  match cpu.currentTask with
  | none => cpu.interrupted = none
  | some task => ∃ b, r.manager.executions.get task = some b ∧ b.interrupted = none ∧
      ∀ owner snapshot, cpu.interrupted = some (owner, snapshot) → owner = task ∧ snapshot.isValid = true

section Commit

variable {r : KernelRuntime} {cpu : Cpu}

/-- The snapshot that the slot of the CPU holds has moved to the execution of its task. -/
structure Committed (r : KernelRuntime) (cpu : Cpu) (r' : KernelRuntime) : Prop where
  scheduler : r'.manager.scheduler = r.manager.scheduler
  executions : ∀ id, r'.manager.executions.get id =
    (r.manager.executions.get id).map fun b => b.store (cpu.captured id)

private theorem commitInterruptedState_of_committable (h : r.Committable cpu) :
    ∃ r' cpu', r.commitInterruptedState cpu = (r', cpu', .ok ()) ∧ r.Committed cpu r' := by
  unfold Committable at h
  cases htask : cpu.currentTask with
  | none =>
    simp only [htask] at h
    refine ⟨r, cpu, by simp [commitInterruptedState, htask, h], rfl, fun id => ?_⟩
    simp [Cpu.captured, htask]
  | some task =>
    simp only [htask] at h
    obtain ⟨b, hget, hclean, hcaptured⟩ := h
    cases hslot : cpu.interrupted with
    | none =>
      refine ⟨r, cpu, by simp [commitInterruptedState, htask, hget, hclean, hslot], rfl, fun id => ?_⟩
      simp [Cpu.captured, hslot]
    | some entry =>
      obtain ⟨owner, snapshot⟩ := entry
      obtain ⟨rfl, hvalid⟩ := hcaptured owner snapshot hslot
      obtain ⟨executions, hcommit, hexecutions⟩ :=
        commitInterruptedState_of_captured htask hslot hvalid hget hclean
      refine ⟨_, _, hcommit, rfl, fun id => ?_⟩
      rw [hexecutions]
      by_cases hid : id = owner
      · subst hid
        rw [Function.update_self, hget]
        simp [Cpu.captured, htask, hslot, X86ExecutionBinding.store]
      · have hother : cpu.captured id = none := by
          rw [Cpu.captured, htask]
          exact if_neg fun h => hid (Option.some.inj h).symm
        rw [Function.update_of_ne hid, hother]
        simp

private theorem commitInterruptedState_of_not_committable (h : ¬ r.Committable cpu) :
    ∃ e, (r.commitInterruptedState cpu).2.2 = .error e := by
  unfold Committable at h
  cases htask : cpu.currentTask with
  | none =>
    simp only [htask] at h
    exact ⟨.missingExecutionPair, by simp [commitInterruptedState, htask, Option.isSome_iff_ne_none, h]⟩
  | some task =>
    simp only [htask] at h
    by_cases hclean : ∃ b, r.manager.executions.get task = some b ∧ b.interrupted = none
    · obtain ⟨b, hget, hclean⟩ := hclean
      cases hslot : cpu.interrupted with
      | none => exact absurd ⟨b, hget, hclean, fun owner snapshot h => by rw [hslot] at h; cases h⟩ h
      | some entry =>
        obtain ⟨owner, snapshot⟩ := entry
        by_cases howner : owner = task
        · have hinvalid : snapshot.isValid = false := by
            by_contra hvalid
            refine h ⟨b, hget, hclean, fun owner' snapshot' h' => ?_⟩
            rw [hslot] at h'
            cases h'
            exact ⟨howner, by simpa using hvalid⟩
          refine ⟨.interruptedState .invalidStack, ?_⟩
          simp [commitInterruptedState, htask, hget, hclean, hslot, howner, ExecutionRegistry.installInterrupted,
            X86ExecutionBinding.installInterrupted, hinvalid, Except.mapError]
        · exact ⟨.missingExecutionPair, by simp [commitInterruptedState, htask, hget, hclean, hslot, howner]⟩
    · obtain ⟨e, hcommit⟩ := commitInterruptedState_of_not_clean cpu htask hclean
      exact ⟨e, by rw [hcommit]⟩

/-- A snapshot that can be committed does not make an execution invalid. -/
private theorem Committable.validate_store (h : r.Committable cpu) {id : TaskId} {b : X86ExecutionBinding}
    (hget : r.manager.executions.get id = some b) :
    (b.store (cpu.captured id)).validate = .ok () ↔ b.validate = .ok () := by
  cases hcaptured : cpu.captured id with
  | none => rw [X86ExecutionBinding.store_none]
  | some snapshot =>
    unfold Cpu.captured at hcaptured
    split_ifs at hcaptured with htask
    obtain ⟨⟨owner, snapshot'⟩, hslot, rfl⟩ := Option.map_eq_some_iff.mp hcaptured
    unfold Committable at h
    simp only [htask] at h
    obtain ⟨b', hget', hclean, hvalid⟩ := h
    obtain rfl : b = b' := Option.some.inj (hget.symm.trans hget')
    obtain ⟨-, hvalid⟩ := hvalid owner snapshot' hslot
    simp [X86ExecutionBinding.validate_eq_ok, X86ExecutionBinding.store, hclean, hvalid,
      X86ExecutionBinding.stackTop]

end Commit

/-! ### The safe point -/

/-- The task goes on where it was interrupted in the kernel, which takes an interrupt return. -/
def Interrupted (r : KernelRuntime) (cpu : Cpu) (id : TaskId) : Prop :=
  ∃ b state, r.manager.executions.get id = some b ∧ (b.store (cpu.captured id)).interrupted = some state ∧
    state.returnState.kernelIretWords.isSome = true

/-- The task can be dispatched and the current one, if there is one, can be left. -/
structure Switchable (r : KernelRuntime) (candidate : TaskId) : Prop where
  other : r.manager.scheduler.current ≠ some candidate
  dispatchable : r.manager.Dispatchable candidate
  leaves : ∀ previous, r.manager.scheduler.current = some previous →
    ∃ b, r.manager.executions.get previous = some b ∧ b.context.isInitialized = true

/-- A failure after which `safe_reschedule_point` does not set the request again. -/
def Forgets (r : KernelRuntime) (cpu : Cpu) (saved : Context) : Prop :=
  ∃ e, (r.dispatchOnce cpu saved).2.2 = .error e ∧ e ≠ .interruptedTaskRequiresIret

private theorem reschedule_dispatchOnce (r : KernelRuntime) (cpu : Cpu) (saved : Context) :
    (r.dispatchOnce cpu saved).1.reschedule = r.reschedule := by
  unfold dispatchOnce
  split
  · rfl
  · split
    · rfl
    · dsimp only
      split
      · rfl
      · split_ifs
        · rfl
        · split
          · unfold activateFirst
            split
            · rfl
            · split_ifs <;> rfl
          · unfold switchTasks
            split
            · rfl
            · split_ifs <;> rfl

/-- The plan of a task is an interrupt return if a kernel snapshot is stored for it. -/
private theorem preemptionPlan_iretKernel_iff {r : ExecutionRegistry} {task : TaskId} :
    (∃ id state, r.preemptionPlan task = some (.iretKernel id state)) ↔
      ∃ b state, r.get task = some b ∧ b.interrupted = some state ∧
      state.returnState.kernelIretWords.isSome = true := by
  constructor
  · rintro ⟨id, state, hplan⟩
    obtain ⟨b, hget, hstate, hiret⟩ := ExecutionRegistry.interrupted_of_iretKernel hplan
    exact ⟨b, state, hget, hstate, hiret⟩
  · rintro ⟨b, state, hget, hstate, hiret⟩
    exact ⟨task, state, by simp [ExecutionRegistry.preemptionPlan, hget, hstate, hiret]⟩

section AnyState

variable {r : KernelRuntime} {candidate : TaskId}

/-- A candidate that has passed the first check gets the CPU exactly if it can be switched to. -/
private theorem forgets_iff_of_checked (hnext : r.manager.scheduler.nextReady = some candidate)
    (huser : r.manager.scheduler.taskKind candidate ≠ some .userspace) (hcheck : r.checkCandidate = .ok ())
    (cpu : Cpu) (saved : Context) : r.Forgets cpu saved ↔ ¬ r.Switchable candidate := by
  by_cases hcur : r.manager.scheduler.current = some candidate
  · have hidle : r.manager.prepareDispatch cpu = (r.manager, cpu, .ok ⟨r.manager.scheduler.current, none⟩) := by
      simp only [KernelTaskManager.prepareDispatch, hnext, hcur, if_true]
    refine iff_of_true ⟨.noRunnableTask, ?_, by decide⟩ fun h => h.other hcur
    simp only [dispatchOnce, hcheck, hidle]
  by_cases hdispatchable : r.manager.Dispatchable candidate
  · obtain ⟨s, top, -, hkind, hprepare⟩ :=
      KernelTaskManager.prepareDispatch_of_dispatchable hnext hcur hdispatchable cpu
    obtain ⟨b, hget, hvalid⟩ := hdispatchable.valid
    have hinitialized := (X86ExecutionBinding.validate_eq_ok.mp hvalid).1
    rw [← hkind] at huser
    cases hprevious : r.manager.scheduler.current with
    | none =>
      refine iff_of_false ?_ (not_not.mpr ⟨hcur, hdispatchable, fun previous h => ?_⟩)
      · rintro ⟨e, herror, -⟩
        simp [dispatchOnce, hcheck, hprepare, huser, hprevious, activateFirst, hget, hinitialized] at herror
      · rw [hprevious] at h
        cases h
    | some previous =>
      have hother : previous ≠ candidate := fun h => hcur (h ▸ hprevious)
      -- the switch is left to the two contexts
      cases hget' : r.manager.executions.get previous with
      | none =>
        refine iff_of_true ⟨.missingExecutionPair, ?_, by decide⟩ fun h => ?_
        · simp [dispatchOnce, hcheck, hprepare, huser, hprevious, switchTasks, ExecutionRegistry.contextPair, hget']
        · obtain ⟨b', hb', -⟩ := h.leaves previous hprevious
          rw [hget'] at hb'
          cases hb'
      | some b' =>
        by_cases hinitialized' : b'.context.isInitialized = true
        · refine iff_of_false ?_ (not_not.mpr ⟨hcur, hdispatchable, fun p h => ?_⟩)
          · rintro ⟨e, herror, -⟩
            simp [dispatchOnce, hcheck, hprepare, huser, hprevious, switchTasks, ExecutionRegistry.contextPair,
              hother, hget, hget', hinitialized, hinitialized'] at herror
          · rw [hprevious, Option.some.injEq] at h
            exact ⟨b', h ▸ hget', hinitialized'⟩
        · refine iff_of_true ⟨.yield .currentUninitialized, ?_, by decide⟩ fun h => ?_
          · simp [dispatchOnce, hcheck, hprepare, huser, hprevious, switchTasks, ExecutionRegistry.contextPair,
              hother, hget, hget', hinitialized']
          · obtain ⟨b'', hb'', hinit⟩ := h.leaves previous hprevious
            rw [hget', Option.some.injEq] at hb''
            exact hinitialized' (hb'' ▸ hinit)
  · obtain ⟨s, e, hprepare⟩ := KernelTaskManager.prepareDispatch_of_not_dispatchable hnext hcur hdispatchable cpu
    refine iff_of_true ⟨.task e, ?_, by simp⟩ fun h => hdispatchable h.dispatchable
    simp only [dispatchOnce, hcheck, hprepare]

/-- In any state: a dispatch succeeds or is left to the timer exactly if the head of the queue is a kernel task that
takes an interrupt return or can be switched to. -/
private theorem not_forgets_iff (hnext : r.manager.scheduler.nextReady = some candidate) (cpu : Cpu)
    (saved : Context) :
    ¬ r.Forgets cpu saved ↔ r.manager.scheduler.taskKind candidate ≠ some .userspace ∧
      ((∃ id state, r.manager.executions.preemptionPlan candidate = some (.iretKernel id state)) ∨
        r.Switchable candidate) := by
  by_cases huser : r.manager.scheduler.taskKind candidate = some .userspace
  · have hcheck : r.checkCandidate = .error .userspaceTaskRequiresSystemRuntime := by
      simp only [checkCandidate, hnext, huser, if_true]
    exact iff_of_false (not_not.mpr ⟨.userspaceTaskRequiresSystemRuntime, by rw [dispatchOnce, hcheck], by decide⟩)
      fun h => h.1 huser
  by_cases hiret : ∃ id state, r.manager.executions.preemptionPlan candidate = some (.iretKernel id state)
  · obtain ⟨id, state, hplan⟩ := hiret
    have hcheck : r.checkCandidate = .error .interruptedTaskRequiresIret := by
      simp only [checkCandidate, hnext, if_neg huser, hplan]
    refine iff_of_true ?_ ⟨huser, .inl ⟨id, state, hplan⟩⟩
    rintro ⟨e, herror, hne⟩
    rw [dispatchOnce, hcheck] at herror
    exact hne (Except.error.inj herror).symm
  · have hcheck : r.checkCandidate = .ok () := by
      unfold checkCandidate
      simp only [hnext, if_neg huser]
      split
      · rename_i id state hplan
        exact absurd ⟨id, state, hplan⟩ hiret
      · rfl
    rw [forgets_iff_of_checked hnext huser hcheck, not_not]
    exact ⟨fun h => ⟨huser, .inr h⟩, fun h => h.2.resolve_left hiret⟩

end AnyState

/-! ### Pending requests -/

/-- A request that is pending before is pending afterwards, unless the CPU has been given to another task. -/
structure RequestSurvives (r : KernelRuntime) (cpu : Cpu) (saved : Context) : Prop where
  safePoint : ∀ e, (r.safeReschedulePoint cpu saved).2.2 = .error e →
    (r.safeReschedulePoint cpu saved).1.reschedule = true
  timer : Stays (r.handleTimerPreemption cpu).2.2 → (r.handleTimerPreemption cpu).1.reschedule = true

/-- Preemption is disabled, or the snapshot in the slot of the CPU can be committed and the head of the queue is a
kernel task that takes an interrupt return or can be switched to. -/
def KeepsRequest (r : KernelRuntime) (cpu : Cpu) : Prop :=
  r.preemptionDepth ≠ 0 ∨ r.Committable cpu ∧ ∀ candidate, r.manager.scheduler.nextReady = some candidate →
    r.manager.scheduler.taskKind candidate ≠ some .userspace ∧ (r.Interrupted cpu candidate ∨ r.Switchable candidate)

section SafePoint

variable {r : KernelRuntime} {cpu : Cpu} {saved : Context}

/-- Storing the snapshot does not change which tasks can be switched to. -/
private theorem Committed.switchable_iff {r₁ : KernelRuntime} (h : r.Committed cpu r₁) (hcommit : r.Committable cpu)
    {candidate : TaskId} : r₁.Switchable candidate ↔ r.Switchable candidate := by
  have hvalid : (∃ b, r₁.manager.executions.get candidate = some b ∧ b.validate = .ok ()) ↔
      ∃ b, r.manager.executions.get candidate = some b ∧ b.validate = .ok () := by
    rw [h.executions]
    constructor
    · rintro ⟨b', hb', hvalidate⟩
      obtain ⟨b, hb, rfl⟩ := Option.map_eq_some_iff.mp hb'
      exact ⟨b, hb, (hcommit.validate_store hb).mp hvalidate⟩
    · rintro ⟨b, hb, hvalidate⟩
      exact ⟨_, by rw [hb, Option.map_some], (hcommit.validate_store hb).mpr hvalidate⟩
  have hleaves : ∀ previous, (∃ b, r₁.manager.executions.get previous = some b ∧ b.context.isInitialized = true) ↔
      ∃ b, r.manager.executions.get previous = some b ∧ b.context.isInitialized = true := by
    intro previous
    rw [h.executions]
    cases r.manager.executions.get previous <;> simp [X86ExecutionBinding.store]
  constructor
  · intro hswitch
    have ⟨hother, ⟨hready, hexecutable⟩, hprevious⟩ := hswitch
    rw [h.scheduler] at hother hready hprevious
    exact ⟨hother, ⟨hready, hvalid.mp hexecutable⟩, fun p hp => (hleaves p).mp (hprevious p hp)⟩
  · rintro ⟨hother, ⟨hready, hexecutable⟩, hprevious⟩
    rw [← h.scheduler] at hother hready hprevious
    exact ⟨hother, ⟨hready, hvalid.mpr hexecutable⟩, fun p hp => (hleaves p).mpr (hprevious p hp)⟩

private theorem Committed.interrupted_iff {r₁ : KernelRuntime} (h : r.Committed cpu r₁) {candidate : TaskId} :
    (∃ id state, r₁.manager.executions.preemptionPlan candidate = some (.iretKernel id state)) ↔
      r.Interrupted cpu candidate := by
  rw [preemptionPlan_iretKernel_iff, h.executions]
  constructor
  · rintro ⟨b', state, hb', hstate, hiret⟩
    obtain ⟨b, hb, rfl⟩ := Option.map_eq_some_iff.mp hb'
    exact ⟨b, state, hb, hstate, hiret⟩
  · rintro ⟨b, state, hb, hstate, hiret⟩
    exact ⟨_, state, by rw [hb, Option.map_some], hstate, hiret⟩

/-- What `safe_reschedule_point` reports and leaves of a request, once the snapshot is committed. -/
private theorem safeReschedulePoint_of_committed (hpending : r.reschedule = true) (hdepth : r.preemptionDepth = 0)
    {r₁ : KernelRuntime} {cpu₁ : Cpu}
    (hcommit : ({ r with reschedule := false } : KernelRuntime).commitInterruptedState cpu = (r₁, cpu₁, .ok ())) :
    (∀ e, (r.safeReschedulePoint cpu saved).2.2 = .error e → (r.safeReschedulePoint cpu saved).1.reschedule = true) ↔
      ¬ r₁.Forgets cpu₁ saved := by
  have hreschedule : r₁.reschedule = false := by
    have hkept := reschedule_commitInterruptedState { r with reschedule := false } cpu
    rwa [hcommit] at hkept
  have hlost := reschedule_dispatchOnce r₁ cpu₁ saved
  unfold Forgets safeReschedulePoint
  rw [if_neg (not_not.mpr hdepth), if_neg (by simp [hpending]), hcommit]
  dsimp only
  rcases hdispatch : r₁.dispatchOnce cpu₁ saved with ⟨r₂, cpu₂, e | switch⟩
  · rw [hdispatch, hreschedule] at hlost
    change r₂.reschedule = false at hlost
    -- the only error that is followed by a new request
    by_cases he : e = .interruptedTaskRequiresIret
    · subst he
      simp [requestReschedule]
    · refine iff_of_false (fun h => ?_) (not_not.mpr ⟨e, rfl, he⟩)
      have hset : r₂.reschedule = true := by
        cases e <;> first | exact absurd rfl he | exact h _ rfl
      rw [hset] at hlost
      cases hlost
  · simp

private theorem safeReschedulePoint_pending_iff (hpending : r.reschedule = true) {candidate : TaskId}
    (hnext : r.manager.scheduler.nextReady = some candidate) :
    (∀ e, (r.safeReschedulePoint cpu saved).2.2 = .error e → (r.safeReschedulePoint cpu saved).1.reschedule = true) ↔
      r.KeepsRequest cpu := by
  unfold KeepsRequest
  by_cases hdepth : r.preemptionDepth = 0
  · rw [or_iff_right (not_not.mpr hdepth)]
    by_cases hcommittable : r.Committable cpu
    · obtain ⟨r₁, cpu₁, hcommit, ⟨hscheduler, hexecutions⟩⟩ :=
        commitInterruptedState_of_committable (r := { r with reschedule := false }) hcommittable
      have hcommitted : r.Committed cpu r₁ := ⟨hscheduler, hexecutions⟩
      have hnext₁ : r₁.manager.scheduler.nextReady = some candidate := hscheduler ▸ hnext
      rw [safeReschedulePoint_of_committed hpending hdepth hcommit, not_forgets_iff hnext₁,
        hcommitted.interrupted_iff, hcommitted.switchable_iff hcommittable, hcommitted.scheduler]
      constructor
      · refine fun h => ⟨hcommittable, fun candidate' hnext' => ?_⟩
        rw [hnext, Option.some.injEq] at hnext'
        exact hnext' ▸ h
      · exact fun h => h.2 candidate hnext
    · refine iff_of_false (fun h => ?_) fun h => hcommittable h.1
      have hkept := reschedule_commitInterruptedState { r with reschedule := false } cpu
      obtain ⟨e, herror⟩ :=
        commitInterruptedState_of_not_committable (r := { r with reschedule := false }) hcommittable
      rcases hcommit : ({ r with reschedule := false } : KernelRuntime).commitInterruptedState cpu with
        ⟨r₁, cpu₁, result⟩
      rw [hcommit] at hkept herror
      obtain rfl : result = .error e := herror
      have hpoint : r.safeReschedulePoint cpu saved = (r₁, cpu₁, .error e) := by
        rw [safeReschedulePoint, if_neg (not_not.mpr hdepth), if_neg (by simp [hpending]), hcommit]
      rw [hpoint] at h
      rw [show r₁.reschedule = true from h e rfl] at hkept
      cases hkept
  · refine iff_of_true (fun e _ => ?_) (.inl hdepth)
    simpa [safeReschedulePoint, hdepth] using hpending

end SafePoint

/-- In every state of the runtime with a pending request and somebody else to run: the request survives a failed
attempt exactly if `safe_reschedule_point` has no reason to fail other than those after which it sets the
request again. -/
theorem requestSurvives_iff {r : KernelRuntime} (hpending : r.reschedule = true)
    (hready : ∃ id ∈ r.manager.scheduler.ready.queue, r.manager.scheduler.current ≠ some id) (cpu : Cpu)
    (saved : Context) : r.RequestSurvives cpu saved ↔ r.KeepsRequest cpu := by
  obtain ⟨id, hmem, -⟩ := hready
  obtain ⟨candidate, hnext⟩ : ∃ candidate, r.manager.scheduler.nextReady = some candidate := by
    rw [← Option.isSome_iff_exists, Scheduler.nextReady, RunQueue.peek, List.isSome_head?]
    simpa using List.ne_nil_of_mem hmem
  have hsafe : (∀ e, (r.safeReschedulePoint cpu saved).2.2 = .error e →
      (r.safeReschedulePoint cpu saved).1.reschedule = true) ↔ r.KeepsRequest cpu :=
    safeReschedulePoint_pending_iff hpending hnext
  rw [← hsafe]
  exact ⟨fun h => h.safePoint, fun h => ⟨h, handleTimerPreemption_pending hpending⟩⟩

/-- With a process at the head of the queue the safe point fails, and the request is gone. -/
theorem request_lost :
    Reachable (readyTask (.createUserTask .default)).requestReschedule ∧
    (readyTask (.createUserTask .default)).requestReschedule.reschedule = true ∧
    (readyTask (.createUserTask .default)).requestReschedule.manager.scheduler.ready.queue = [⟨0, 1⟩] ∧
    (readyTask (.createUserTask .default)).requestReschedule.manager.scheduler.current = none ∧
    ((readyTask (.createUserTask .default)).requestReschedule.safeReschedulePoint (.new 0) .empty).2.2 =
      .error .userspaceTaskRequiresSystemRuntime ∧
    ((readyTask (.createUserTask .default)).requestReschedule.safeReschedulePoint (.new 0) .empty).1.reschedule =
      false :=
  ⟨(readyTask_reachable _).step .requestReschedule, rfl, by decide +kernel, by decide +kernel, by decide +kernel,
    by decide +kernel⟩

/-- With preemption disabled the same attempt fails as well, and the request stays. -/
theorem requestSurvives_disabled :
    ({ (readyTask (.createUserTask .default)).requestReschedule with preemptionDepth := 1 }.safeReschedulePoint
      (.new 0) .empty).2.2 = .error .preemptionDisabled ∧
    { (readyTask (.createUserTask .default)).requestReschedule with preemptionDepth := 1 }.RequestSurvives (.new 0)
      .empty ∧
    (readyTask (.createTask .default)).requestReschedule.RequestSurvives (.new 0) .empty := by
  refine ⟨rfl, (requestSurvives_iff rfl ⟨⟨0, 1⟩, by decide +kernel, by decide +kernel⟩ (.new 0) .empty).mpr
    (.inl (by decide)),
    (requestSurvives_iff rfl ⟨⟨0, 1⟩, by decide +kernel, by decide +kernel⟩ (.new 0) .empty).mpr (.inr ⟨rfl, ?_⟩)⟩
  intro candidate hnext
  rw [show (readyTask (.createTask .default)).requestReschedule.manager.scheduler.nextReady = some ⟨0, 1⟩ by
    decide +kernel, Option.some.injEq] at hnext
  subst hnext
  refine ⟨by decide +kernel, .inr ⟨by decide +kernel, by decide +kernel, fun previous h => ?_⟩⟩
  rw [show (readyTask (.createTask .default)).requestReschedule.manager.scheduler.current = none by
    decide +kernel] at h
  cases h

end KernelRuntime

end X11Os
