import X11Os.Arch.SpawnTransaction

/-!
# Refused dispatches

A dispatch of the kernel runtime can be refused before any context is switched.  `dispatch_once` looks at the head of
the ready queue before it lets the scheduler move, and so does `prepare_dispatch`; `prepare_run` asks only afterwards
whether the task that the scheduler has chosen is a userspace task.
-/

namespace X11Os

open Word

/-! ### What a dispatch of the manager does -/

namespace KernelTaskManager

/-- The task has an execution that a dispatch accepts. -/
def Executable (m : KernelTaskManager) (next : TaskId) : Prop :=
  ∃ b, m.executions.get next = some b ∧ b.validate = .ok ()

/-- The ends of `prepare_dispatch` on a queue of ready tasks. -/
inductive DispatchEnds (m : KernelTaskManager) (cpu : Cpu) :
    KernelTaskManager × Cpu × Except KernelTaskError DispatchDecision → Prop where
  | idle (hidle : ∀ next, m.scheduler.nextReady = some next → m.scheduler.current = some next) :
      DispatchEnds m cpu (m, cpu, .ok ⟨m.scheduler.current, none⟩)
  | refused {next : TaskId} (e : DispatchError) (hnext : m.scheduler.nextReady = some next)
      (hrefused : ¬ m.Executable next) : DispatchEnds m cpu (m, cpu, .error (.dispatch e))
  | dispatched {next : TaskId} {s : Scheduler} (top : U64) (hnext : m.scheduler.nextReady = some next)
      (hne : m.scheduler.current ≠ some next) (hexecutable : m.Executable next) (hcurrent : s.current = some next)
      (hkind : s.taskKind next = m.scheduler.taskKind next) :
      DispatchEnds m cpu ({ m with scheduler := s }, { cpu with kernelStackTop := top },
        .ok ⟨m.scheduler.current, some next⟩)

private theorem prepareDispatch_ends {m : KernelTaskManager} (hs : m.scheduler.view.Sound) (cpu : Cpu) :
    DispatchEnds m cpu (m.prepareDispatch cpu) := by
  cases hnext : m.scheduler.nextReady with
  | none =>
    have hidle : m.prepareDispatch cpu = (m, cpu, .ok ⟨m.scheduler.current, none⟩) := by
      simp only [prepareDispatch, hnext]
    rw [hidle]
    exact .idle fun next h => by rw [hnext] at h; cases h
  | some next =>
    by_cases hcur : m.scheduler.current = some next
    · have hidle : m.prepareDispatch cpu = (m, cpu, .ok ⟨m.scheduler.current, none⟩) := by
        simp only [prepareDispatch, hnext, hcur, if_true]
      rw [hidle]
      refine .idle fun next' h => ?_
      rw [hnext, Option.some.injEq] at h
      rw [hcur, h]
    · by_cases hexecutable : m.Executable next
      · -- the queue holds ready tasks only, so the scheduler chooses its head
        have hready : m.scheduler.state next = some .ready := (hs.mem_queue next).mp (List.mem_of_mem_head? hnext)
        obtain ⟨s, top, hcurrent, hkind, hprepare⟩ :=
          prepareDispatch_of_dispatchable hnext hcur ⟨hready, hexecutable⟩ cpu
        rw [hprepare]
        exact .dispatched top hnext hcur hexecutable hcurrent hkind
      · obtain ⟨e, hprepare⟩ := prepareDispatch_of_invalid hnext hcur hexecutable cpu
        rw [hprepare]
        exact .refused e hnext hexecutable

end KernelTaskManager

/-! ### Reachable runtimes -/

namespace KernelRuntime

/-- What can happen to a kernel runtime.  The parts of its manager are public, and the system runtime calls the
operations of the scheduler and of the registry itself. -/
inductive Call where
  | requestReschedule
  | preemption (depth : Nat)
  | spawn (priority : Priority) (placement : Option Placement)
  | prepareRun (cpu : Cpu)
  | dispatchOnce (cpu : Cpu) (saved : Context)
  | yieldCurrent (cpu : Cpu) (saved : Context)
  | safeReschedulePoint (cpu : Cpu) (saved : Context)
  | handleTimerPreemption (cpu : Cpu)
  | serviceTimer (now : U64)
  | sleepCurrentUntil (deadline : U64)
  | exitCurrent
  | scheduler (op : Scheduler.Op)
  | executions (registry : ExecutionRegistry)
  | sleepers (queue : SleepQueue)

def Call.perform (r : KernelRuntime) : Call → KernelRuntime
  | requestReschedule => r.requestReschedule
  | preemption depth => { r with preemptionDepth := depth }
  | spawn priority placement => (r.spawn priority placement).1
  | prepareRun cpu => (r.prepareRun cpu).1
  | dispatchOnce cpu saved => (r.dispatchOnce cpu saved).1
  | yieldCurrent cpu saved => (r.yieldCurrent cpu saved).1
  | safeReschedulePoint cpu saved => (r.safeReschedulePoint cpu saved).1
  | handleTimerPreemption cpu => (r.handleTimerPreemption cpu).1
  | serviceTimer now => (r.serviceTimer now).1
  | sleepCurrentUntil deadline => (r.sleepCurrentUntil deadline).1
  | exitCurrent => { r with manager := r.manager.exitCurrent.1 }
  | scheduler op => { r with manager.scheduler := r.manager.scheduler.perform op }
  | executions registry => { r with manager.executions := registry }
  | sleepers queue => { r with manager.sleepers := queue }

inductive Reachable : KernelRuntime → Prop where
  | boot : Reachable .new
  | step {r : KernelRuntime} (h : Reachable r) (call : Call) : Reachable (call.perform r)

section Reached

private theorem prepareDispatch_reached {m : KernelTaskManager} (h : m.scheduler.Reached) (cpu : Cpu) :
    (m.prepareDispatch cpu).1.scheduler.Reached := by
  unfold KernelTaskManager.prepareDispatch
  dsimp only
  split
  · exact h
  · split
    · exact h
    · split
      · exact h
      · split
        · exact h
        · split_ifs
          · exact h.perform .scheduleNext
          · exact h.perform .scheduleNext

private theorem scheduler_commitInterruptedState (r : KernelRuntime) (cpu : Cpu) :
    (r.commitInterruptedState cpu).1.manager.scheduler = r.manager.scheduler := by
  obtain ⟨executions, hcommit⟩ := r.commitInterruptedState_eq cpu
  rw [hcommit]

private theorem scheduler_activateFirst (r : KernelRuntime) (cpu : Cpu) (next : TaskId) (saved : Context) :
    (r.activateFirst cpu next saved).1.manager.scheduler = r.manager.scheduler := by
  unfold activateFirst
  split
  · rfl
  · split_ifs <;> rfl

private theorem scheduler_switchTasks (r : KernelRuntime) (cpu : Cpu) (previous next : TaskId) (saved : Context) :
    (r.switchTasks cpu previous next saved).1.manager.scheduler = r.manager.scheduler := by
  unfold switchTasks
  split
  · rfl
  · split_ifs <;> rfl

private theorem scheduler_finishPreemption (r : KernelRuntime) (cpu : Cpu) (candidate : TaskId)
    (plan : PreemptionPlan) :
    (r.finishPreemption cpu candidate plan).1.manager.scheduler = r.manager.scheduler := by
  cases plan with
  | returnToContext id context => rfl
  | iretKernel id state =>
    unfold finishPreemption
    dsimp only
    split <;> rfl

variable {r : KernelRuntime} (h : r.manager.scheduler.Reached) (cpu : Cpu)

include h

private theorem prepareRun_reached : (r.prepareRun cpu).1.manager.scheduler.Reached := by
  have hreached := prepareDispatch_reached h cpu
  unfold prepareRun
  rcases hprepare : r.manager.prepareDispatch cpu with ⟨m, cpu', e | decision⟩
  · rw [hprepare] at hreached
    exact hreached
  · rw [hprepare] at hreached
    dsimp only
    split
    · exact hreached
    · split_ifs <;> exact hreached

private theorem dispatchOnce_reached (saved : Context) : (r.dispatchOnce cpu saved).1.manager.scheduler.Reached := by
  have hreached := prepareDispatch_reached h cpu
  unfold dispatchOnce
  split
  · exact h
  · rcases hprepare : r.manager.prepareDispatch cpu with ⟨m, cpu', e | decision⟩
    · rw [hprepare] at hreached
      exact hreached
    · rw [hprepare] at hreached
      dsimp only
      split
      · exact hreached
      · split_ifs
        · exact hreached
        · split
          · rw [scheduler_activateFirst]
            exact hreached
          · rw [scheduler_switchTasks]
            exact hreached

private theorem safeReschedulePoint_reached (saved : Context) :
    (r.safeReschedulePoint cpu saved).1.manager.scheduler.Reached := by
  have hcommit := scheduler_commitInterruptedState { r with reschedule := false } cpu
  unfold safeReschedulePoint
  split_ifs
  · exact h
  · exact h
  · rcases hc : ({ r with reschedule := false } : KernelRuntime).commitInterruptedState cpu with ⟨r₁, cpu₁, e | _⟩
    · rw [hc] at hcommit
      exact hcommit ▸ h
    · rw [hc] at hcommit
      have hreached : r₁.manager.scheduler.Reached := hcommit ▸ h
      have hdispatch := dispatchOnce_reached hreached cpu₁ saved
      dsimp only
      split
      · rename_i heq
        rwa [heq] at hdispatch
      · rename_i heq
        rw [heq] at hdispatch
        exact hdispatch
      · rename_i heq
        rwa [heq] at hdispatch

private theorem preempt_reached (candidate : TaskId) (plan : PreemptionPlan) :
    (r.preempt cpu candidate plan).1.manager.scheduler.Reached := by
  have hcommit := scheduler_commitInterruptedState r cpu
  unfold preempt
  rcases hc : r.commitInterruptedState cpu with ⟨r₁, cpu₁, e | _⟩
  · rw [hc] at hcommit
    exact hcommit ▸ h
  · rw [hc] at hcommit
    have hprepare := prepareDispatch_reached (hcommit ▸ h : r₁.manager.scheduler.Reached) cpu₁
    dsimp only
    rcases hp : r₁.manager.prepareDispatch cpu₁ with ⟨m, cpu₂, e | decision⟩
    · rw [hp] at hprepare
      exact hprepare
    · rw [hp] at hprepare
      dsimp only
      split_ifs
      · exact hprepare
      · rw [scheduler_finishPreemption]
        exact hprepare

private theorem handleTimerPreemption_reached : (r.handleTimerPreemption cpu).1.manager.scheduler.Reached := by
  have hexpired : (r.manager.expireSleepers cpu.timerTicks).1.scheduler.Reached :=
    h.perform (.expireSleepers cpu.timerTicks r.manager.sleepers)
  unfold handleTimerPreemption
  dsimp only
  split_ifs
  · exact h
  · split
    · exact hexpired
    · split_ifs
      · exact hexpired
      · exact hexpired
      · split
        · exact hexpired
        · exact preempt_reached (r := { r with manager := (r.manager.expireSleepers cpu.timerTicks).1 }) hexpired
            _ _ _

omit cpu in
private theorem exitCurrent_reached : r.manager.exitCurrent.1.scheduler.Reached := by
  rcases r.manager.exitCurrent_cases with ⟨sleepers, hexit⟩ | ⟨id, handle, sleepers, -, -, hexit⟩
  · rw [hexit]
    exact h
  · rw [hexit]
    exact h.perform .exitCurrent

omit cpu in
private theorem Call.perform_reached (call : Call) : (call.perform r).manager.scheduler.Reached := by
  cases call with
  | requestReschedule => exact h
  | preemption depth => exact h
  | spawn priority placement => exact KernelTaskManager.spawn_reached h priority placement
  | prepareRun cpu => exact prepareRun_reached h cpu
  | dispatchOnce cpu saved => exact dispatchOnce_reached h cpu saved
  | yieldCurrent cpu saved => exact dispatchOnce_reached (r := r.requestReschedule) h cpu saved
  | safeReschedulePoint cpu saved => exact safeReschedulePoint_reached h cpu saved
  | handleTimerPreemption cpu => exact handleTimerPreemption_reached h cpu
  | serviceTimer now => exact h.perform (.expireSleepers now r.manager.sleepers)
  | sleepCurrentUntil deadline => exact h.perform (.sleepCurrentUntil deadline r.manager.sleepers)
  | exitCurrent => exact exitCurrent_reached h
  | scheduler op => exact h.perform op
  | executions registry => exact h
  | sleepers queue => exact h

end Reached

/-- In every run the scheduler is where its own operations have brought it. -/
private theorem Reachable.scheduler_reached {r : KernelRuntime} (h : Reachable r) : r.manager.scheduler.Reached := by
  induction h with
  | boot => exact ⟨[], rfl⟩
  | step _ call ih => exact call.perform_reached ih

end KernelRuntime

/-! ### What a refusal leaves behind -/

/-- The errors that are reported before any context is switched. -/
def RuntimeError.beforeSwitch : RuntimeError → Bool
  | userspaceTaskRequiresSystemRuntime => true
  | interruptedTaskRequiresIret => true
  | noRunnableTask => true
  | task _ => true
  | _ => false

/-- The task states, the ready queue and the current task are the same. -/
structure Scheduler.Unmoved (s s' : Scheduler) : Prop where
  state : s'.state = s.state
  ready : s'.ready = s.ready
  current : s'.current = s.current

private theorem Scheduler.Unmoved.refl (s : Scheduler) : s.Unmoved s := ⟨rfl, rfl, rfl⟩

namespace KernelRuntime

structure RefusalsUntouched (r : KernelRuntime) (cpu : Cpu) (saved : Context) : Prop where
  prepareRun : ∀ e, (r.prepareRun cpu).2.2 = .error e → e.beforeSwitch = true →
    r.manager.scheduler.Unmoved (r.prepareRun cpu).1.manager.scheduler
  dispatchOnce : ∀ e, (r.dispatchOnce cpu saved).2.2 = .error e → e.beforeSwitch = true →
    r.manager.scheduler.Unmoved (r.dispatchOnce cpu saved).1.manager.scheduler
  noMismatch : (r.manager.prepareDispatch cpu).2.2 ≠ .error .dispatchMismatch

/-- The head of the ready queue is not a userspace task that a dispatch would choose. -/
def KernelHead (r : KernelRuntime) : Prop :=
  ∀ next, r.manager.scheduler.nextReady = some next → r.manager.scheduler.current ≠ some next →
    r.manager.Executable next → r.manager.scheduler.taskKind next ≠ some .userspace

private theorem activateFirst_error {r : KernelRuntime} {cpu : Cpu} {next : TaskId} {saved : Context}
    {e : RuntimeError} (h : (r.activateFirst cpu next saved).2.2 = .error e) : e.beforeSwitch = false := by
  unfold activateFirst at h
  split at h
  · cases h
    rfl
  · split_ifs at h
    cases h
    rfl

private theorem switchTasks_error {r : KernelRuntime} {cpu : Cpu} {previous next : TaskId} {saved : Context}
    {e : RuntimeError} (h : (r.switchTasks cpu previous next saved).2.2 = .error e) : e.beforeSwitch = false := by
  unfold switchTasks at h
  split at h
  · cases h
    rfl
  · split_ifs at h <;> cases h <;> rfl

/-- `dispatch_once` has looked at the task that the scheduler chooses before the scheduler chooses it. -/
private theorem dispatchOnce_unmoved {r : KernelRuntime} (hs : r.manager.scheduler.view.Sound) {cpu : Cpu}
    {saved : Context}
    {e : RuntimeError} (herror : (r.dispatchOnce cpu saved).2.2 = .error e) (hbefore : e.beforeSwitch = true) :
    (r.dispatchOnce cpu saved).1.manager.scheduler = r.manager.scheduler := by
  have hends := KernelTaskManager.prepareDispatch_ends hs cpu
  unfold dispatchOnce at herror ⊢
  cases hcheck : r.checkCandidate with
  | error e' => rfl
  | ok _ =>
    simp only [hcheck] at herror ⊢
    generalize hprepare : r.manager.prepareDispatch cpu = result at hends herror ⊢
    cases hends with
    | idle hidle => rfl
    | refused e' hnext hrefused => rfl
    | @dispatched next s top hnext hne hexecutable hcurrent hkind =>
      have huser : s.taskKind next ≠ some .userspace := by
        intro huser
        simp [checkCandidate, hnext, ← hkind, huser] at hcheck
      simp only [huser, if_false] at herror
      -- from here on only the switch itself can fail
      cases hcur : r.manager.scheduler.current with
      | none =>
        simp only [hcur] at herror
        rw [activateFirst_error herror] at hbefore
        cases hbefore
      | some previous =>
        simp only [hcur] at herror
        rw [switchTasks_error herror] at hbefore
        cases hbefore

private theorem prepareRun_unmoved {r : KernelRuntime} (hs : r.manager.scheduler.view.Sound) (hhead : r.KernelHead)
    {cpu : Cpu} {e : RuntimeError} (herror : (r.prepareRun cpu).2.2 = .error e) :
    (r.prepareRun cpu).1.manager.scheduler = r.manager.scheduler := by
  have hends := KernelTaskManager.prepareDispatch_ends hs cpu
  unfold prepareRun at herror ⊢
  generalize hprepare : r.manager.prepareDispatch cpu = result at hends herror ⊢
  cases hends with
  | idle hidle => rfl
  | refused e' hnext hrefused => rfl
  | @dispatched next s top hnext hne hexecutable hcurrent hkind =>
    have huser : s.taskKind next ≠ some .userspace := by
      rw [hkind]
      exact hhead next hnext hne hexecutable
    simp only [huser, if_false] at herror
    cases herror

/-- In every reachable runtime: refused dispatches leave the scheduler where it was exactly if the head of the ready
queue is not a userspace task that `prepare_run` would let the scheduler choose. -/
theorem reachable_refusals_iff {r : KernelRuntime} (h : Reachable r) (cpu : Cpu) (saved : Context) :
    r.RefusalsUntouched cpu saved ↔ r.KernelHead := by
  have hs := h.scheduler_reached.sound
  have hends := KernelTaskManager.prepareDispatch_ends hs cpu
  constructor
  · intro huntouched next hnext hne hexecutable huser
    have hready : r.manager.scheduler.state next = some .ready := (hs.mem_queue next).mp (List.mem_of_mem_head? hnext)
    obtain ⟨s, top, hcurrent, hkind, hprepare⟩ :=
      KernelTaskManager.prepareDispatch_of_dispatchable hnext hne ⟨hready, hexecutable⟩ cpu
    have hrun : r.prepareRun cpu = ({ r with manager.scheduler := s }, { cpu with kernelStackTop := top },
        .error .userspaceTaskRequiresSystemRuntime) := by
      simp only [prepareRun, hprepare, hkind, huser, if_true]
    have hunmoved := huntouched.prepareRun _ (by rw [hrun]) rfl
    rw [hrun] at hunmoved
    exact hne (hunmoved.current.symm.trans hcurrent)
  · intro hhead
    refine ⟨fun e herror _ => ?_, fun e herror hbefore => ?_, ?_⟩
    · rw [prepareRun_unmoved hs hhead herror]
      exact .refl _
    · rw [dispatchOnce_unmoved hs herror hbefore]
      exact .refl _
    · generalize r.manager.prepareDispatch cpu = result at hends
      cases hends <;> nofun

def performAll (r : KernelRuntime) (calls : List Call) : KernelRuntime := calls.foldl Call.perform r

private theorem Reachable.performAll {r : KernelRuntime} (h : Reachable r) (calls : List Call) :
    Reachable (r.performAll calls) := by
  induction calls generalizing r with
  | nil => exact h
  | cons call calls ih => exact ih (h.step call)

/-- A task of the given kind with an execution of its own: what spawning a process does with the kernel runtime. -/
def readyTask (create : Scheduler.Op) : KernelRuntime :=
  KernelRuntime.new.performAll [.scheduler create, .scheduler (.attachExecution ⟨0, 1⟩),
    .executions (ExecutionRegistry.new.insert (.forTask ⟨0, 1⟩)
      (some ⟨0x100000, 0x9000, 0x8000, Placement.sample_ne_zero⟩)).1,
    .scheduler (.makeReady ⟨0, 1⟩)]

theorem readyTask_reachable (create : Scheduler.Op) : Reachable (readyTask create) := Reachable.boot.performAll _

/-- The process that a system has spawned is refused by `prepare_run` and is the running task afterwards. -/
theorem prepareRun_refused_moves :
    (SystemRuntime.new.spawnUserReady SpawnSample.image SpawnSample.launch .default
      (some ⟨0x100000, 0x9000, 0x8000, by decide⟩)).1.runtime = readyTask (.createUserTask .default) ∧
    Reachable (readyTask (.createUserTask .default)) ∧
    ((readyTask (.createUserTask .default)).prepareRun (.new 0)).2.2 = .error .userspaceTaskRequiresSystemRuntime ∧
    ¬ (readyTask (.createUserTask .default)).RefusalsUntouched (.new 0) .empty := by
  refine ⟨rfl, readyTask_reachable _, by decide +kernel, fun h => ?_⟩
  have hunmoved := (h.prepareRun .userspaceTaskRequiresSystemRuntime (by decide +kernel) rfl).current
  revert hunmoved
  decide +kernel

/-- With a kernel task at the head of the queue nothing moves. -/
theorem refusals_untouched_kernel :
    Reachable (readyTask (.createTask .default)) ∧
    (readyTask (.createTask .default)).RefusalsUntouched (.new 0) .empty := by
  refine ⟨readyTask_reachable _, (reachable_refusals_iff (readyTask_reachable _) (.new 0) .empty).mpr ?_⟩
  intro next hnext _ _
  rw [show (readyTask (.createTask .default)).manager.scheduler.nextReady = some ⟨0, 1⟩ by decide +kernel,
    Option.some.injEq] at hnext
  subst hnext
  decide +kernel

end KernelRuntime

end X11Os
