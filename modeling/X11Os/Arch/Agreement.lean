import X11Os.Arch.SystemRuns

/-!
# The registries agree

The processes, the scheduler, the executions, the userspace executions and the current process are stored apart.
After every operation they agree on which process owns the CPU, on the one process, the one userspace execution and
the one execution that a userspace task has, and on the states of a process and of its task; nothing is kept for the
task of a process that has exited.  So what a commit checks excludes every failure of its writes, and a commit that
fails has changed nothing.
-/

namespace X11Os

open Word

namespace SystemRuntime

/-- The process is bound to the task and has not exited. -/
def BoundTo (s : SystemRuntime) (process : ProcessId) (task : TaskId) : Prop :=
  ∃ b state, s.processes.binding process = .ok (some b) ∧ b.task = task ∧ s.processes.state process = .ok state ∧
    state ≠ .exited

structure Agreement (s : SystemRuntime) : Prop where
  currentProcess : ∀ process, s.currentProcess = some process ↔
    ∃ b, s.processes.binding process = .ok (some b) ∧ s.scheduler.current = some b.task
  running : ∀ process task, s.currentProcess = some process → s.scheduler.current = some task →
    (∀ process', s.processes.state process' = .ok .running ↔ process' = process) ∧
    ∀ task', s.scheduler.state task' = some .running ↔ task' = task
  userspace : ∀ task, s.scheduler.taskKind task = some .userspace → ∃ process b u,
    (∀ process', s.BoundTo process' task ↔ process' = process) ∧
    s.processes.binding process = .ok (some b) ∧ s.userspace.get task = some u ∧ u.process = process ∧
    u.addressSpace = b.addressSpace ∧ s.userspace.entries.countP (·.task = task) = 1 ∧
    s.executions.entries.countP (·.taskId = task) = 1
  inStep : ∀ process task, s.scheduler.taskKind task = some .userspace → s.BoundTo process task →
    (s.processes.state process = .ok .ready ↔ s.scheduler.state task = some .ready) ∧
    (s.processes.state process = .ok .running ↔ s.scheduler.state task = some .running)
  exited : ∀ process b, s.processes.state process = .ok .exited → s.processes.binding process = .ok (some b) →
    s.scheduler.task b.task = none ∧ s.userspace.get b.task = none ∧ s.executions.get b.task = none

/-! ### Coherent registries agree -/

namespace Coherent

variable {s : SystemRuntime}

theorem user_of_kind (hs : s.Coherent) {task : TaskId} (h : s.scheduler.taskKind task = some .userspace) :
    ∃ u, s.userspace.get task = some u := by
  obtain ⟨block, hblock, hkind⟩ := Option.map_eq_some_iff.mp h
  have hbound := hs.agrees.bound task block.state (lifecycle_task.mpr ⟨block, hblock, hkind, rfl⟩)
  obtain ⟨u, hu⟩ := Option.ne_none_iff_exists'.mp hbound
  obtain ⟨b, hb, -⟩ := lifecycle_user.mp hu
  exact ⟨b, hb⟩

/-- The process of a userspace execution is bound to its task and in step with it. -/
theorem user_bound (hs : s.Coherent) {task : TaskId} {u : UserExecutionBinding} (hu : s.userspace.get task = some u) :
    ∃ b pst st, s.processes.binding u.process = .ok (some b) ∧ b.task = task ∧ b.addressSpace = u.addressSpace ∧
      s.processes.state u.process = .ok pst ∧ s.scheduler.state task = some st ∧ Lifecycle.InStep pst st := by
  obtain ⟨block, slot, pst, st, hblock, hview, hslot, hpst, hbinding, hstep⟩ := hs.entry hu
  obtain ⟨b, hb, hpair⟩ := Option.map_eq_some_iff.mp hbinding
  refine ⟨b, pst, st, ProcessManager.binding_eq_ok.mpr ⟨slot, hslot, hb⟩, congrArg Prod.fst hpair,
    congrArg Prod.snd hpair, ProcessManager.state_eq_ok.mpr ⟨slot, hslot, hpst⟩, ?_, hstep⟩
  rw [Scheduler.state_of_task hblock, show block.state = st from congrArg Prod.snd hview]

/-- A process has exited and its task is gone, or it has a userspace execution. -/
private theorem process_cases (hs : s.Coherent) {process : ProcessId} {b : ProcessExecutionBinding}
    (hb : s.processes.binding process = .ok (some b)) :
    (s.processes.state process = .ok .exited ∧ s.scheduler.task b.task = none) ∨
    ∃ u, s.userspace.get b.task = some u ∧ u.process = process := by
  obtain ⟨slot, hslot, hbinding⟩ := ProcessManager.binding_eq_ok.mp hb
  obtain ⟨pst, hpst⟩ := Option.isSome_iff_exists.mp (ProcessManager.slot_eq_ok.mp hslot).2.2.2
  obtain ⟨task, space, hpair, -, hcase⟩ := hs.agrees.process process ⟨pst, some (b.task, b.addressSpace)⟩
    (lifecycle_process.mpr ⟨slot, hslot, hpst, by rw [hbinding]; rfl⟩)
  cases hpair
  rcases hcase with ⟨hexited, hnone⟩ | ⟨u, hu, hprocess⟩
  · refine .inl ⟨ProcessManager.state_eq_ok.mpr ⟨slot, hslot, hpst.trans (congrArg some hexited)⟩, ?_⟩
    exact Option.map_eq_none_iff.mp hnone
  · obtain ⟨user, huser, rfl⟩ := lifecycle_user.mp hu
    exact .inr ⟨user, huser, hprocess⟩

private theorem state_owner (hs : s.Coherent) {task : TaskId} :
    s.scheduler.state task = some .running ↔ s.scheduler.current = some task := by
  constructor
  · intro hrunning
    exact hs.sound.running task hrunning
  · intro hcur
    obtain ⟨block, hblock, -, hstate⟩ := lifecycle_task.mp (hs.agrees.owner task hcur)
    rw [Scheduler.state_of_task hblock, hstate]

/-- The owner of the CPU belongs to the current process. -/
theorem currentProcess_iff (hs : s.Coherent) {process : ProcessId} :
    s.currentProcess = some process ↔
      ∃ task u, s.scheduler.current = some task ∧ s.userspace.get task = some u ∧ u.process = process := by
  refine (hs.agrees.currentProcess process).trans ⟨?_, ?_⟩
  · rintro ⟨task, v, hcur, hv, hprocess⟩
    obtain ⟨u, hu, rfl⟩ := lifecycle_user.mp hv
    exact ⟨task, u, hcur, hu, hprocess⟩
  · rintro ⟨task, u, hcur, hu, hprocess⟩
    exact ⟨task, userView u, hcur, lifecycle_user.mpr ⟨u, hu, rfl⟩, hprocess⟩

theorem bound_of_current (hs : s.Coherent) (process : ProcessId) :
    s.currentProcess = some process ↔
      ∃ b, s.processes.binding process = .ok (some b) ∧ s.scheduler.current = some b.task := by
  rw [hs.currentProcess_iff]
  constructor
  · rintro ⟨task, u, hcur, hu, rfl⟩
    obtain ⟨b, pst, st, hb, htask, -⟩ := hs.user_bound hu
    exact ⟨b, hb, by rw [hcur, htask]⟩
  · rintro ⟨b, hb, hcur⟩
    rcases hs.process_cases hb with ⟨-, hnone⟩ | ⟨u, hu, hprocess⟩
    · -- the owner of the CPU is live
      have hrunning := hs.state_owner.mpr hcur
      rw [Scheduler.state, hnone] at hrunning
      cases hrunning
    · exact ⟨b.task, u, hcur, hu, hprocess⟩

theorem running_iff (hs : s.Coherent) (process : ProcessId) :
    s.processes.state process = .ok .running ↔ s.currentProcess = some process := by
  constructor
  · intro hrunning
    obtain ⟨slot, hslot, hpst⟩ := ProcessManager.state_eq_ok.mp hrunning
    obtain ⟨task, space, hpair, -, ⟨hexited, -⟩ | ⟨v, hv, hprocess⟩⟩ := hs.agrees.process process
      ⟨.running, slot.binding.map fun b => (b.task, b.addressSpace)⟩ (lifecycle_process.mpr ⟨slot, hslot, hpst, rfl⟩)
    · cases hexited
    · obtain ⟨u, hu, rfl⟩ := lifecycle_user.mp hv
      obtain ⟨b, pst, st, -, -, -, hstate, htask, hstep⟩ := hs.user_bound hu
      rw [show u.process = process from hprocess, hrunning] at hstate
      cases hstate
      cases hstep
      exact hs.currentProcess_iff.mpr ⟨task, u, hs.state_owner.mp htask, hu, hprocess⟩
  · intro hcurrent
    obtain ⟨task, u, hcur, hu, rfl⟩ := hs.currentProcess_iff.mp hcurrent
    obtain ⟨b, pst, st, -, -, -, hstate, htask, hstep⟩ := hs.user_bound hu
    rw [hs.state_owner.mpr hcur] at htask
    cases htask
    cases hstep
    exact hstate

/-- Whoever is bound to a userspace task is the process of its userspace execution. -/
private theorem boundTo_iff (hs : s.Coherent) {task : TaskId} {u : UserExecutionBinding}
    (hu : s.userspace.get task = some u) (process : ProcessId) : s.BoundTo process task ↔ process = u.process := by
  constructor
  · rintro ⟨b, state, hb, rfl, hstate, hlive⟩
    rcases hs.process_cases hb with ⟨hexited, -⟩ | ⟨u', hu', hprocess⟩
    · rw [hstate] at hexited
      cases hexited
      exact absurd rfl hlive
    · rw [hu] at hu'
      cases hu'
      exact hprocess.symm
  · rintro rfl
    obtain ⟨b, pst, st, hb, htask, -, hstate, -, hstep⟩ := hs.user_bound hu
    refine ⟨b, pst, hb, htask, hstate, ?_⟩
    rintro rfl
    cases hstep

theorem execution_of_kind (hs : s.Coherent) {task : TaskId} (h : s.scheduler.taskKind task ≠ none) :
    (s.executions.get task).isSome = true := by
  refine (hs.agrees.executing task).mpr fun hnone => h ?_
  rw [Scheduler.taskKind, Option.map_eq_none_iff.mp hnone, Option.map_none]

/-- Nothing is kept for a task that is not live. -/
private theorem absent (hs : s.Coherent) {task : TaskId} (h : s.scheduler.task task = none) :
    s.userspace.get task = none ∧ s.executions.get task = none := by
  constructor
  · cases hu : s.userspace.get task with
    | none => rfl
    | some u =>
      obtain ⟨block, -, -, -, hblock, -⟩ := hs.entry hu
      rw [h] at hblock
      cases hblock
  · rw [← Option.not_isSome_iff_eq_none]
    intro hsome
    refine (hs.agrees.executing task).mp hsome ?_
    show (s.scheduler.task task).map taskView = none
    rw [h, Option.map_none]

private theorem agreement (hs : s.Coherent) : s.Agreement := by
  constructor
  case currentProcess => exact hs.bound_of_current
  case running =>
    intro process task hprocess hcur
    refine ⟨fun process' => ?_, fun task' => ?_⟩
    · rw [hs.running_iff, hprocess, Option.some.injEq, eq_comm]
    · rw [hs.state_owner, hcur, Option.some.injEq, eq_comm]
  case userspace =>
    intro task hkind
    obtain ⟨u, hu⟩ := hs.user_of_kind hkind
    obtain ⟨b, pst, st, hb, -, hspace, -⟩ := hs.user_bound hu
    refine ⟨u.process, b, u, hs.boundTo_iff hu, hb, hu, rfl, hspace.symm, ?_, ?_⟩
    · rw [KeyedSlots.countP_entries, hu, Option.isSome_some, if_pos rfl]
    · rw [KeyedSlots.countP_entries, if_pos (hs.execution_of_kind (by simp [hkind]))]
  case inStep =>
    intro process task hkind hbound
    obtain ⟨u, hu⟩ := hs.user_of_kind hkind
    obtain rfl := (hs.boundTo_iff hu process).mp hbound
    obtain ⟨b, pst, st, -, -, -, hstate, htask, hstep⟩ := hs.user_bound hu
    rw [hstate, htask]
    cases hstep <;> simp
  case exited =>
    intro process b hexited hb
    rcases hs.process_cases hb with ⟨-, hnone⟩ | ⟨u, hu, rfl⟩
    · exact ⟨hnone, hs.absent hnone⟩
    · obtain ⟨-, pst, st, -, -, -, hstate, -, hstep⟩ := hs.user_bound hu
      rw [hexited] at hstate
      cases hstate
      cases hstep

end Coherent

end SystemRuntime

/-! ### Every run keeps the agreement -/

namespace System

open SystemRuntime

/-- After every operation of every run the registries agree, and every operation returns. -/
theorem run_agreement {trace : List (ResumeEvent TaskId InterruptedState)} {s : System} (h : Run trace s) :
    s.Agreement ∧ ∀ op : Op, op.Enabled s → ∃ s' transfer, op.perform s = .returned (s', transfer) := by
  refine ⟨h.coherent.agreement, fun op henabled => ?_⟩
  obtain ⟨s', transfer, hperform, -⟩ := op.perform_effect h.coherent henabled
  exact ⟨s', transfer, hperform⟩

/-- A run with two processes and a kernel task, after the first process has exited. -/
theorem run_agreement_after_exit : ∃ trace s, Run trace s ∧
    (s.currentProcess = some ⟨1, 1⟩ ∧ s.processes.state ⟨0, 1⟩ = .ok .exited) ∧ s.Agreement := by
  obtain ⟨trace, s, hrun, hstate⟩ := Run.of_performAll 0
    (φ := fun _ s => s.currentProcess = some ⟨1, 1⟩ ∧ s.processes.state ⟨0, 1⟩ = .ok .exited)
    [.spawnSample 1 (by decide), .spawnSample 2 (by decide),
      .spawnKernel .default (some ⟨0x900000, 0x9000, 0x8000, by decide⟩), .startUser ⟨0, 1⟩, .exit 7,
      .commitPendingExit]
    (by decide +kernel)
  exact ⟨trace, s, hrun, hstate, (run_agreement hrun).1⟩

/-! ### The commits are atomic -/

/-- In every state of every run the commit of an exit and the yield return, and they leave the system as it was when
they fail and when there is nobody to yield to. -/
theorem run_commits_atomic {trace : List (ResumeEvent TaskId InterruptedState)} {s : System} (h : Run trace s) :
    (∃ result s', commitPendingExit.exec s = .returned (result, s') ∧ ∀ e, result = .error e → s' = s) ∧
    ∀ interrupted, ∃ result s', (commitUserspaceYieldWithSnapshot interrupted).exec s = .returned (result, s') ∧
      (∀ e, result = .error e → s' = s) ∧ (result = .ok none → s' = s) := by
  refine ⟨?_, fun interrupted => ?_⟩
  · rcases commitPendingExit_transacts h.coherent with ⟨e, hfails⟩ | ⟨transfer, s', hruns, -⟩
    · exact ⟨_, s, hfails, fun _ _ => rfl⟩
    · exact ⟨_, s', hruns, nofun⟩
  · rcases commitUserspaceYieldWithSnapshot_transacts h.coherent interrupted with
      ⟨e, hfails⟩ | ⟨transfer, s', hruns, hidle | ⟨process, task, plan, rfl, -⟩⟩
    · exact ⟨_, s, hfails, fun _ _ => rfl, fun _ => rfl⟩
    · exact ⟨_, s', hruns, nofun, fun _ => hidle.2⟩
    · exact ⟨_, s', hruns, nofun, nofun⟩

/-- What a commit has reported. -/
def reported {α : Type} (r : Panics (Except SystemRuntimeError α × System)) : Option (Except SystemRuntimeError α) :=
  match r with
  | .panicked => none
  | .returned (result, _) => some result

/-- The only process has asked to exit.  The commit fails for want of a successor, and a yield has nobody
to yield to. -/
theorem run_commits_atomic_alone : ∃ trace s, Run trace s ∧ s.pendingExit = some (⟨0, 1⟩, ⟨0, 1⟩, 7) ∧
    commitPendingExit.exec s = .returned (.error (.successor .noReadyTask), s) ∧
    (commitUserspaceYieldWithSnapshot none).exec s = .returned (.ok none, s) := by
  obtain ⟨trace, s, hrun, hpending, hexit, hyield⟩ := Run.of_performAll 0
    (φ := fun _ s => s.pendingExit = some (⟨0, 1⟩, ⟨0, 1⟩, 7) ∧
      reported (commitPendingExit.exec s) = some (.error (.successor .noReadyTask)) ∧
      reported ((commitUserspaceYieldWithSnapshot none).exec s) = some (.ok none))
    [.spawnSample 1 (by decide), .startUser ⟨0, 1⟩, .exit 7] (by decide +kernel)
  obtain ⟨⟨result, s₁, hexec, hsame⟩, hyields⟩ := run_commits_atomic hrun
  obtain ⟨result', s₂, hexec', -, hsame'⟩ := hyields none
  rw [hexec] at hexit
  rw [hexec'] at hyield
  cases Option.some.inj hexit
  cases Option.some.inj hyield
  exact ⟨trace, s, hrun, hpending, by rw [hexec, hsame _ rfl], by rw [hexec', hsame' rfl]⟩

end System

end X11Os
