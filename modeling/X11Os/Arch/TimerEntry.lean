import X11Os.Arch.KernelSwitch
import X11Os.Arch.SyscallEntry
import X11Os.Arch.UserEntry

/-!
# The timer entry

`timer_entry_rust` (`arch/x86_64/interrupt_entry.rs`) captures the interrupted task into a slot of the CPU and hands
the snapshot on: to the system runtime while a userspace task has the CPU, and to the kernel runtime otherwise.
Whoever gets it discards it, stores it for the interrupted task or leaves it in the slot.
-/

namespace X11Os

open Word Amd64 Exec

/-! ### The CPU and what it is bound to -/

/-- The kernel runtime that the CPU is bound to: none, the one that the bound system runtime owns
(`SystemRuntime::bind_cpu` binds both), or another one. -/
inductive RuntimePointer where
  | null
  | owned
  | other (runtime : KernelRuntime)

structure CpuLocal where
  cpu : Cpu
  system : Option SystemRuntime
  runtime : RuntimePointer

namespace CpuLocal

def runtimePtr (l : CpuLocal) : Option KernelRuntime :=
  match l.runtime with
  | .null => none
  | .owned => l.system.map (·.runtime)
  | .other runtime => some runtime

/-- Writing through the pointer to the kernel runtime. -/
def setRuntime (l : CpuLocal) (runtime : KernelRuntime) : CpuLocal :=
  match l.runtime with
  | .null => l
  | .owned => { l with system := l.system.map fun s => { s with runtime } }
  | .other _ => { l with runtime := .other runtime }

theorem runtimePtr_setRuntime {l : CpuLocal} {r : KernelRuntime} (h : l.runtimePtr = some r) (r' : KernelRuntime)
    (cpu : Cpu) : ({ l.setRuntime r' with cpu } : CpuLocal).runtimePtr = some r' := by
  unfold runtimePtr at h
  split at h
  · cases h
  · rename_i hruntime
    obtain ⟨s, hs, -⟩ := Option.map_eq_some_iff.mp h
    simp [runtimePtr, setRuntime, hruntime, hs]
  · rename_i hruntime
    simp [runtimePtr, setRuntime, hruntime]

theorem userspace_setRuntime (l : CpuLocal) (r : KernelRuntime) :
    (l.setRuntime r).system.map (·.userspace) = l.system.map (·.userspace) := by
  unfold setRuntime
  split
  · rfl
  · rw [Option.map_map]
    rfl
  · rfl

end CpuLocal

def Cpu.takeSyscallAction (cpu : Cpu) : Cpu × Option SyscallReturnAction :=
  ({ cpu with syscallAction := none }, cpu.syscallAction)

def SystemRuntime.currentUserBinding (s : SystemRuntime) : Option UserExecutionBinding :=
  s.scheduler.current.bind s.userspace.get

/-! ### The entry -/

/-- What the entry stub passes: the addresses of the saved registers and of the return frame, in the memory. -/
structure TimerArgs where
  memory : Memory
  registers : U64
  returnFrame : U64

def TimerArgs.snapshot (a : TimerArgs) : Panics InterruptedState :=
  InterruptedState.capture a.memory a.registers a.returnFrame

/-- The ways out of the entry.  After `userTransferred` and after a preemption that returns a continuation the CPU
goes on elsewhere, after the others in the interrupted code. -/
inductive TimerExit where
  | noResumeRsp
  | notCaptured (error : Cpu.CaptureError)
  | userReturned
  | userTransferred (transfer : UserReturnTransfer)
  | noRuntime
  | preemption (result : Except RuntimeError KernelRuntime.InterruptPreemption)
deriving DecidableEq, Repr

namespace CpuLocal

/-- The system runtime, while a userspace task is the current task of its scheduler. -/
def userSystem (l : CpuLocal) : Option SystemRuntime := l.system.filter fun s => s.currentUserBinding.isSome

/-- The snapshot is taken from the slot, whether it has been stored or not. -/
def discard (l : CpuLocal) (s : System) : CpuLocal :=
  { l with system := some s.toSystemRuntime, cpu := { s.cpu with interrupted := none } }

/-- The rest of the entry while a userspace task has the CPU. -/
def timerUser (l : CpuLocal) (system : SystemRuntime) : Panics (CpuLocal × TimerExit) :=
  let cpu := l.cpu.takeSyscallAction.1
  match l.cpu.takeSyscallAction.2 with
  | some .reschedule =>
    ((System.commitUserspaceYieldWithSnapshot cpu.interrupted).exec ⟨system, cpu⟩).bind fun
      | (.ok (some transfer), s) =>
        (executeUserTransfer transfer).bind fun transfer => .returned (l.discard s, .userTransferred transfer)
      | (_, s) => .returned (l.discard s, .userReturned)
  | some .return => .returned (l.discard ⟨system, cpu⟩, .userReturned)
  | none => .returned (l.discard ⟨system, cpu⟩, .userReturned)
  -- `unreachable!` in the source: the syscall entry has taken this action
  | some .terminate => .panicked

/-- The rest of the entry otherwise. -/
def timerKernel (l : CpuLocal) : CpuLocal × TimerExit :=
  match l.runtimePtr with
  | none => (l, .noRuntime)
  | some runtime =>
    let (runtime, cpu, result) := runtime.handleTimerPreemption l.cpu
    ({ l.setRuntime runtime with cpu }, .preemption result)

end CpuLocal

def timerEntryRust (a : TimerArgs) (l : CpuLocal) : Panics (CpuLocal × TimerExit) :=
  match InterruptReturnFrame.resumeRsp a.memory a.returnFrame with
  | none => .returned (l, .noResumeRsp)
  | some _ =>
    a.snapshot.bind fun snapshot =>
      match l.cpu.captureInterrupted snapshot with
      -- the tick is counted, and neither runtime sees it
      | (cpu, .error error) => .returned ({ l with cpu := cpu.recordTimerInterrupt }, .notCaptured error)
      | (cpu, .ok _) =>
        let l := { l with cpu := cpu.recordTimerInterrupt }
        match l.userSystem with
        | some system => l.timerUser system
        | none => .returned l.timerKernel

/-! ### What the kernel runtime does with a snapshot -/

/-- A task that had nothing stored has the snapshot stored now. -/
structure Stores (before after : Option InterruptedState) (snapshot : InterruptedState) : Prop where
  empty : before = none
  stored : after = some snapshot

namespace KernelRuntime

/-- What an interrupt has left behind for the task. -/
def interruptedOf (r : KernelRuntime) (task : TaskId) : Option InterruptedState :=
  (r.manager.executions.get task).bind (·.interrupted)

inductive Disposal where
  | discarded
  | pending
  | stored
  | switched
deriving DecidableEq, Repr

/-- The snapshot is gone from the slot, and it is stored if and only if its task has lost the CPU. -/
def Disposal.orderly : Disposal → Bool
  | discarded => true
  | pending => false
  | stored => false
  | switched => true

inductive Disposes (task : TaskId) (snapshot : InterruptedState) (before after : Option InterruptedState)
    (cpu : Cpu) :
    Disposal → Prop where
  | discarded (hslot : cpu.interrupted = none) (hcpu : cpu.currentTask = some task) (hkept : after = before) :
      Disposes task snapshot before after cpu .discarded
  | pending (hslot : cpu.interrupted = some (task, snapshot)) : Disposes task snapshot before after cpu .pending
  | stored (hslot : cpu.interrupted = none) (hcpu : cpu.currentTask = some task)
      (hstores : Stores before after snapshot) : Disposes task snapshot before after cpu .stored
  | switched (hslot : cpu.interrupted = none) (hcpu : cpu.currentTask ≠ some task)
      (hstores : Stores before after snapshot) : Disposes task snapshot before after cpu .switched

/-- The task can lose the CPU to the head of the ready queue: it has an execution without a snapshot, and the other
one can be dispatched. -/
structure Preemptable (m : KernelTaskManager) (task candidate : TaskId) : Prop where
  other : candidate ≠ task
  clean : ∃ b, m.executions.get task = some b ∧ b.interrupted = none
  dispatchable : m.Dispatchable candidate

/-- The timer at the time `now` disposes of the snapshot of `task` in an orderly way: preemption is disabled, or once
the sleepers are woken the ready queue is empty or headed by a kernel task that is the current task of the scheduler,
or cannot be returned to at all, or can preempt `task`. -/
def Settles (r : KernelRuntime) (now : U64) (task : TaskId) : Prop :=
  r.preemptionDepth = 0 → ∀ candidate, (r.manager.expireSleepers now).1.scheduler.nextReady = some candidate →
    (r.manager.expireSleepers now).1.scheduler.taskKind candidate ≠ some .userspace ∧
      ((r.manager.expireSleepers now).1.scheduler.current ≠ some candidate →
        ((r.manager.expireSleepers now).1.executions.preemptionPlan candidate).isSome = true →
          Preemptable (r.manager.expireSleepers now).1 task candidate)

instance (m : KernelTaskManager) (task candidate : TaskId) : Decidable (Preemptable m task candidate) :=
  decidable_of_iff (candidate ≠ task ∧ (∃ b ∈ m.executions.get task, b.interrupted = none) ∧ m.Dispatchable candidate)
    ⟨fun h => ⟨h.1, h.2.1, h.2.2⟩, fun h => ⟨h.other, h.clean, h.dispatchable⟩⟩

instance (r : KernelRuntime) (now : U64) (task : TaskId) : Decidable (r.Settles now task) :=
  inferInstanceAs (Decidable (r.preemptionDepth = 0 →
    ∀ candidate ∈ (r.manager.expireSleepers now).1.scheduler.nextReady,
      (r.manager.expireSleepers now).1.scheduler.taskKind candidate ≠ some .userspace ∧
        ((r.manager.expireSleepers now).1.scheduler.current ≠ some candidate →
          ((r.manager.expireSleepers now).1.executions.preemptionPlan candidate).isSome = true →
            Preemptable (r.manager.expireSleepers now).1 task candidate)))

private theorem settles_iff {r : KernelRuntime} {now : U64} {task candidate : TaskId} (hdepth : r.preemptionDepth = 0)
    (hnext : (r.manager.expireSleepers now).1.scheduler.nextReady = some candidate) :
    r.Settles now task ↔ (r.manager.expireSleepers now).1.scheduler.taskKind candidate ≠ some .userspace ∧
      ((r.manager.expireSleepers now).1.scheduler.current ≠ some candidate →
        ((r.manager.expireSleepers now).1.executions.preemptionPlan candidate).isSome = true →
          Preemptable (r.manager.expireSleepers now).1 task candidate) := by
  constructor
  · exact fun h => h hdepth candidate hnext
  · intro h _ candidate' hnext'
    rw [hnext, Option.some.injEq] at hnext'
    exact hnext' ▸ h

section Disposing

variable {r : KernelRuntime} (cpu : Cpu) {task : TaskId} {snapshot : InterruptedState}

private theorem stores_of_update {r' : KernelRuntime} {b : X86ExecutionBinding}
    (hget : r.manager.executions.get task = some b)
    (hclean : b.interrupted = none) (hexecutions : r'.manager.executions.get =
      Function.update r.manager.executions.get task (some { b with interrupted := some snapshot })) :
    Stores (r.interruptedOf task) (r'.interruptedOf task) snapshot where
  empty := by rw [interruptedOf, hget, Option.bind_some, hclean]
  stored := by
    rw [interruptedOf, hexecutions, Function.update_self]
    rfl

/-- The candidate gets the CPU with what was planned for it before the snapshot of `task` was stored. -/
private theorem finishPreemption_of_plan (r₁ : KernelRuntime) {candidate : TaskId} {b : X86ExecutionBinding}
    {plan : PreemptionPlan} (hget : r.manager.executions.get task = some b) (hclean : b.interrupted = none)
    (hplan : r.manager.executions.preemptionPlan candidate = some plan)
    (hexecutions : r₁.manager.executions.get =
      Function.update r.manager.executions.get task (some { b with interrupted := some snapshot })) :
    ∃ r' result,
      r₁.finishPreemption cpu candidate plan = (r', { cpu with currentTask := some candidate }, .ok result) ∧
      Stores (r.interruptedOf task) (r'.interruptedOf task) snapshot := by
  have hstores := stores_of_update hget hclean hexecutions
  cases plan with
  | returnToContext id context => exact ⟨_, _, rfl, hstores.empty, hstores.stored⟩
  | iretKernel id state =>
    -- the plan returns to a snapshot of the candidate, and `task` had none
    obtain ⟨b', hget', hstate, hiret⟩ := ExecutionRegistry.interrupted_of_iretKernel hplan
    rw [Option.isSome_iff_ne_none, ne_eq, ← Option.isNone_iff_eq_none] at hiret
    have hne : candidate ≠ task := by
      rintro rfl
      rw [hget, Option.some.injEq] at hget'
      rw [← hget', hclean] at hstate
      cases hstate
    have hget₁ : r₁.manager.executions.get candidate = some b' := by
      rw [hexecutions, Function.update_of_ne hne, hget']
    simp only [finishPreemption, ExecutionRegistry.takeKernelPreemptState, hget₁, hstate, if_neg hiret]
    refine ⟨_, _, rfl, hstores.empty, ?_⟩
    rw [interruptedOf, KeyedSlots.get_modify, Function.update_of_ne hne.symm]
    exact hstores.stored

variable (hcpu : cpu.currentTask = some task)

include hcpu

theorem commitInterruptedState_of_not_clean
    (hclean : ¬ ∃ b, r.manager.executions.get task = some b ∧ b.interrupted = none) :
    ∃ e, r.commitInterruptedState cpu = (r, cpu, .error e) := by
  cases hget : r.manager.executions.get task with
  | none => exact ⟨.missingExecutionPair, by simp only [commitInterruptedState, hcpu, hget]⟩
  | some b =>
    cases hinterrupted : b.interrupted with
    | none => exact absurd ⟨b, hget, hinterrupted⟩ hclean
    | some state => exact ⟨_, commitInterruptedState_of_present hcpu hget hinterrupted⟩

variable (hcaptured : cpu.interrupted = some (task, snapshot)) (hvalid : snapshot.isValid = true)

include hcaptured hvalid

/-- The preemption of `task` by the head of the ready queue, in any state. -/
private theorem preempt_disposes {candidate : TaskId} {plan : PreemptionPlan}
    (hnext : r.manager.scheduler.nextReady = some candidate) (hne : r.manager.scheduler.current ≠ some candidate)
    (hplan : r.manager.executions.preemptionPlan candidate = some plan) :
    ∃ disposal r' cpu' result, r.preempt cpu candidate plan = (r', cpu', result) ∧
      Disposes task snapshot (r.interruptedOf task) (r'.interruptedOf task) cpu' disposal ∧
      (disposal.orderly = true ↔ Preemptable r.manager task candidate) ∧
      (result = .error (.interruptedState .interruptedStateAlreadyPresent) → disposal = .pending) := by
  unfold preempt
  by_cases hclean : ∃ b, r.manager.executions.get task = some b ∧ b.interrupted = none
  · have ⟨b, hget, hinterrupted⟩ := hclean
    obtain ⟨executions, hcommit, hexecutions⟩ :=
      commitInterruptedState_of_captured hcpu hcaptured hvalid hget hinterrupted
    rw [hcommit]
    dsimp only
    have hdispatchable : candidate ≠ task → (KernelTaskManager.Dispatchable { r.manager with executions } candidate ↔
        r.manager.Dispatchable candidate) := by
      intro hother
      have hsame : executions.get candidate = r.manager.executions.get candidate := by
        rw [hexecutions, Function.update_of_ne hother]
      exact ⟨fun h => ⟨h.ready, hsame ▸ h.valid⟩, fun h => ⟨h.ready, hsame ▸ h.valid⟩⟩
    by_cases hd : KernelTaskManager.Dispatchable { r.manager with executions } candidate
    · obtain ⟨s, top, -, -, hprepare⟩ := KernelTaskManager.prepareDispatch_of_dispatchable
        (m := { r.manager with executions }) hnext hne hd { cpu with interrupted := none }
      obtain ⟨r', result, hfinish, hstores⟩ := finishPreemption_of_plan
        { cpu with interrupted := none, kernelStackTop := top }
        { r with manager := { r.manager with executions, scheduler := s } } hget hinterrupted hplan hexecutions
      simp only [hprepare, ne_eq, not_true_eq_false, if_false]
      by_cases hother : candidate = task
      · refine ⟨.stored, r', _, _, hfinish, .stored rfl (congrArg some hother) hstores, ?_, fun h => by cases h⟩
        exact ⟨fun h => (by cases h), fun h => absurd hother h.other⟩
      · refine ⟨.switched, r', _, _, hfinish, .switched rfl (fun h => hother (Option.some.inj h)) hstores, ?_,
          fun h => by cases h⟩
        exact ⟨fun _ => ⟨hother, hclean, (hdispatchable hother).mp hd⟩, fun _ => rfl⟩
    · -- the snapshot has been stored, and `task` goes on
      obtain ⟨s, e, hprepare⟩ := KernelTaskManager.prepareDispatch_of_not_dispatchable
        (m := { r.manager with executions }) hnext hne hd { cpu with interrupted := none }
      simp only [hprepare]
      refine ⟨.stored, _, _, _, rfl, .stored rfl hcpu (stores_of_update hget hinterrupted hexecutions), ?_,
        fun h => by cases h⟩
      exact ⟨fun h => (by cases h), fun h => absurd ((hdispatchable h.other).mpr h.dispatchable) hd⟩
  · obtain ⟨e, hcommit⟩ := commitInterruptedState_of_not_clean cpu hcpu hclean
    rw [hcommit]
    refine ⟨.pending, _, _, _, rfl, .pending hcaptured, ?_, fun _ => rfl⟩
    exact ⟨fun h => (by cases h), fun h => absurd h.clean hclean⟩

/-- What the runtime does with a snapshot in the slot is orderly exactly if `Settles` holds. -/
theorem handleTimerPreemption_disposes (r : KernelRuntime) :
    ∃ disposal r' cpu' result, r.handleTimerPreemption cpu = (r', cpu', result) ∧
      Disposes task snapshot (r.interruptedOf task) (r'.interruptedOf task) cpu' disposal ∧
      (disposal.orderly = true ↔ r.Settles cpu.timerTicks task) ∧
      (result = .error (.interruptedState .interruptedStateAlreadyPresent) → disposal = .pending) := by
  unfold handleTimerPreemption
  dsimp only
  by_cases hdepth : r.preemptionDepth = 0
  · rw [if_neg (not_not.mpr hdepth)]
    cases hnext : (r.manager.expireSleepers cpu.timerTicks).1.scheduler.nextReady with
    | none =>
      refine ⟨.discarded, _, _, _, rfl, .discarded rfl hcpu rfl, ?_, fun h => by cases h⟩
      exact ⟨fun _ _ candidate h => (by rw [hnext] at h; cases h), fun _ => rfl⟩
    | some candidate =>
      rw [settles_iff hdepth hnext]
      dsimp only
      by_cases hkind : (r.manager.expireSleepers cpu.timerTicks).1.scheduler.taskKind candidate = some .userspace
      · rw [if_pos hkind]
        refine ⟨.pending, _, _, _, rfl, .pending hcaptured, ?_, fun _ => rfl⟩
        exact ⟨fun h => (by cases h), fun h => absurd hkind h.1⟩
      · rw [if_neg hkind]
        by_cases hcurrent : (r.manager.expireSleepers cpu.timerTicks).1.scheduler.current = some candidate
        · rw [if_pos hcurrent.symm]
          refine ⟨.discarded, _, _, _, rfl, .discarded rfl hcpu rfl, ?_, fun h => by cases h⟩
          exact ⟨fun _ => ⟨hkind, fun h => absurd hcurrent h⟩, fun _ => rfl⟩
        · rw [if_neg (Ne.symm hcurrent)]
          cases hplan : (r.manager.expireSleepers cpu.timerTicks).1.executions.preemptionPlan candidate with
          | none =>
            refine ⟨.discarded, _, _, _, rfl, .discarded rfl hcpu rfl, ?_, fun h => by cases h⟩
            exact ⟨fun _ => ⟨hkind, fun _ h => (by cases h)⟩, fun _ => rfl⟩
          | some plan =>
            obtain ⟨disposal, r', cpu', result, hpreempt, hdisposes, horderly, hpresent⟩ := preempt_disposes
              (r := { r with manager := (r.manager.expireSleepers cpu.timerTicks).1 })
              { cpu with timerPending := false } hcpu hcaptured hvalid hnext hcurrent hplan
            refine ⟨disposal, r', cpu', result, hpreempt, hdisposes, ?_, hpresent⟩
            rw [horderly]
            exact ⟨fun h => ⟨hkind, fun _ _ => h⟩, fun h => h.2 hcurrent rfl⟩
  · rw [if_pos hdepth]
    refine ⟨.discarded, _, _, _, rfl, .discarded rfl hcpu rfl, ?_, fun h => by cases h⟩
    exact ⟨fun _ h => absurd h hdepth, fun _ => rfl⟩

end Disposing

end KernelRuntime

end X11Os
