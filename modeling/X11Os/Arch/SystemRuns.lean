import X11Os.Arch.SystemSpawn

/-!
# Runs of the system

The operations by which the kernel, the syscalls of the current process and the timer change the system runtime, and
the runs that consist of them.  Every operation returns, and every run is a run of the lifecycle.
-/

namespace X11Os

open Word Exec

namespace System

open SystemRuntime

inductive Op where
  | spawnUserReady (image : ProcessImage) (launch : PreparedUserLaunch) (priority : Priority)
      (placement : Option Placement)
  | spawnKernel (priority : Priority) (placement : Option Placement)
  | startUser (process : ProcessId)
  | exit (code : U64)
  | yieldNow
  | commitPendingExit
  | commitUserspaceYieldWithSnapshot (interrupted : Option (TaskId × InterruptedState))
  | reap (process : ProcessId)

namespace Op

/-- The first user process is started at boot, and the tasks can be numbered with the 32 bits that a
name has for it. -/
def Enabled (s : System) : Op → Prop
  | spawnUserReady .. => s.scheduler.tasks.length < 2 ^ 32
  | spawnKernel .. => s.scheduler.tasks.length < 2 ^ 32
  | startUser _ => s.currentProcess = none
  | _ => True

instance (s : System) (op : Op) : Decidable (op.Enabled s) := by
  cases op <;> unfold Enabled <;> infer_instance

/-- The state that the operation leaves, and the transfer that the CPU takes after it. -/
def perform (s : System) : Op → Panics (System × Option UserReturnTransfer)
  | spawnUserReady image launch priority placement =>
    .returned ({ s with toSystemRuntime := (s.toSystemRuntime.spawnUserReady image launch priority placement).1 },
      none)
  | spawnKernel priority placement =>
    .returned ({ s with toSystemRuntime := (s.toSystemRuntime.spawnKernel priority placement).1 }, none)
  | startUser process => ((System.startUser process).exec s).bind fun r => .returned (r.2, none)
  | exit code => .returned ({ s with toSystemRuntime := (s.toSystemRuntime.exit code).1 }, none)
  | yieldNow => .returned ({ s with toSystemRuntime := s.toSystemRuntime.yieldNow.1 }, none)
  | commitPendingExit => (System.commitPendingExit.exec s).bind fun r => .returned (r.2, r.1.toOption)
  | commitUserspaceYieldWithSnapshot interrupted =>
    ((System.commitUserspaceYieldWithSnapshot interrupted).exec s).bind fun r => .returned (r.2, r.1.toOption.join)
  | reap process => .returned ({ s with toSystemRuntime := (s.toSystemRuntime.reap process).1 }, none)

/-- The snapshot that a yield takes from the task that owns the CPU. -/
def switchedOut (s : System) : Op → List (ResumeEvent TaskId InterruptedState)
  | commitUserspaceYieldWithSnapshot interrupted =>
    s.scheduler.current.toList.map (.switchedOut · (interrupted.map Prod.snd))
  | _ => []

def events (s : System) (op : Op) : Option UserReturnTransfer → List (ResumeEvent TaskId InterruptedState)
  | none => []
  | some transfer => op.switchedOut s ++ [.transferred transfer.task transfer.resume]

end Op

/-- The system at boot. -/
def boot (stackTop : U64) : System := ⟨.new, .new stackTop⟩

/-- The runs from boot, with the states that userspace tasks have left and taken up. -/
inductive Run : List (ResumeEvent TaskId InterruptedState) → System → Prop where
  | boot (stackTop : U64) : Run [] (boot stackTop)
  | step {trace : List (ResumeEvent TaskId InterruptedState)} {s s' : System} {transfer : Option UserReturnTransfer}
      (h : Run trace s) (op : Op) (henabled : op.Enabled s) (hperform : op.perform s = .returned (s', transfer)) :
      Run (trace ++ op.events s transfer) s'

/-! ### What an operation does -/

theorem exit_cases (s : SystemRuntime) (code : U64) :
    (∃ e, s.currentBindingChecked = .error e ∧ s.exit code = (s, .error e)) ∨
    ∃ user, s.currentBindingChecked = .ok user ∧ s.exit code =
      ({ s with pendingExit := some (user.process, user.task, code), runtime := s.runtime.requestReschedule },
        .ok ()) := by
  unfold SystemRuntime.exit
  cases s.currentBindingChecked with
  | error e => exact .inl ⟨e, rfl, rfl⟩
  | ok user => exact .inr ⟨user, rfl, rfl⟩

theorem yieldNow_cases (s : SystemRuntime) :
    (∃ e, s.yieldNow = (s, .error e)) ∨
    ∃ user, s.currentBindingChecked = .ok user ∧
      s.yieldNow = ({ s with runtime := s.runtime.requestReschedule }, .ok ()) := by
  unfold SystemRuntime.yieldNow
  cases s.currentBindingChecked with
  | error e => exact .inl ⟨e, rfl⟩
  | ok user => exact .inr ⟨user, rfl, rfl⟩

/-- The ways in which an operation changes the system, with the transfer that it returns. -/
inductive Effect (s : System) : Op → System → Option UserReturnTransfer → Prop where
  | unchanged {op : Op} : Effect s op s none
  | exitAsked (code : U64) {user : UserExecutionBinding} (hchecked : s.currentBindingChecked = .ok user) :
      Effect s (.exit code) { s with
        pendingExit := some (user.process, user.task, code)
        runtime := s.runtime.requestReschedule } none
  | yieldAsked : Effect s .yieldNow { s with runtime := s.runtime.requestReschedule } none
  | givenUp {op : Op} {r : SystemRuntime} {task : TaskId} (h : GivenUp s.toSystemRuntime r task) :
      Effect s op { s with toSystemRuntime := r } none
  | kernelSpawned {op : Op} {r : SystemRuntime} {task : TaskId} (h : KernelSpawned s.toSystemRuntime r task) :
      Effect s op { s with toSystemRuntime := r } none
  | userSpawned {op : Op} {r : SystemRuntime} {process : ProcessId} {task : TaskId} {space : AddressSpaceId}
      (h : UserSpawned s.toSystemRuntime r process task space) : Effect s op { s with toSystemRuntime := r } none
  | started {s' : System} {process : ProcessId} {user : UserExecutionBinding}
      {h : Launch s.toSystemRuntime process user} (e : StartEffect s s' h) : Effect s (.startUser process) s' none
  | exited {s' : System} {process : ProcessId} {task : TaskId} {code : U64} {plan : UserSuccessorPlan}
      {h : Handover s.toSystemRuntime process task plan} (hpending : s.pendingExit = some (process, task, code))
      (e : ExitEffect s s' h) : Effect s .commitPendingExit s' (some (.new plan.binding))
  | yielded {s' : System} {process : ProcessId} {task : TaskId} {plan : UserSuccessorPlan}
      {interrupted : Option (TaskId × InterruptedState)} {h : Handover s.toSystemRuntime process task plan}
      (hvalid : ∀ state, interrupted.map Prod.snd = some state → state.isUserValid = true)
      (e : YieldEffect s s' h ((interrupted.map Prod.snd).or h.user.resume)) :
      Effect s (.commitUserspaceYieldWithSnapshot interrupted) s' (some (.new plan.binding))
  | reaped {r : SystemRuntime} {process : ProcessId} (h : Reaped s.toSystemRuntime r process) :
      Effect s (.reap process) { s with toSystemRuntime := r } none

private theorem spawn_effect {s : System} (hs : s.Coherent) (hfits : s.scheduler.tasks.length < 2 ^ 32)
    (image : ProcessImage) (launch : PreparedUserLaunch) (priority : Priority) (placement : Option Placement)
    (op : Op) :
    Effect s op
      { s with toSystemRuntime := (s.toSystemRuntime.spawnUserReady image launch priority placement).1 } none := by
  rcases spawnUserReady_cases hs hfits image launch priority placement with
    ⟨e, hspawn⟩ | ⟨r, task, e, hspawn, hgiven⟩ | ⟨r, process, task, hspawn, hspawned⟩
  · rw [hspawn]
    exact .unchanged
  · rw [hspawn]
    exact .givenUp hgiven
  · rw [hspawn]
    exact .userSpawned hspawned

/-- Every operation returns. -/
theorem Op.perform_effect {s : System} (hs : s.Coherent) (op : Op) (h : op.Enabled s) :
    ∃ s' transfer, op.perform s = .returned (s', transfer) ∧ Effect s op s' transfer := by
  cases op with
  | spawnUserReady image launch priority placement =>
    exact ⟨_, none, rfl, spawn_effect hs h image launch priority placement _⟩
  | spawnKernel priority placement =>
    refine ⟨_, none, rfl, ?_⟩
    obtain ⟨r, task, ⟨e, hspawn, hgiven⟩ | ⟨hspawn, hspawned⟩⟩ := spawnKernel_cases hs h priority placement
    · rw [hspawn]
      exact .givenUp hgiven
    · rw [hspawn]
      exact .kernelSpawned hspawned
  | reap process =>
    refine ⟨_, none, rfl, ?_⟩
    rcases s.toSystemRuntime.reap_cases process with ⟨e, hreap⟩ | ⟨r, reaped, hreap, h⟩
    · rw [hreap]
      exact .unchanged
    · rw [hreap]
      exact .reaped h
  | exit code =>
    refine ⟨_, none, rfl, ?_⟩
    rcases exit_cases s.toSystemRuntime code with ⟨e, -, hexit⟩ | ⟨user, hchecked, hexit⟩
    · rw [hexit]
      exact .unchanged
    · rw [hexit]
      exact .exitAsked code hchecked
  | yieldNow =>
    refine ⟨_, none, rfl, ?_⟩
    rcases yieldNow_cases s.toSystemRuntime with ⟨e, hyield⟩ | ⟨user, -, hyield⟩
    · rw [hyield]
      exact .unchanged
    · rw [hyield]
      exact .yieldAsked
  | startUser process =>
    rcases startUser_transacts hs h process with ⟨e, hexec⟩ | ⟨launch, s', hruns, user, -, hlaunch, heffect⟩
    · exact ⟨s, none, by rw [perform, hexec, Panics.bind_returned], .unchanged⟩
    · exact ⟨s', none, by rw [perform, hruns, Panics.bind_returned], .started heffect⟩
  | commitPendingExit =>
    rcases commitPendingExit_transacts hs with
      ⟨e, hexec⟩ | ⟨transfer, s', hruns, process, task, code, plan, hpending, -, rfl, hover, heffect⟩
    · exact ⟨s, none, by rw [perform, hexec, Panics.bind_returned]; rfl, .unchanged⟩
    · exact ⟨s', _, by rw [perform, hruns, Panics.bind_returned]; rfl, .exited hpending heffect⟩
  | commitUserspaceYieldWithSnapshot interrupted =>
    rcases commitUserspaceYieldWithSnapshot_transacts hs interrupted with
      ⟨e, hexec⟩ | ⟨transfer, s', hruns, ⟨rfl, rfl⟩ | ⟨process, task, plan, rfl, -, hcaptured, hover, heffect⟩⟩
    · exact ⟨s, none, by rw [perform, hexec, Panics.bind_returned]; rfl, .unchanged⟩
    · exact ⟨s', none, by rw [perform, hruns, Panics.bind_returned]; rfl, .unchanged⟩
    · refine ⟨s', _, by rw [perform, hruns, Panics.bind_returned]; rfl, .yielded (fun state hstate => ?_) heffect⟩
      obtain ⟨⟨captured, state⟩, hsome, rfl⟩ := Option.map_eq_some_iff.mp hstate
      exact (hcaptured captured state hsome).2

/-- The effect of an operation that has returned. -/
theorem Op.effect_of_perform {s s' : System} {op : Op} {transfer : Option UserReturnTransfer} (hs : s.Coherent)
    (henabled : op.Enabled s) (hperform : op.perform s = .returned (s', transfer)) : Effect s op s' transfer := by
  obtain ⟨s₁, transfer₁, hperform₁, heffect⟩ := op.perform_effect hs henabled
  rw [hperform] at hperform₁
  cases hperform₁
  exact heffect

namespace Effect

variable {s s' : System} {op : Op} {transfer : Option UserReturnTransfer}

theorem coherent (h : Effect s op s' transfer) (hs : s.Coherent) : s'.Coherent := by
  cases h with
  | unchanged => exact hs
  | exitAsked => exact ⟨hs.numbered, hs.agrees, hs.stored, hs.handle, hs.stack, hs.resume, hs.image⟩
  | yieldAsked => exact ⟨hs.numbered, hs.agrees, hs.stored, hs.handle, hs.stack, hs.resume, hs.image⟩
  | givenUp h => exact h.coherent hs
  | kernelSpawned h => exact h.coherent hs
  | userSpawned h => exact h.coherent hs
  | started e => exact e.coherent hs
  | exited hpending e => exact e.coherent hs
  | yielded hvalid e => exact e.coherent hs hvalid
  | reaped h => exact h.coherent hs

/-- Every operation is a step of the lifecycle. -/
private theorem step (h : Effect s op s' transfer) :
    Lifecycle.Step s.lifecycle (op.events s transfer) s'.lifecycle := by
  cases h with
  | unchanged => exact .inr ⟨rfl, rfl⟩
  | exitAsked => exact .inr ⟨rfl, rfl⟩
  | yieldAsked => exact .inr ⟨rfl, rfl⟩
  | givenUp h => exact .inl h.move
  | kernelSpawned h => exact .inl h.move
  | userSpawned h => exact .inl h.move
  | started e => exact .inl e.move
  | @exited s' process task code plan hover hpending e =>
    show Lifecycle.Step s.lifecycle [.transferred plan.binding.task plan.binding.resume] s'.lifecycle
    rw [hover.nextUser_task]
    exact .inl e.move
  | @yielded s' process task plan interrupted hover hvalid e =>
    show Lifecycle.Step s.lifecycle (s.scheduler.current.toList.map _ ++
      [.transferred plan.binding.task plan.binding.resume]) s'.lifecycle
    rw [hover.current, hover.nextUser_task]
    exact .inl e.move
  | reaped h => exact .inl h.move

end Effect

/-! ### Runs -/

theorem boot_coherent (stackTop : U64) : (boot stackTop).Coherent ∧ (boot stackTop).lifecycle = .initial := by
  have hinitial : (boot stackTop).lifecycle = .initial := by
    apply Lifecycle.ext
    case issued => exact Scheduler.new_issued
    case executing => exact Set.eq_empty_of_forall_notMem fun id h => by cases h
    case process => exact funext fun id => congrArg slotView (ProcessManager.slot_new id)
    all_goals rfl
  refine ⟨⟨Scheduler.new_numbered, ?_, ?_, ?_, ?_, ?_, ?_⟩, hinitial⟩
  · rw [hinitial]
    exact .initial
  · rw [hinitial]
    rintro t u ⟨⟩
  · rintro id t ⟨⟩
  · rintro id b ⟨⟩
  · rintro id b ⟨⟩
  · intro id slot hslot
    rw [show (boot stackTop).processes.slot id = _ from ProcessManager.slot_new id] at hslot
    cases hslot

theorem Run.coherent {trace : List (ResumeEvent TaskId InterruptedState)} {s : System} (h : Run trace s) :
    s.Coherent := by
  induction h with
  | boot stackTop => exact (boot_coherent stackTop).1
  | step h op henabled hperform ih => exact (op.effect_of_perform ih henabled hperform).coherent ih

/-- Every run of the system is a run of the lifecycle. -/
theorem Run.reach {trace : List (ResumeEvent TaskId InterruptedState)} {s : System} (h : Run trace s) :
    Lifecycle.Reach trace s.lifecycle := by
  induction h with
  | boot stackTop =>
    rw [(boot_coherent stackTop).2]
    exact .initial
  | step h op henabled hperform ih => exact ih.step (op.effect_of_perform h.coherent henabled hperform).step

/-! ### Performing operations -/

/-- Performs the operations one after another; there is no result when one of them is not enabled or panics. -/
def performAll (s : System) : List Op → Option (List (ResumeEvent TaskId InterruptedState) × System)
  | [] => some ([], s)
  | op :: ops =>
    if op.Enabled s then
      match op.perform s with
      | .panicked => none
      | .returned (s', transfer) => (performAll s' ops).map fun r => (op.events s transfer ++ r.1, r.2)
    else none

/-- What the allowed operations keep is kept by every sequence of them. -/
theorem performAll_keeps (I : System → Prop) (allowed : Op → Prop)
    (hstep : ∀ {s s' op transfer}, Effect s op s' transfer → op.Enabled s → allowed op → I s → I s') {s s' : System}
    (hs : s.Coherent) (hI : I s) {ops : List Op} {events : List (ResumeEvent TaskId InterruptedState)}
    (hops : ∀ op ∈ ops, allowed op) (h : s.performAll ops = some (events, s')) : s'.Coherent ∧ I s' := by
  induction ops generalizing s events with
  | nil =>
    cases h
    exact ⟨hs, hI⟩
  | cons op ops ih =>
    unfold performAll at h
    split_ifs at h with henabled
    split at h
    · cases h
    · rename_i s₁ transfer hperform
      obtain ⟨⟨events', s''⟩, hrest, hpair⟩ := Option.map_eq_some_iff.mp h
      cases hpair
      have heffect := op.effect_of_perform hs henabled hperform
      exact ih (heffect.coherent hs) (hstep heffect henabled (hops op List.mem_cons_self) hI)
        (fun op' hmem => hops op' (List.mem_cons_of_mem _ hmem)) hrest

private theorem Run.performAll {trace : List (ResumeEvent TaskId InterruptedState)} {s : System} (h : Run trace s)
    {ops : List Op}
    {events : List (ResumeEvent TaskId InterruptedState)} {s' : System} (hp : s.performAll ops = some (events, s')) :
    Run (trace ++ events) s' := by
  induction ops generalizing trace s events with
  | nil =>
    cases hp
    rwa [List.append_nil]
  | cons op ops ih =>
    unfold System.performAll at hp
    split_ifs at hp with henabled
    split at hp
    · cases hp
    · rename_i s₁ transfer hperform
      obtain ⟨⟨events', s''⟩, hrest, hpair⟩ := Option.map_eq_some_iff.mp hp
      cases hpair
      rw [← List.append_assoc]
      exact ih (h.step op henabled hperform) hrest

/-- What can be checked of the result of the operations holds of a run. -/
theorem Run.of_performAll (stackTop : U64) (ops : List Op)
    {φ : List (ResumeEvent TaskId InterruptedState) → System → Prop} [∀ trace s, Decidable (φ trace s)]
    (h : ((System.boot stackTop).performAll ops).any (fun r => φ r.1 r.2) = true) : ∃ trace s, Run trace s ∧
    φ trace s := by
  obtain ⟨⟨events, s⟩, hp, hφ⟩ := (Option.any_eq_true _ _).mp h
  exact ⟨events, s, (Run.boot stackTop).performAll hp, of_decide_eq_true hφ⟩

/-- The frame of the sample processes. -/
private theorem sampleFrame_prepared :
    ∃ context, UserReturnFrame.fromInitial context userCodeSelector userDataSelector =
    .ok ⟨0x401001, 0x1b, 0x202, userStackTop, 0x13⟩ :=
  ⟨⟨0x401001, userStackTop⟩, rfl⟩

/-- The launch of the minimal image in an address space. -/
def sampleLaunch (id : AddressSpaceId) : PreparedUserLaunch :=
  ⟨id, ⟨0x12345000⟩, ⟨0x401001, 0x1b, 0x202, userStackTop, 0x13⟩, sampleFrame_prepared⟩

/-- A spawn of the minimal image, in the address space `raw`. -/
def Op.spawnSample (raw : U64) (h : raw ≠ 0) : Op :=
  .spawnUserReady (MinimalElf.image ⟨raw, h⟩) (sampleLaunch ⟨raw, h⟩) .default
    (some ⟨0x100000 * raw, 0x9000, 0x8000, Placement.sample_ne_zero⟩)

end System

end X11Os
