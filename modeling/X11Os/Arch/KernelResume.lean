import X11Os.Arch.KernelRuns

/-!
# Kernel tasks get their continuations back

In a run of proper operations every thread that is given the CPU again gets what it has left with.  The first
operation that is not proper breaks this, whatever it saves.
-/

namespace X11Os

open Word

namespace KernelWorld

open KernelRuntime

variable {w : KernelWorld} {trace : List KernelEvent}

/-! ### What a task that has gone to sleep breaks -/

/-- What `dispatch_once` saves is not what the place of the boot thread holds already. -/
def Op.Fresh (w : KernelWorld) : Op → Prop
  | dispatchOnce saved => saved ≠ w.runtime.bootContext
  | yieldCurrent saved => saved ≠ w.runtime.bootContext
  | _ => True

instance (w : KernelWorld) : (op : Op) → Decidable (op.Fresh w)
  | .dispatchOnce saved => inferInstanceAs (Decidable (saved ≠ w.runtime.bootContext))
  | .yieldCurrent saved => inferInstanceAs (Decidable (saved ≠ w.runtime.bootContext))
  | .spawn .. => .isTrue trivial
  | .sleepCurrentUntil _ => .isTrue trivial
  | .expireSleepers _ => .isTrue trivial
  | .serviceTimer _ => .isTrue trivial
  | .timer _ => .isTrue trivial

/-- The registers of a sleeping task go to the place of the boot thread. -/
private theorem dispatch_proper (hw : w.Consistent) (hboot : BootFirst trace w) {saved : Context}
    (hfresh : saved ≠ w.runtime.bootContext)
    (h : BootKept (trace ++ (w.leave saved (w.runtime.dispatchOnce w.cpu saved)).1)
      (w.leave saved (w.runtime.dispatchOnce w.cpu saved)).2)
    (hhead : w.runtime.manager.HeadSwitchable) : w.owner = w.runtime.manager.scheduler.current := by
  rcases dispatchOnce_cases hw.equipped w.cpu saved with
    ⟨hrefused, -⟩ | ⟨next, b, top, s, -, -, -, -, -, hresult⟩
  · exact absurd hhead hrefused
  · rw [hresult] at h
    cases hcur : w.runtime.manager.scheduler.current with
    | some task => exact hw.current task hcur
    | none =>
      rcases hboot with ⟨howner, -, -⟩ | ⟨howner, hlast⟩
      · exact howner
      · rw [hcur] at h
        have hlast' : Custody.lastLeft
          (trace ++ [.left w.owner (.context saved), .given (some next) (.context b.context)])
            none = some (.context w.runtime.bootContext) := by
          rw [List.append_cons, Custody.lastLeft_given, Custody.lastLeft_left_of_ne _ howner, hlast]
        rcases h with ⟨hnone, -⟩ | hsaved
        · cases hlast'.symm.trans hnone
        · have hcontext : some (KernelContinuation.context w.runtime.bootContext) = some (.context saved) :=
            hlast'.symm.trans hsaved
          cases hcontext
          exact absurd rfl hfresh

/-- A task that the timer gives the CPU right back gets an old context and not its snapshot. -/
private theorem timer_proper (hw : w.Consistent) {snapshot : InterruptedState}
    (h : Custody.Returned (trace ++ (w.timerEntry snapshot).1)) : ¬ Op.FindsOwner w snapshot := by
  rintro ⟨hslot, hvalid, task, howner, b, hget, hfinds⟩
  have htask : w.cpu.currentTask = some task := hw.currentTask.trans howner
  unfold timerEntry at h
  rcases w.cpu.captureInterrupted_cases snapshot with ⟨hfails, -⟩ | ⟨task', htask', -, -, hcapture⟩
  · cases htask.symm.trans (hfails hslot hvalid)
  · obtain rfl : task = task' := Option.some.inj (htask.symm.trans htask')
    obtain ⟨r, cpu, next, result, hhandle, hcpu, heffect⟩ := handleTimerPreemption_effect
      (Cpu.recordTimerInterrupt { w.cpu with interrupted := some (task, snapshot) }) htask rfl hvalid hget hw.equipped
    simp only [hcapture, hhandle, hcpu] at h
    generalize result.toOption.bind InterruptPreemption.continuation = given at h heffect
    cases heffect with
    | resumed hspared => exact hspared hfinds
    | jammed hspared => exact hspared hfinds
    | @preempted r₁ _ _ b' hkept hdepth hhead hinterrupted hget' =>
      obtain rfl : next = task := Option.some.inj (hhead.symm.trans hfinds.2.1)
      obtain rfl : b = b' := Option.some.inj (hget.symm.trans hget')
      have hreturned := h (trace ++ [.left w.owner (.interrupted snapshot)]) (some next) b.continuation []
        (List.append_cons ..) (.interrupted snapshot)
        (by rw [show w.owner = some next from howner, Custody.lastLeft_left])
      rw [X86ExecutionBinding.continuation, hinterrupted] at hreturned
      cases hreturned

private theorem Op.proper_of_returned (hw : w.Consistent) (hboot : BootFirst trace w) (op : Op) (hfresh : op.Fresh w)
    (hreturned : Custody.Returned (trace ++ (op.perform w).1))
    (hkept : BootKept (trace ++ (op.perform w).1) (op.perform w).2) : op.Proper w := by
  cases op with
  | spawn priority placement => trivial
  | dispatchOnce saved => exact dispatch_proper hw hboot hfresh hkept
  | yieldCurrent saved =>
    exact dispatch_proper (w := { w with runtime := w.runtime.requestReschedule }) hw.requestReschedule hboot hfresh
      hkept
  | sleepCurrentUntil deadline => trivial
  | expireSleepers now => trivial
  | serviceTimer now => trivial
  | timer snapshot => exact timer_proper hw hreturned

/-! ### Runs -/

/-- In a run of proper operations whoever is given the CPU again gets what it has left with, and the place of
the boot thread holds the continuation of the boot thread.  An operation after such a run keeps this exactly if
it is proper. -/
theorem run_returned (h : Run (fun w op => op.Enabled w ∧ op.Proper w) trace w) :
    (Custody.Returned trace ∧ BootKept trace w) ∧ ∀ op : Op, op.Enabled w → op.Fresh w →
      ((Custody.Returned (trace ++ (op.perform w).1) ∧ BootKept (trace ++ (op.perform w).1) (op.perform w).2) ↔
        op.Proper w) := by
  obtain ⟨hconsistent, hkept, hboot⟩ := h.invariant
  refine ⟨⟨hkept.returned, hboot.bootKept⟩, fun op henabled hfresh =>
    ⟨fun ⟨hreturned, hkept'⟩ => ?_, fun hproper => ?_⟩⟩
  · exact op.proper_of_returned hconsistent hboot hfresh hreturned hkept'
  · obtain ⟨-, hkept', hboot'⟩ := (h.step op ⟨henabled, hproper⟩).invariant
    exact ⟨hkept'.returned, hboot'.bootKept⟩

/-! ### Performing operations -/

/-- Performs the operations one after another; there is no result when one of them is not allowed. -/
def performAll (allowed : KernelWorld → Op → Prop) [∀ w op, Decidable (allowed w op)] (w : KernelWorld) :
    List Op → Option (List KernelEvent × KernelWorld)
  | [] => some ([], w)
  | op :: ops =>
    if allowed w op then (performAll allowed (op.perform w).2 ops).map fun r => ((op.perform w).1 ++ r.1, r.2)
    else none

section PerformAll

variable (allowed : KernelWorld → Op → Prop) [∀ w op, Decidable (allowed w op)]

variable {allowed} in
private theorem Run.performAll (h : Run allowed trace w) {ops : List Op} {events : List KernelEvent}
    {w' : KernelWorld} (hp : w.performAll allowed ops = some (events, w')) : Run allowed (trace ++ events) w' := by
  induction ops generalizing trace w events with
  | nil =>
    cases hp
    rwa [List.append_nil]
  | cons op ops ih =>
    unfold KernelWorld.performAll at hp
    split_ifs at hp with hallowed
    obtain ⟨⟨events', w''⟩, hrest, hpair⟩ := Option.map_eq_some_iff.mp hp
    cases hpair
    rw [← List.append_assoc]
    exact ih (h.step op hallowed) hrest

/-- What can be checked of the result of the operations holds of a run. -/
private theorem Run.of_performAll (stackTop : U64) (ops : List Op) {φ : List KernelEvent → KernelWorld → Prop}
    [∀ trace w, Decidable (φ trace w)]
    (h : ((KernelWorld.boot stackTop).performAll allowed ops).any (fun r => φ r.1 r.2) = true) :
    ∃ trace w, Run allowed trace w ∧ φ trace w := by
  obtain ⟨⟨events, w⟩, hp, hφ⟩ := (Option.any_eq_true _ _).mp h
  exact ⟨events, w, (Run.boot stackTop).performAll hp, of_decide_eq_true hφ⟩

end PerformAll

/-! ### A task that sleeps -/

/-- A spawn of a task with its stack at `stack`. -/
def Op.spawnSample (stack : U64) : Op := .spawn .default (some ⟨stack, 0x9000, 0x8000, Placement.sample_ne_zero⟩)

/-- Registers of a task that still has its activation record in `r12`: at its entry point `0x8000`, or in the middle
of a switch at `0x8100`. -/
def sampleContext (rsp rip : U64) : Context := { Context.empty with rsp := rsp, r12 := 0x9000, rip := rip }

/-- What the timer finds in the registers of a kernel task. -/
def sampleInterrupt (rip : U64) : InterruptedState :=
  ⟨⟨0, 0, 0, 0, 0, 0, 0, 0, 0, 0, 0, 0, 0, 0, 0⟩, ⟨rip, 8, 0x202, 0x7000, none, none⟩⟩

/-- The boot thread dispatches a task, which sleeps and dispatches a second one, which yields. -/
def sleeperTrace : List KernelEvent :=
  [.left none (.context (sampleContext 0x7f00 0x8100)),
    .given (some ⟨0, 1⟩) (.context (sampleContext 0x107ff8 0x8000)),
    .left (some ⟨0, 1⟩) (.context (sampleContext 0x107f00 0x8100)),
    .given (some ⟨1, 1⟩) (.context (sampleContext 0x207ff8 0x8000)),
    .left (some ⟨1, 1⟩) (.context (sampleContext 0x207f00 0x8100))]

/-- The registers of the sleeper replace the boot thread's.  Once it is woken, the sleeper starts again at its entry
point and not where it has left. -/
theorem sleeper_lost : ∃ w, Run (fun w op => op.Enabled w)
      (sleeperTrace ++ [.given (some ⟨0, 1⟩) (.context (sampleContext 0x107ff8 0x8000))]) w ∧
    Custody.lastLeft sleeperTrace (some ⟨0, 1⟩) = some (.context (sampleContext 0x107f00 0x8100)) ∧
    Custody.lastLeft sleeperTrace none = some (.context (sampleContext 0x7f00 0x8100)) ∧
    w.runtime.bootContext = sampleContext 0x107f00 0x8100 ∧
    ¬ Custody.Returned (sleeperTrace ++ [.given (some ⟨0, 1⟩) (.context (sampleContext 0x107ff8 0x8000))]) ∧
    ¬ BootKept (sleeperTrace ++ [.given (some ⟨0, 1⟩) (.context (sampleContext 0x107ff8 0x8000))]) w := by
  obtain ⟨trace, w, hrun, rfl, hboot, hkept⟩ := Run.of_performAll (fun w op => op.Enabled w) 0
    (φ := fun trace w =>
      trace = sleeperTrace ++ [.given (some ⟨0, 1⟩) (.context (sampleContext 0x107ff8 0x8000))] ∧
      w.runtime.bootContext = sampleContext 0x107f00 0x8100 ∧ ¬ BootKept trace w)
    [.spawnSample 0x100000, .spawnSample 0x200000, .dispatchOnce (sampleContext 0x7f00 0x8100), .sleepCurrentUntil 5,
      .dispatchOnce (sampleContext 0x107f00 0x8100), .expireSleepers 5, .yieldCurrent (sampleContext 0x207f00 0x8100)]
    (by decide +kernel)
  have hlast : Custody.lastLeft sleeperTrace (some ⟨0, 1⟩) = some (.context (sampleContext 0x107f00 0x8100)) := by
    decide +kernel
  refine ⟨w, hrun, hlast, by decide +kernel, hboot, fun h => ?_, hkept⟩
  have hgiven := h sleeperTrace _ _ [] rfl _ hlast
  exact absurd hgiven (by decide)

/-- Two tasks that yield and are interrupted get their continuations back, until the first one sleeps
and dispatches. -/
theorem run_returned_two_tasks : ∃ trace w, Run (fun w op => op.Enabled w ∧ op.Proper w) trace w ∧
    .given (some ⟨0, 1⟩) (.context (sampleContext 0x107f00 0x8100)) ∈ trace ∧
    .given (some ⟨1, 1⟩) (.interrupted (sampleInterrupt 0x8300)) ∈ trace ∧
    (Custody.Returned trace ∧ BootKept trace w) ∧
    (let op := Op.dispatchOnce (sampleContext 0x107e00 0x8100)
    op.Enabled w ∧ op.Fresh w ∧ ¬ op.Proper w ∧
      ¬ (Custody.Returned (trace ++ (op.perform w).1) ∧ BootKept (trace ++ (op.perform w).1) (op.perform w).2)) := by
  obtain ⟨trace, w, hrun, hcontext, hinterrupt, henabled, hfresh, hproper⟩ :=
    Run.of_performAll (fun w op => op.Enabled w ∧ op.Proper w) 0
    (φ := fun trace w => .given (some ⟨0, 1⟩) (.context (sampleContext 0x107f00 0x8100)) ∈ trace ∧
      .given (some ⟨1, 1⟩) (.interrupted (sampleInterrupt 0x8300)) ∈ trace ∧
      (Op.dispatchOnce (sampleContext 0x107e00 0x8100)).Enabled w ∧
      (Op.dispatchOnce (sampleContext 0x107e00 0x8100)).Fresh w ∧
      ¬ (Op.dispatchOnce (sampleContext 0x107e00 0x8100)).Proper w)
    [.spawnSample 0x100000, .spawnSample 0x200000, .dispatchOnce (sampleContext 0x7f00 0x8100),
      .yieldCurrent (sampleContext 0x107f00 0x8100), .timer (sampleInterrupt 0x8300), .timer (sampleInterrupt 0x8200),
      .spawnSample 0x300000, .timer (sampleInterrupt 0x8400), .sleepCurrentUntil 5]
    (by decide +kernel)
  obtain ⟨hkept, hiff⟩ := run_returned hrun
  exact ⟨trace, w, hrun, hcontext, hinterrupt, hkept, henabled, hfresh, hproper,
    fun h => hproper ((hiff _ henabled hfresh).mp h)⟩

end KernelWorld

end X11Os
