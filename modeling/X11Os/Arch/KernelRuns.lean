import X11Os.Arch.KernelSwitch
import X11Os.Lib.Custody

/-!
# Runs of the kernel runtime

The boot thread and the kernel tasks take turns on the single CPU.  A thread leaves with the registers that
`dispatch_once` saves or with the ones that the timer finds, and a thread that is given the CPU gets a context or an
interrupted state.  A run keeps these continuations in custody as long as no task leaves through `dispatch_once` after
it has gone to sleep: the scheduler has no current task then, and the registers go to the place of the boot thread.
-/

namespace X11Os

open Word

abbrev KernelEvent := CustodyEvent (Option TaskId) KernelContinuation

/-- The runtime and the CPU with the thread that has the CPU; `none` is the boot thread.  A thread that has left
through `dispatch_once` has a frame there: the saved context and the task that it sets as current when it goes on. -/
structure KernelWorld where
  runtime : KernelRuntime
  cpu : Cpu
  owner : Option TaskId
  frames : Option TaskId → Option (Context × Option TaskId)

namespace KernelWorld

open KernelRuntime

def boot (stackTop : U64) : KernelWorld := ⟨.new, .new stackTop, none, fun _ => none⟩

/-! ### Operations -/

/-- The CPU after `next` has gone on: a context that `dispatch_once` has saved goes on behind its switch. -/
def goOn (w : KernelWorld) (next : TaskId) : KernelContinuation → Cpu
  | .interrupted _ => w.cpu
  | .context context =>
    match w.frames (some next) with
    | none => w.cpu
    | some (saved, previous) => if saved = context then afterSwitch previous w.cpu else w.cpu

def give (w : KernelWorld) (next : TaskId) (continuation : KernelContinuation) : KernelWorld :=
  { w with owner := some next, cpu := w.goOn next continuation }

/-- The thread that has the CPU calls `dispatch_once`, which has this result when it switches or returns. -/
def leave (w : KernelWorld) (saved : Context) :
    KernelRuntime × Cpu × Except RuntimeError Switch → List KernelEvent × KernelWorld
  | (runtime, cpu, .error _) => ([], { w with runtime, cpu })
  | (runtime, cpu, .ok switch) =>
    ([.left w.owner (.context saved), .given (some switch.next) (.context switch.restored)],
      { w with runtime, cpu, frames := Function.update w.frames w.owner (some (saved, switch.previous)) }.give
        switch.next
        (.context switch.restored))

/-- `timer_entry_rust` with a kernel task on the CPU. -/
def timerEntry (w : KernelWorld) (snapshot : InterruptedState) : List KernelEvent × KernelWorld :=
  match w.cpu.captureInterrupted snapshot with
  | (cpu, .error _) => ([], { w with cpu := cpu.recordTimerInterrupt })
  | (cpu, .ok _) =>
    match w.runtime.handleTimerPreemption cpu.recordTimerInterrupt with
    | (runtime, cpu, result) =>
      match result.toOption.bind InterruptPreemption.continuation, cpu.currentTask with
      | some continuation, some next =>
        ([.left w.owner (.interrupted snapshot), .given (some next) continuation],
          { w with runtime, cpu }.give next continuation)
      | _, _ => ([], { w with runtime, cpu })

inductive Op where
  | spawn (priority : Priority) (placement : Option Placement)
  | dispatchOnce (saved : Context)
  | yieldCurrent (saved : Context)
  | sleepCurrentUntil (deadline : U64)
  | expireSleepers (now : U64)
  | serviceTimer (now : U64)
  | timer (snapshot : InterruptedState)

namespace Op

def perform (w : KernelWorld) : Op → List KernelEvent × KernelWorld
  | spawn priority placement => ([], { w with runtime := (w.runtime.spawn priority placement).1 })
  | dispatchOnce saved => w.leave saved (w.runtime.dispatchOnce w.cpu saved)
  | yieldCurrent saved => w.leave saved (w.runtime.yieldCurrent w.cpu saved)
  | sleepCurrentUntil deadline => ([], { w with runtime := (w.runtime.sleepCurrentUntil deadline).1 })
  | expireSleepers now =>
    ([], { w with runtime := { w.runtime with manager := (w.runtime.manager.expireSleepers now).1 } })
  | serviceTimer now => ([], { w with runtime := (w.runtime.serviceTimer now).1 })
  | timer snapshot => w.timerEntry snapshot

/-- The tasks can be numbered with the 32 bits that a name has for it, the switch saves a stack pointer and a return
address, and the timer finds kernel tasks in kernel mode. -/
def Enabled (w : KernelWorld) : Op → Prop
  | spawn .. => w.runtime.manager.scheduler.tasks.length < 2 ^ 32
  | dispatchOnce saved => saved.isInitialized = true
  | yieldCurrent saved => saved.isInitialized = true
  | timer snapshot => snapshot.returnState.isKernel = true
  | _ => True

/-- The timer can take the snapshot, and it finds the task that has the CPU at the head of the ready queue once it has
woken the sleepers. -/
def FindsOwner (w : KernelWorld) (snapshot : InterruptedState) : Prop :=
  w.cpu.interrupted = none ∧ snapshot.isValid = true ∧ ∃ task ∈ w.owner, ∃ b ∈ w.runtime.manager.executions.get task,
    w.runtime.FindsTask (w.cpu.timerTicks + 1) task b

instance (w : KernelWorld) (snapshot : InterruptedState) : Decidable (FindsOwner w snapshot) :=
  inferInstanceAs (Decidable (_ ∧ _ ∧ _))

/-- When the head of the ready queue can be switched to, the thread that leaves through `dispatch_once` is the
current task of the scheduler, or the boot thread while there is none; and the timer does not find the very task that
it interrupts at the head of the ready queue.  A task that has gone to sleep, and has not been given the CPU since,
can break both. -/
def Proper (w : KernelWorld) : Op → Prop
  | dispatchOnce _ => w.runtime.manager.HeadSwitchable → w.owner = w.runtime.manager.scheduler.current
  | yieldCurrent _ => w.runtime.manager.HeadSwitchable → w.owner = w.runtime.manager.scheduler.current
  | timer snapshot => ¬ FindsOwner w snapshot
  | _ => True

instance (w : KernelWorld) (op : Op) : Decidable (op.Enabled w) := by
  cases op <;> unfold Enabled <;> infer_instance

instance (w : KernelWorld) (op : Op) : Decidable (op.Proper w) := by
  cases op <;> unfold Proper <;> infer_instance

end Op

/-- The runs from boot whose operations are all allowed, with the continuations that threads have left with and were
given. -/
inductive Run (allowed : KernelWorld → Op → Prop) : List KernelEvent → KernelWorld → Prop where
  | boot (stackTop : U64) : Run allowed [] (boot stackTop)
  | step {trace : List KernelEvent} {w : KernelWorld} (h : Run allowed trace w) (op : Op) (hallowed : allowed w op) :
      Run allowed (trace ++ (op.perform w).1) (op.perform w).2

/-! ### The invariant -/

def custody (w : KernelWorld) : Custody (Option TaskId) KernelContinuation := ⟨w.owner, w.runtime.stored⟩

/-- The scheduler and the CPU know who has the CPU.  A snapshot that a failed preemption has left behind for that task
does no harm, since the head of the ready queue blocks every dispatch from then on. -/
structure Consistent (w : KernelWorld) : Prop where
  equipped : w.runtime.manager.Equipped
  currentTask : w.cpu.currentTask = w.owner
  owner : ∀ task, w.owner = some task → ∃ b, w.runtime.manager.executions.get task = some b
  current : ∀ task, w.runtime.manager.scheduler.current = some task → w.owner = some task
  stale : ∀ task b, w.owner = some task → w.runtime.manager.executions.get task = some b → b.interrupted ≠ none →
    w.runtime.manager.Jammed
  frames : ∀ task saved previous, w.frames (some task) = some (saved, previous) → previous = some task

private theorem boot_consistent (stackTop : U64) : (boot stackTop).Consistent where
  equipped := KernelTaskManager.new_equipped
  currentTask := rfl
  owner := by rintro task ⟨⟩
  current := by rintro task ⟨⟩
  stale := by rintro task b ⟨⟩
  frames := by rintro task saved previous ⟨⟩

/-- What an operation does: the thread on the CPU stays there, or the CPU goes to another one. -/
inductive Effect (w : KernelWorld) : List KernelEvent → KernelWorld → Prop where
  | stays {w' : KernelWorld} (howner : w'.owner = w.owner) (hboot : w'.runtime.bootContext = w.runtime.bootContext)
      (hstep : Custody.Step w.custody [] w'.custody) (hconsistent : w'.Consistent) : Effect w [] w'
  | switches {w' : KernelWorld} {next : TaskId} {k k' : KernelContinuation} (howner : w'.owner = some next)
      (hne : some next ≠ w.owner) (hnext : w.runtime.stored (some next) = some k')
      (hleft : w'.runtime.stored w.owner = some k)
      (hstored : ∀ t, t ≠ w.owner → t ≠ some next → w'.runtime.stored t = w.runtime.stored t)
      (hconsistent : w'.Consistent) : Effect w [.left w.owner k, .given (some next) k'] w'

variable {w : KernelWorld}

namespace Consistent

private theorem stays (hw : w.Consistent) {runtime : KernelRuntime} {cpu : Cpu} (hkept : Kept w.runtime runtime)
    (hcpu : cpu.currentTask = w.cpu.currentTask) : Effect w [] { w with runtime, cpu } := by
  refine .stays rfl hkept.bootContext (.keep rfl fun t _ => congrFun hkept.stored t) ?_
  constructor
  case equipped => exact hw.equipped.keeps hkept.scheduler hkept.executions
  case currentTask => exact hcpu.trans hw.currentTask
  case owner =>
    rw [hkept.executions]
    exact hw.owner
  case current => exact fun task htask => hw.current task (hkept.scheduler.current task htask).1
  case stale =>
    rw [hkept.executions]
    exact fun task b htask hget hb => (hw.stale task b htask hget hb).keeps hkept.scheduler hkept.executions
  case frames => exact hw.frames

/-- The task on the CPU has no snapshot stored unless no dispatch can succeed. -/
private theorem owner_clean (hw : w.Consistent) {next : TaskId} {b : X86ExecutionBinding}
    (hnext : w.runtime.manager.scheduler.nextReady = some next)
    (hget : w.runtime.manager.executions.get next = some b) (hvalid : b.validate = .ok ()) :
    ∀ task, w.owner = some task → ∃ b, w.runtime.manager.executions.get task = some b ∧ b.interrupted = none := by
  intro task htask
  obtain ⟨b₀, hget₀⟩ := hw.owner task htask
  refine ⟨b₀, hget₀, ?_⟩
  by_contra hstale
  obtain ⟨next', b', hnext', hget', hinvalid⟩ := hw.stale task b₀ htask hget₀ hstale
  rw [hnext, Option.some.injEq] at hnext'
  rw [← hnext', hget, Option.some.injEq] at hget'
  exact hinvalid (hget' ▸ hvalid)

end Consistent

private theorem goOn_currentTask {next : TaskId} (hcpu : w.cpu.currentTask = some next)
    (hframes : ∀ saved previous, w.frames (some next) = some (saved, previous) → previous = some next)
    (k : KernelContinuation) : (w.goOn next k).currentTask = some next := by
  cases k with
  | interrupted state => exact hcpu
  | context context =>
    rw [goOn]
    cases hframe : w.frames (some next) with
    | none => exact hcpu
    | some frame =>
      dsimp only
      split_ifs
      · exact hframes frame.1 frame.2 hframe
      · exact hcpu

/-- The CPU is given to the task that the scheduler has chosen. -/
private theorem give_consistent {next : TaskId} {b : X86ExecutionBinding} (hequipped : w.runtime.manager.Equipped)
    (hcurrent : w.runtime.manager.scheduler.current = some next) (hcpu : w.cpu.currentTask = some next)
    (hget : w.runtime.manager.executions.get next = some b) (hinterrupted : b.interrupted = none)
    (hframes : ∀ task saved previous, w.frames (some task) = some (saved, previous) → previous = some task)
    (k : KernelContinuation) : (w.give next k).Consistent where
  equipped := hequipped
  currentTask := goOn_currentTask hcpu (hframes next) k
  owner task htask := by
    cases htask
    exact ⟨b, hget⟩
  current task htask := hcurrent.symm.trans htask
  stale task b' htask hget' hstale := by
    cases htask
    rw [show w.runtime.manager.executions.get next = some b' from hget', Option.some.injEq] at hget
    exact absurd (hget ▸ hinterrupted) hstale
  frames := hframes

/-! ### Voluntary switches -/

private theorem dispatch_effect (hw : w.Consistent) {saved : Context} (hsaved : saved.isInitialized = true)
    (hproper : w.runtime.manager.HeadSwitchable → w.owner = w.runtime.manager.scheduler.current) :
    Effect w (w.leave saved (w.runtime.dispatchOnce w.cpu saved)).1
      (w.leave saved (w.runtime.dispatchOnce w.cpu saved)).2 := by
  rcases dispatchOnce_cases hw.equipped w.cpu saved with
    ⟨-, e, hresult⟩ | ⟨next, b, top, s, hnext, hget, hvalid, hinterrupted, hdispatched, hresult⟩
  · rw [hresult]
    exact hw.stays (.refl _) rfl
  · rw [hresult]
    have howner := hproper ⟨next, hnext, b, hget, hvalid, hinterrupted⟩
    have hne : some next ≠ w.owner := by
      rw [howner]
      exact Ne.symm (hw.equipped.settled.next_ne hnext)
    rw [← howner]
    have hstored := stored_saveContext (r := { w.runtime with manager.scheduler := s })
      (hw.owner_clean hnext hget hvalid) saved
    refine .switches rfl hne ?_ ?_ ?_ ?_
    · rw [stored, hget, Option.map_some, X86ExecutionBinding.continuation]
      simp only [hinterrupted]
    · exact (congrFun hstored w.owner).trans (Function.update_self ..)
    · exact fun t ht _ => (congrFun hstored t).trans (Function.update_of_ne ht ..)
    · refine give_consistent (saveContext_equipped hw.equipped hdispatched w.owner hsaved) ?_ rfl ?_ hinterrupted ?_ _
      · rw [scheduler_saveContext]
        exact hdispatched.current
      · rw [get_saveContext, if_neg (Ne.symm hne), hget]
      · intro task saved' previous hframe
        replace hframe : Function.update w.frames w.owner (some (saved, w.owner)) (some task) =
          some (saved', previous) :=
          hframe
        by_cases htask : some task = w.owner
        · rw [htask, Function.update_self, Option.some.injEq, Prod.mk.injEq] at hframe
          rw [← hframe.2, htask]
        · rw [Function.update_of_ne htask] at hframe
          exact hw.frames task saved' previous hframe

theorem Consistent.requestReschedule (hw : w.Consistent) :
    Consistent { w with runtime := w.runtime.requestReschedule } :=
  ⟨hw.equipped, hw.currentTask, hw.owner, hw.current, hw.stale, hw.frames⟩

/-- A request to reschedule does not count. -/
private theorem Effect.of_requestReschedule {events : List KernelEvent} {w' : KernelWorld}
    (h : Effect { w with runtime := w.runtime.requestReschedule } events w') : Effect w events w' := by
  have hstored : w.runtime.requestReschedule.stored = w.runtime.stored :=
    Kept.stored ⟨.refl _, rfl, rfl⟩
  cases h with
  | stays howner hboot hstep hconsistent =>
    rw [custody, hstored] at hstep
    exact .stays howner hboot hstep hconsistent
  | switches howner hne hnext hleft hothers hconsistent =>
    rw [hstored] at hnext hothers
    exact .switches howner hne hnext hleft hothers hconsistent

/-! ### Spawning -/

private theorem added_consistent (hw : w.Consistent) {m : KernelTaskManager} {id : TaskId}
    (h : KernelTaskManager.Added w.runtime.manager m id .kernel) :
    Consistent { w with runtime := { w.runtime with manager := m } } := by
  obtain ⟨b, hfresh, hget⟩ := h.executions
  have habsent := (h.absent hw.equipped).2
  -- the binding of an older task is the one that it had
  have hold : ∀ {task b'}, w.runtime.manager.executions.get task = some b' → m.executions.get task = some b' := by
    intro task b' hb'
    have hne : task ≠ id := by
      rintro rfl
      rw [habsent] at hb'
      cases hb'
    rw [hget, Function.update_of_ne hne, hb']
  constructor
  case equipped => exact h.equipped hw.equipped
  case currentTask => exact hw.currentTask
  case owner =>
    intro task htask
    obtain ⟨b', hb'⟩ := hw.owner task htask
    exact ⟨b', hold hb'⟩
  case current =>
    intro task htask
    exact hw.current task (h.current ▸ htask)
  case stale =>
    intro task b' htask hb' hstale
    obtain ⟨b₀, hb₀⟩ := hw.owner task htask
    obtain rfl : b₀ = b' := Option.some.inj ((hold hb₀).symm.trans hb')
    obtain ⟨next, b₁, hnext, hb₁, hvalid⟩ := hw.stale task b₀ htask hb₀ hstale
    refine ⟨next, b₁, ?_, hold hb₁, hvalid⟩
    show m.scheduler.ready.queue.head? = some next
    rw [h.ready, List.head?_append, show w.runtime.manager.scheduler.ready.queue.head? = some next from hnext,
      Option.some_or]
  case frames => exact hw.frames

private theorem spawn_effect (hw : w.Consistent) (hfits : w.runtime.manager.scheduler.tasks.length < 2 ^ 32)
    (priority : Priority) (placement : Option Placement) :
    Effect w [] { w with runtime := (w.runtime.spawn priority placement).1 } := by
  obtain ⟨m, id, ⟨e, hspawn, h⟩ | ⟨hspawn, h⟩⟩ := KernelTaskManager.spawn_cases hw.equipped.settled.numbered
    hw.equipped.settled.sound hfits priority placement
  · rw [KernelRuntime.spawn, hspawn]
    exact hw.stays ⟨h.keeps, h.executions, rfl⟩ rfl
  · rw [KernelRuntime.spawn, hspawn]
    obtain ⟨b, -, hget⟩ := h.executions
    refine .stays rfl rfl (.add (some id) b.continuation rfl ?_ ?_) (added_consistent hw h)
    · show (w.runtime.manager.executions.get id).map _ = none
      rw [(h.absent hw.equipped).2, Option.map_none]
    · funext t
      by_cases ht : t = some id
      · rw [ht, Function.update_self]
        show (m.executions.get id).map _ = _
        rw [hget, Function.update_self, Option.map_some]
      · rw [Function.update_of_ne ht]
        refine stored_congr (r := w.runtime) ?_ fun task htask => ?_
        · rfl
        · show m.executions.get task = _
          rw [hget, Function.update_of_ne fun heq => ht (htask.trans (congrArg some heq))]

/-! ### The timer -/

private theorem timer_effect (hw : w.Consistent) {snapshot : InterruptedState}
    (hkernel : snapshot.returnState.isKernel = true)
    (hproper : ¬ Op.FindsOwner w snapshot) : Effect w (w.timerEntry snapshot).1 (w.timerEntry snapshot).2 := by
  unfold timerEntry
  rcases w.cpu.captureInterrupted_cases snapshot with ⟨-, e, hcapture⟩ | ⟨task, htask, hslot, hvalid, hcapture⟩
  · rw [hcapture]
    exact hw.stays (.refl _) rfl
  · have howner : w.owner = some task := hw.currentTask.symm.trans htask
    obtain ⟨b, hget⟩ := hw.owner task howner
    have hsnapshot : ({ b with interrupted := some snapshot } : X86ExecutionBinding).Usable := by
      refine ⟨(hw.equipped.usable task b hget).initialized, fun state hstate => ?_⟩
      cases hstate
      exact InterruptedState.kernelIretWords_of_isValid hvalid hkernel
    obtain ⟨r, cpu, next, result, hhandle, hcpu, heffect⟩ := handleTimerPreemption_effect
      (Cpu.recordTimerInterrupt { w.cpu with interrupted := some (task, snapshot) }) htask rfl hvalid hget hw.equipped
    simp only [hcapture, hhandle, hcpu]
    generalize result.toOption.bind InterruptPreemption.continuation = given at heffect ⊢
    cases heffect with
    | resumed _ hkept => exact hw.stays hkept (hcpu.trans htask.symm)
    -- the snapshot is stored for a task that goes on; what is stored for the owner has no meaning
    | jammed _ hkept hscheduler hbootContext hexecutions hjammed =>
      refine .stays rfl hbootContext (.keep rfl fun t ht => stored_congr hbootContext fun id hid => ?_) ?_
      · have hne : id ≠ task := fun heq => ht (by rw [hid, heq]; exact howner.symm)
        rw [hexecutions, Function.update_of_ne hne]
      · constructor
        case equipped =>
          refine hw.equipped.replace (hscheduler ▸ hkept.scheduler.settled hw.equipped.settled)
            (hscheduler ▸ hkept.scheduler.kind) ?_
          rw [hexecutions]
          exact hw.equipped.exchanged.update hget hsnapshot
        case currentTask => exact hcpu.trans howner.symm
        case owner =>
          intro task' htask'
          obtain rfl : task = task' := Option.some.inj (howner.symm.trans htask')
          exact ⟨_, by rw [hexecutions, Function.update_self]⟩
        case current =>
          intro task' htask'
          exact hw.current task' (hkept.scheduler.current task' (hscheduler ▸ htask')).1
        case stale => exact fun _ _ _ _ _ => hjammed
        case frames => exact hw.frames
    | @preempted r₁ _ _ b' hkept hdepth hhead hinterrupted hget' hchecked hdispatched hbootContext hexecutions =>
      have hne : next ≠ task := by
        rintro rfl
        obtain rfl : b = b' := Option.some.inj (hget.symm.trans hget')
        exact hproper ⟨hslot, hvalid, next, howner, b, hget, hdepth, hhead, hinterrupted, hchecked⟩
      replace hexecutions := hexecutions hne
      refine .switches rfl (fun heq => hne (Option.some.inj (heq.trans howner))) ?_ ?_ ?_ ?_
      · rw [stored, hget', Option.map_some]
      · show r.stored w.owner = some (.interrupted snapshot)
        rw [howner, stored, hexecutions, Function.update_of_ne (Ne.symm hne), Function.update_self, Option.map_some,
          X86ExecutionBinding.continuation]
      · intro t htask' hnext
        refine stored_congr hbootContext fun id hid => ?_
        rw [hid] at htask' hnext
        rw [hexecutions, Function.update_of_ne (fun heq => hnext (congrArg some heq)),
          Function.update_of_ne (fun heq => htask' (by rw [heq, howner]))]
      · have hb' := hw.equipped.usable next b' hget'
        have hgiven : r.manager.executions.get next = some { b' with interrupted := none } := by
          rw [hexecutions, Function.update_self]
        refine give_consistent (w := { w with runtime := r, cpu }) ?_ hdispatched.current hcpu hgiven rfl hw.frames _
        refine hw.equipped.replace hdispatched.settled (hdispatched.kind.trans hkept.scheduler.kind) ?_
        rw [hexecutions]
        exact (hw.equipped.exchanged.update hget hsnapshot).update hget' ⟨hb'.initialized, fun _ h => by cases h⟩

/-! ### Runs -/

private theorem Op.perform_effect (hw : w.Consistent) (op : Op) (henabled : op.Enabled w) (hproper : op.Proper w) :
    Effect w (op.perform w).1 (op.perform w).2 := by
  cases op with
  | spawn priority placement => exact spawn_effect hw henabled priority placement
  | dispatchOnce saved => exact dispatch_effect hw henabled hproper
  | yieldCurrent saved =>
    exact (dispatch_effect hw.requestReschedule henabled hproper).of_requestReschedule
  | sleepCurrentUntil deadline => exact hw.stays (w.runtime.sleepCurrentUntil_kept deadline) rfl
  | expireSleepers now => exact hw.stays (w.runtime.expireSleepers_kept now) rfl
  | serviceTimer now => exact hw.stays (w.runtime.serviceTimer_kept now) rfl
  | timer snapshot => exact timer_effect hw henabled hproper

private theorem Effect.step {events : List KernelEvent} {w' : KernelWorld} (h : Effect w events w') :
    Custody.Step w.custody events w'.custody := by
  cases h with
  | stays _ _ hstep _ => exact hstep
  | @switches _ next k k' howner hne hnext hleft hstored _ =>
    have howner' : w'.custody.owner = some next := howner
    have hhandover : Custody.Step w.custody [.left w.owner k, .given w'.custody.owner k'] w'.custody :=
      .handover k k' (howner'.symm ▸ hne) (howner'.symm ▸ hnext) hleft (howner'.symm ▸ hstored)
    rwa [howner'] at hhandover

private theorem Effect.consistent {events : List KernelEvent} {w' : KernelWorld} (h : Effect w events w') :
    w'.Consistent := by
  cases h with
  | stays _ _ _ hconsistent => exact hconsistent
  | switches _ _ _ _ _ hconsistent => exact hconsistent

/-- The place of the boot thread is empty until the boot thread leaves, and holds its continuation from then on. -/
def BootKept (trace : List KernelEvent) (w : KernelWorld) : Prop :=
  (Custody.lastLeft trace none = none ∧ w.runtime.bootContext = .empty) ∨
  Custody.lastLeft trace none = some (.context w.runtime.bootContext)

instance (trace : List KernelEvent) (w : KernelWorld) : Decidable (BootKept trace w) := by
  unfold BootKept
  infer_instance

/-- The boot thread has the CPU exactly until it leaves. -/
def BootFirst (trace : List KernelEvent) (w : KernelWorld) : Prop :=
  (w.owner = none ∧ Custody.lastLeft trace none = none ∧ w.runtime.bootContext = .empty) ∨
  (w.owner ≠ none ∧ Custody.lastLeft trace none = some (.context w.runtime.bootContext))

theorem BootFirst.bootKept {trace : List KernelEvent} (h : BootFirst trace w) : BootKept trace w :=
  h.imp And.right And.right

private theorem Effect.bootFirst {trace events : List KernelEvent} {w' : KernelWorld} (h : Effect w events w')
    (hw : BootFirst trace w) : BootFirst (trace ++ events) w' := by
  cases h with
  | stays howner hboot _ _ =>
    rw [List.append_nil, BootFirst, howner, hboot]
    exact hw
  | @switches _ next k k' howner hne hnext hleft hstored _ =>
    refine .inr ⟨by rw [howner]; exact Option.some_ne_none next, ?_⟩
    rw [List.append_cons, Custody.lastLeft_given]
    rcases hw with ⟨hboot, -, -⟩ | ⟨hboot, hlast⟩
    · rw [hboot] at hleft ⊢
      rw [Custody.lastLeft_left, ← hleft, stored]
    · have hkept := hstored none (Ne.symm hboot) (Option.some_ne_none next).symm
      rw [Custody.lastLeft_left_of_ne _ hboot, hlast]
      exact hkept.symm

theorem Run.invariant {trace : List KernelEvent} (h : Run (fun w op => op.Enabled w ∧ op.Proper w) trace w) :
    w.Consistent ∧ Custody.Kept trace w.custody ∧ BootFirst trace w := by
  induction h with
  | boot stackTop => exact ⟨boot_consistent stackTop, .initial _, .inl ⟨rfl, rfl, rfl⟩⟩
  | step h op hallowed ih =>
    obtain ⟨hconsistent, hkept, hboot⟩ := ih
    have heffect := op.perform_effect hconsistent hallowed.1 hallowed.2
    exact ⟨heffect.consistent, heffect.step.kept hkept, heffect.bootFirst hboot⟩

end KernelWorld

end X11Os
