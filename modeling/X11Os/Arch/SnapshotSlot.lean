import X11Os.Arch.TimerEntry

/-!
# The slot of the interrupted task

The slot into which the timer entry captures the interrupted task has to be empty again when the entry is done, and
the snapshot stored for the task if and only if the task has lost the CPU.  While a userspace task has the CPU this
holds in every state.  The kernel runtime breaks it on some of its ways out: with a userspace task at the head of the
ready queue the snapshot stays in the slot, and when the head cannot be dispatched the snapshot is stored for a task
that goes on.  From then on no interrupt is captured, or none preempts.
-/

namespace X11Os

open Word Amd64 Exec

/-! ### The discipline -/

namespace CpuLocal

/-- What is stored for a task in its execution. -/
def interruptedOf (l : CpuLocal) (task : TaskId) : Option InterruptedState := l.runtimePtr.bind (·.interruptedOf task)

/-- What is stored for a task in its userspace binding. -/
def resumeOf (l : CpuLocal) (task : TaskId) : Option InterruptedState :=
  ((l.system.map (·.userspace)).bind (·.get task)).bind (·.resume)

/-- The snapshot has been stored for the task. -/
def StoredFor (l l' : CpuLocal) (task : TaskId) (snapshot : InterruptedState) : Prop :=
  Stores (l.interruptedOf task) (l'.interruptedOf task) snapshot ∨
  Stores (l.resumeOf task) (l'.resumeOf task) snapshot

/-- The snapshot of `task` is gone from the slot, and it is stored if and only if `task` has been
switched away from. -/
structure HandedOn (l l' : CpuLocal) (task : TaskId) (snapshot : InterruptedState) : Prop where
  slot : l'.cpu.interrupted = none
  stored : l.StoredFor l' task snapshot ↔ l'.cpu.currentTask ≠ some task

/-- What an interrupt of `task` has to leave: an empty slot, and the snapshot stored if and only if `task` has been
switched away from. -/
structure Disciplined (a : TimerArgs) (task : TaskId) (l l' : CpuLocal) : Prop where
  slot : l'.cpu.interrupted = none
  stored : (∃ snapshot, a.snapshot = .returned snapshot ∧ l.StoredFor l' task snapshot) ↔
    l'.cpu.currentTask ≠ some task

/-- Nothing is captured, or a userspace task has the CPU, or the kernel runtime that is bound disposes of
the snapshot. -/
def Settles (a : TimerArgs) (l : CpuLocal) (task : TaskId) : Prop :=
  ∀ snapshot, a.snapshot = .returned snapshot → snapshot.isValid = true → l.userSystem = none →
    ∃ r, l.runtimePtr = some r ∧ r.Settles (l.cpu.timerTicks + 1) task

/-- The state in which the entry hands the snapshot on. -/
def capture (l : CpuLocal) (task : TaskId) (snapshot : InterruptedState) : CpuLocal :=
  { l with cpu := { l.cpu with interrupted := some (task, snapshot) }.recordTimerInterrupt }

end CpuLocal

/-- A snapshot has found its place taken: the slot when it was captured, or the execution of its task when it was
to be stored. -/
def TimerExit.Blocked (exit : TimerExit) : Prop :=
  exit = .notCaptured .alreadyPending ∨
  exit = .preemption (.error (.interruptedState .interruptedStateAlreadyPresent))

private theorem not_stores_self {x : Option InterruptedState} {snapshot : InterruptedState} :
    ¬ Stores x x snapshot := by
  rintro ⟨hempty, hstored⟩
  rw [hempty] at hstored
  cases hstored

open CpuLocal

section Entry

variable {a : TimerArgs} {l : CpuLocal} {task : TaskId} {snapshot : InterruptedState}

/-- An interrupt of `task` is captured, or the entry returns with the slot empty. -/
theorem timerEntryRust_cases (a : TimerArgs) (hslot : l.cpu.interrupted = none)
    (hcpu : l.cpu.currentTask = some task) :
    (∃ cpu exit, timerEntryRust a l = .returned ({ l with cpu }, exit) ∧
      (exit = .noResumeRsp ∨ exit = .notCaptured .invalidState) ∧ cpu.interrupted = none ∧
      cpu.currentTask = some task ∧ ∀ snapshot, a.snapshot = .returned snapshot → snapshot.isValid = false) ∨
    ∃ snapshot, a.snapshot = .returned snapshot ∧ snapshot.isValid = true ∧ timerEntryRust a l =
      match l.userSystem with
      | some system => (l.capture task snapshot).timerUser system
      | none => .returned (l.capture task snapshot).timerKernel := by
  unfold timerEntryRust
  cases hresume : InterruptReturnFrame.resumeRsp a.memory a.returnFrame with
  | none =>
    refine .inl ⟨l.cpu, _, rfl, .inl rfl, hslot, hcpu, fun snapshot h => ?_⟩
    simp [TimerArgs.snapshot, InterruptedState.capture, ReturnState.capture, hresume] at h
  | some resumeRsp =>
    obtain ⟨snapshot, hsnapshot⟩ : ∃ snapshot, a.snapshot = .returned snapshot := by
      simp [TimerArgs.snapshot, InterruptedState.capture, ReturnState.capture, hresume]
    simp only [hsnapshot, Panics.bind_returned]
    by_cases hvalid : snapshot.isValid = true
    · have hcapture : l.cpu.captureInterrupted snapshot =
          ({ l.cpu with interrupted := some (task, snapshot) }, .ok task) := by
        simp [Cpu.captureInterrupted, hcpu, hslot, hvalid]
      rw [hcapture]
      exact .inr ⟨snapshot, rfl, hvalid, rfl⟩
    · have hcapture : l.cpu.captureInterrupted snapshot = (l.cpu, .error .invalidState) := by
        simp [Cpu.captureInterrupted, hcpu, hslot, hvalid]
      rw [hcapture]
      refine .inl ⟨_, _, rfl, .inr rfl, hslot, hcpu, fun snapshot' h => ?_⟩
      cases h
      exact Bool.not_eq_true _ ▸ hvalid

/-! ### A userspace task has the CPU -/

private theorem system_of_userSystem {system : SystemRuntime} (h : l.userSystem = some system) :
    l.system = some system :=
  (Option.filter_eq_some_iff.mp h).1

/-- Nothing is stored while the system runtime stays as it is. -/
private theorem not_storedFor_discard {system : SystemRuntime} (hsystem : l.system = some system) (cpu : Cpu) :
    ¬ l.StoredFor (l.discard ⟨system, cpu⟩) task snapshot := by
  have hsame : l.discard ⟨system, cpu⟩ = { l with cpu := { cpu with interrupted := none } } := by
    rw [CpuLocal.discard, ← hsystem]
  rw [hsame]
  exact not_or.mpr ⟨not_stores_self, not_stores_self⟩

private theorem timerUser_handedOn {system : SystemRuntime} (hsystem : l.system = some system)
    (hcpu : l.cpu.currentTask = some task) (hcaptured : l.cpu.interrupted = some (task, snapshot)) {l' : CpuLocal}
    {exit : TimerExit} (h : l.timerUser system = .returned (l', exit)) : l.HandedOn l' task snapshot ∧
    ¬ exit.Blocked := by
  have hreturned : l.HandedOn (l.discard ⟨system, l.cpu.takeSyscallAction.1⟩) task snapshot ∧
      ¬ TimerExit.userReturned.Blocked := by
    refine ⟨⟨rfl, fun hstored => ?_, fun hother => absurd hcpu hother⟩, by rintro (h | h) <;> cases h⟩
    exact absurd hstored (not_storedFor_discard hsystem _)
  unfold timerUser at h
  dsimp only at h
  split at h
  · have hcaptured' : l.cpu.takeSyscallAction.1.interrupted = some (task, snapshot) := hcaptured
    rw [hcaptured'] at h
    rcases System.commitUserspaceYieldWithSnapshot_stores ⟨system, l.cpu.takeSyscallAction.1⟩ task snapshot with
      ⟨e, hfails⟩ | ⟨transfer, s', hruns, ⟨rfl, rfl⟩ | ⟨t, rfl, hout⟩⟩
    · rw [hfails] at h
      cases h
      exact hreturned
    · rw [hruns] at h
      cases h
      exact hreturned
    · rw [hruns] at h
      simp only [Panics.bind_returned, executeUserTransfer, hout.accepted] at h
      cases h
      obtain ⟨next, hnext, hother⟩ := hout.switched
      obtain ⟨u, hu, hempty⟩ := hout.empty
      obtain ⟨u', hu', hstored⟩ := hout.stored
      -- the yield has found a successor, so the snapshot is the resume state of the task now
      refine ⟨⟨rfl, fun _ => ?_, fun _ => .inr ⟨?_, ?_⟩⟩, by rintro (h | h) <;> cases h⟩
      · show s'.cpu.currentTask ≠ some task
        rw [hnext]
        exact fun heq => hother (Option.some.inj heq)
      · rw [resumeOf, hsystem, Option.map_some, Option.bind_some, hu, Option.bind_some, hempty]
      · show ((some s'.userspace).bind (·.get task)).bind (·.resume) = some snapshot
        rw [Option.bind_some, hu', Option.bind_some, hstored]
  · cases h
    exact hreturned
  · cases h
    exact hreturned
  · cases h

/-! ### The kernel runtime has the snapshot -/

private theorem KernelRuntime.Disposes.orderly_iff {before after : Option InterruptedState} {cpu : Cpu}
    {disposal : KernelRuntime.Disposal} (h : KernelRuntime.Disposes task snapshot before after cpu disposal) :
    disposal.orderly = true ↔
      cpu.interrupted = none ∧ (Stores before after snapshot ↔ cpu.currentTask ≠ some task) := by
  cases h with
  | discarded hslot hcpu hkept =>
    rw [hkept]
    exact ⟨fun _ => ⟨hslot, fun hstores => absurd hstores not_stores_self, fun hother => absurd hcpu hother⟩,
      fun _ => rfl⟩
  | pending hslot =>
    rw [hslot]
    exact ⟨fun h => (by cases h), fun h => (by cases h.1)⟩
  | stored hslot hcpu hstores => exact ⟨fun h => (by cases h), fun h => absurd hcpu (h.2.mp hstores)⟩
  | switched hslot hcpu hstores => exact ⟨fun _ => ⟨hslot, fun _ => hcpu, fun _ => hstores⟩, fun _ => rfl⟩

private theorem timerKernel_handedOn_iff (hcpu : l.cpu.currentTask = some task)
    (hcaptured : l.cpu.interrupted = some (task, snapshot)) (hvalid : snapshot.isValid = true) :
    (l.HandedOn l.timerKernel.1 task snapshot ↔ ∃ r, l.runtimePtr = some r ∧ r.Settles l.cpu.timerTicks task) ∧
      (l.timerKernel.1.cpu.interrupted = none → ¬ l.timerKernel.2.Blocked) := by
  unfold timerKernel
  cases hr : l.runtimePtr with
  | none =>
    dsimp only
    rw [hcaptured]
    refine ⟨⟨fun h => ?_, fun ⟨r, h, _⟩ => by cases h⟩, fun h => by cases h⟩
    rw [h.slot] at hcaptured
    cases hcaptured
  | some r =>
    obtain ⟨disposal, r', cpu', result, hhandle, hdisposes, horderly, hpresent⟩ :=
      KernelRuntime.handleTimerPreemption_disposes l.cpu hcpu hcaptured hvalid r
    simp only [hhandle]
    have hbefore : l.interruptedOf task = r.interruptedOf task := by rw [interruptedOf, hr, Option.bind_some]
    have hafter : ({ l.setRuntime r' with cpu := cpu' } : CpuLocal).interruptedOf task = r'.interruptedOf task := by
      rw [interruptedOf, runtimePtr_setRuntime hr, Option.bind_some]
    have hresume : ({ l.setRuntime r' with cpu := cpu' } : CpuLocal).resumeOf task = l.resumeOf task := by
      show (((l.setRuntime r').system.map (·.userspace)).bind (·.get task)).bind (·.resume) = _
      rw [userspace_setRuntime]
      rfl
    -- the kernel runtime stores in its own executions only
    have hstored : l.StoredFor { l.setRuntime r' with cpu := cpu' } task snapshot ↔
        Stores (r.interruptedOf task) (r'.interruptedOf task) snapshot := by
      rw [StoredFor, hbefore, hafter, hresume]
      exact or_iff_left not_stores_self
    refine ⟨⟨fun h => ⟨r, rfl, ?_⟩, ?_⟩, ?_⟩
    · exact horderly.mp (hdisposes.orderly_iff.mpr ⟨h.slot, hstored.symm.trans h.stored⟩)
    · rintro ⟨_, ⟨⟩, hsettles⟩
      obtain ⟨hslot, hiff⟩ := hdisposes.orderly_iff.mp (horderly.mpr hsettles)
      exact ⟨hslot, hstored.trans hiff⟩
    · rintro hslot (h | h)
      · cases h
      · obtain rfl := hpresent (TimerExit.preemption.inj h)
        obtain _ | hpending := hdisposes
        rw [show cpu'.interrupted = none from hslot] at hpending
        cases hpending

/-! ### One interrupt -/

private theorem disciplined_iff {l' : CpuLocal} (hsnapshot : a.snapshot = .returned snapshot) :
    Disciplined a task l l' ↔ (l.capture task snapshot).HandedOn l' task snapshot := by
  have hstored : (∃ snapshot, a.snapshot = .returned snapshot ∧ l.StoredFor l' task snapshot) ↔
      (l.capture task snapshot).StoredFor l' task snapshot := by
    simp only [hsnapshot, Panics.returned.injEq, exists_eq_left']
    rfl
  exact ⟨fun h => ⟨h.slot, hstored.symm.trans h.stored⟩, fun h => ⟨h.slot, hstored.trans h.stored⟩⟩

/-- The entry is disciplined exactly if the snapshot is captured in a state that settles it. -/
private theorem timerEntryRust_disciplined (a : TimerArgs) (hslot : l.cpu.interrupted = none)
    (hcpu : l.cpu.currentTask = some task) :
    (∀ l' exit, timerEntryRust a l = .returned (l', exit) → Disciplined a task l l') ↔ l.Settles a task := by
  rcases timerEntryRust_cases a hslot hcpu with
    ⟨cpu, exit, hentry, -, hslot', hcpu', hinvalid⟩ | ⟨snapshot, hsnapshot, hvalid, hentry⟩
  · rw [hentry]
    refine ⟨fun _ snapshot hsnapshot hvalid => ?_, fun _ l' exit' h => ?_⟩
    · rw [hinvalid snapshot hsnapshot] at hvalid
      cases hvalid
    · cases h
      refine ⟨hslot', ?_, fun hother => absurd hcpu' hother⟩
      rintro ⟨snapshot, -, hstored⟩
      exact absurd hstored (not_or.mpr ⟨not_stores_self, not_stores_self⟩)
  · rw [hentry]
    cases huser : l.userSystem with
    | some system =>
      refine ⟨fun _ _ _ _ h => ?_, fun _ l' exit h => (disciplined_iff hsnapshot).mpr ?_⟩
      · rw [huser] at h
        cases h
      · exact (timerUser_handedOn (l := l.capture task snapshot) (system_of_userSystem huser) hcpu rfl h).1
    | none =>
      have hiff := (timerKernel_handedOn_iff (l := l.capture task snapshot) hcpu rfl hvalid).1
      constructor
      · intro h _ _ _ _
        exact hiff.mp ((disciplined_iff hsnapshot).mp (h (l.capture task snapshot).timerKernel.1 _ rfl))
      · intro h l' exit hexit
        obtain rfl : (l.capture task snapshot).timerKernel.1 = l' := congrArg Prod.fst (Panics.returned.inj hexit)
        exact (disciplined_iff hsnapshot).mpr (hiff.mpr (h snapshot hsnapshot hvalid huser))

/-- A snapshot that is settled does not find its place taken. -/
private theorem not_blocked_of_settles (hslot : l.cpu.interrupted = none) (hcpu : l.cpu.currentTask = some task)
    (hsettles : l.Settles a task) {l' : CpuLocal} {exit : TimerExit}
    (h : timerEntryRust a l = .returned (l', exit)) : ¬ exit.Blocked := by
  rcases timerEntryRust_cases a hslot hcpu with
    ⟨cpu, exit', hentry, hexit, -⟩ | ⟨snapshot, hsnapshot, hvalid, hentry⟩
  · rw [hentry] at h
    cases h
    rcases hexit with rfl | rfl <;> rintro (h | h) <;> cases h
  · have hdisciplined := (timerEntryRust_disciplined a hslot hcpu).mpr hsettles l' exit h
    rw [hentry] at h
    cases huser : l.userSystem with
    | some system =>
      rw [huser] at h
      exact (timerUser_handedOn (l := l.capture task snapshot) (system_of_userSystem huser) hcpu rfl h).2
    | none =>
      rw [huser] at h
      obtain ⟨rfl, rfl⟩ : (l.capture task snapshot).timerKernel.1 = l' ∧
        (l.capture task snapshot).timerKernel.2 = exit :=
        Prod.ext_iff.mp (Panics.returned.inj h)
      exact (timerKernel_handedOn_iff (l := l.capture task snapshot) hcpu rfl hvalid).2 hdisciplined.slot

end Entry

/-! ### Sequences of interrupts -/

/-- The timer interrupts a CPU again and again, and its entry leaves through these exits.  What happens in between is
not restricted but for the slot, which only the entry fills. -/
inductive TimerRun (allowed : TimerArgs → CpuLocal → Prop) : CpuLocal → List TimerExit → Prop where
  | nil (l : CpuLocal) : TimerRun allowed l []
  | tick {l l' l'' : CpuLocal} {exit : TimerExit} {exits : List TimerExit} (a : TimerArgs) (hallowed : allowed a l)
      (hentry : timerEntryRust a l = .returned (l', exit))
      (hbetween : l'.cpu.interrupted = none → l''.cpu.interrupted = none) (hrest : TimerRun allowed l'' exits) :
      TimerRun allowed l (exit :: exits)

/-- Whichever task is interrupted, its snapshot is settled. -/
def Settling (a : TimerArgs) (l : CpuLocal) : Prop := ∀ task, l.cpu.currentTask = some task → l.Settles a task

/-- When the CPU refuses every capture, the slot stays as it is. -/
theorem timerEntryRust_of_refused {a : TimerArgs} {l l' : CpuLocal} {exit : TimerExit} {error : Cpu.CaptureError}
    (hcapture : ∀ snapshot, l.cpu.captureInterrupted snapshot = (l.cpu, .error error))
    (h : timerEntryRust a l = .returned (l', exit)) :
    l'.cpu.interrupted = l.cpu.interrupted ∧ (exit = .noResumeRsp ∨ exit = .notCaptured error) := by
  unfold timerEntryRust at h
  split at h
  · cases h
    exact ⟨rfl, .inl rfl⟩
  · simp only [hcapture] at h
    cases hsnapshot : a.snapshot with
    | panicked =>
      rw [hsnapshot] at h
      cases h
    | returned snapshot =>
      rw [hsnapshot] at h
      cases h
      exact ⟨rfl, .inr rfl⟩

/-- Without a current task nothing is captured. -/
private theorem timerEntryRust_of_no_task {a : TimerArgs} {l l' : CpuLocal} {exit : TimerExit}
    (hcpu : l.cpu.currentTask = none) (h : timerEntryRust a l = .returned (l', exit)) :
    l'.cpu.interrupted = l.cpu.interrupted ∧ ¬ exit.Blocked := by
  have hcapture : ∀ snapshot, l.cpu.captureInterrupted snapshot = (l.cpu, .error .noCurrentTask) := by
    simp [Cpu.captureInterrupted, hcpu]
  obtain ⟨hsame, hexit⟩ := timerEntryRust_of_refused hcapture h
  refine ⟨hsame, ?_⟩
  rcases hexit with rfl | rfl <;> rintro (h | h) <;> cases h

private theorem Settling.step {a : TimerArgs} {l l' : CpuLocal} {exit : TimerExit} (hsettling : Settling a l)
    (hslot : l.cpu.interrupted = none) (h : timerEntryRust a l = .returned (l', exit)) :
    l'.cpu.interrupted = none ∧ ¬ exit.Blocked := by
  cases hcpu : l.cpu.currentTask with
  | none =>
    obtain ⟨hsame, hblocked⟩ := timerEntryRust_of_no_task hcpu h
    exact ⟨hsame.trans hslot, hblocked⟩
  | some task =>
    have hsettles := hsettling task hcpu
    exact ⟨((timerEntryRust_disciplined a hslot hcpu).mpr hsettles l' exit h).slot,
      not_blocked_of_settles hslot hcpu hsettles h⟩

private theorem TimerRun.not_blocked {l : CpuLocal} {exits : List TimerExit} (h : TimerRun Settling l exits)
    (hslot : l.cpu.interrupted = none) : ∀ exit ∈ exits, ¬ exit.Blocked := by
  induction h with
  | nil => exact fun exit hmem => by cases hmem
  | tick a hallowed hentry hbetween hrest ih =>
    obtain ⟨hslot', hblocked⟩ := hallowed.step hslot hentry
    exact List.forall_mem_cons.mpr ⟨hblocked, ih (hbetween hslot')⟩

/-- An interrupt of a task that is taken with an empty slot leaves the slot empty, and stores the snapshot if and only
if the task is switched away from, exactly if the snapshot is settled.  In a sequence of interrupts that are all
settled no snapshot finds the slot pending or the execution of its task taken. -/
theorem timer_slot_disciplined_iff (a : TimerArgs) (l : CpuLocal) (hslot : l.cpu.interrupted = none) :
    (∀ task, l.cpu.currentTask = some task →
      ((∀ l' exit, timerEntryRust a l = .returned (l', exit) → Disciplined a task l l') ↔ l.Settles a task)) ∧
    ∀ exits, TimerRun Settling l exits → ∀ exit ∈ exits, exit ≠ .notCaptured .alreadyPending ∧
      exit ≠ .preemption (.error (.interruptedState .interruptedStateAlreadyPresent)) := by
  refine ⟨fun task hcpu => timerEntryRust_disciplined a hslot hcpu, fun exits hrun exit hmem => ?_⟩
  exact not_or.mp (hrun.not_blocked hslot exit hmem)

/-! ### A kernel task is interrupted -/

namespace TimerSample

/-- The timer finds kernel code at `rip`. -/
def args (rip : U64) : TimerArgs := ⟨writeWords (fun _ => 0) 0x7000 [rip, 8, 0x202], 0x6000, 0x7000⟩

/-- A system runtime is bound, and its kernel runtime has dispatched a kernel task. -/
def running : CpuLocal :=
  let s := (SystemRuntime.new.spawnKernel .default (some ⟨0x100000, 0x9000, 0x8000, Placement.sample_ne_zero⟩)).1
  let (runtime, cpu, _) := s.runtime.dispatchOnce (.new 0) { Context.empty with rsp := 0x7f00, rip := 0x8100 }
  ⟨cpu, some { s with runtime }, .owned⟩

/-- The task on the CPU performs an operation of the system. -/
def perform (l : CpuLocal) (op : System.Op) : CpuLocal :=
  match l.system with
  | none => l
  | some s =>
    match op.perform ⟨s, l.cpu⟩ with
    | .panicked => l
    | .returned (s, _) => { l with system := some s.toSystemRuntime, cpu := s.cpu }

def check (r : Panics (CpuLocal × TimerExit)) (φ : CpuLocal → TimerExit → Prop) [∀ l exit, Decidable (φ l exit)] :
    Bool :=
  match r with
  | .panicked => false
  | .returned (l, exit) => φ l exit

theorem exists_of_check {r : Panics (CpuLocal × TimerExit)} {φ : CpuLocal → TimerExit → Prop}
    [∀ l exit, Decidable (φ l exit)] (h : check r φ = true) : ∃ l exit, r = .returned (l, exit) ∧ φ l exit := by
  unfold check at h
  split at h
  · cases h
  · exact ⟨_, _, rfl, of_decide_eq_true h⟩

/-- The kernel task has spawned a process. -/
def spawnedUser : CpuLocal := perform running (.spawnSample 1 AddressSpaceId.sample_ne_zero)

/-- The interrupt of a kernel task while a process is ready leaves its snapshot in the slot, and the next interrupt is
not captured. -/
theorem slot_pending_after_spawn : spawnedUser.cpu.interrupted = none ∧ spawnedUser.cpu.currentTask = some ⟨0, 1⟩ ∧
    ∃ l', timerEntryRust (args 0x8200) spawnedUser =
        .returned (l', .preemption (.error .userspaceTaskRequiresSystemRuntime)) ∧
      ¬ Disciplined (args 0x8200) ⟨0, 1⟩ spawnedUser l' ∧
      ∃ l'', timerEntryRust (args 0x8204) l' = .returned (l'', .notCaptured .alreadyPending) := by
  obtain ⟨l', exit, hl', rfl, hpending, hagain⟩ := exists_of_check (r := timerEntryRust (args 0x8200) spawnedUser)
    (φ := fun l exit => exit = .preemption (.error .userspaceTaskRequiresSystemRuntime) ∧ l.cpu.interrupted ≠ none ∧
      check (timerEntryRust (args 0x8204) l) (fun _ exit => exit = .notCaptured .alreadyPending) = true)
    (by decide +kernel)
  obtain ⟨l'', exit', hl'', rfl⟩ := exists_of_check hagain
  exact ⟨by decide +kernel, by decide +kernel, l', hl', fun h => hpending h.slot, l'', hl''⟩

/-- The kernel task has spawned another one. -/
def spawnedKernel : CpuLocal :=
  perform running (.spawnKernel .default (some ⟨0x200000, 0x9000, 0x8000, Placement.sample_ne_zero⟩))

/-- The kernel runtime that is bound settles the snapshot of the task that has the CPU. -/
def SettledByKernel (l : CpuLocal) : Prop :=
  ∀ task ∈ l.cpu.currentTask, ∃ r ∈ l.runtimePtr, r.Settles (l.cpu.timerTicks + 1) task

instance (l : CpuLocal) : Decidable (SettledByKernel l) := by unfold SettledByKernel; infer_instance

private theorem SettledByKernel.settling {l : CpuLocal} (h : SettledByKernel l) (a : TimerArgs) : Settling a l :=
  fun task hcpu _ _ _ _ => h task hcpu

/-- Two kernel tasks are interrupted in turn, and each is switched away from with its snapshot stored. -/
theorem slot_disciplined_two_tasks : ∃ l' l'' exit exit',
    timerEntryRust (args 0x8200) spawnedKernel = .returned (l', exit) ∧ l'.cpu.currentTask = some ⟨1, 1⟩ ∧
    Disciplined (args 0x8200) ⟨0, 1⟩ spawnedKernel l' ∧
    timerEntryRust (args 0x8300) l' = .returned (l'', exit') ∧ l''.cpu.currentTask = some ⟨0, 1⟩ ∧
    Disciplined (args 0x8300) ⟨1, 1⟩ l' l'' ∧
    ∀ e ∈ [exit, exit'], e ≠ .notCaptured .alreadyPending ∧
      e ≠ .preemption (.error (.interruptedState .interruptedStateAlreadyPresent)) := by
  have hslot : spawnedKernel.cpu.interrupted = none := by decide +kernel
  have hcpu : spawnedKernel.cpu.currentTask = some ⟨0, 1⟩ := by decide +kernel
  have hsettled : SettledByKernel spawnedKernel := by decide +kernel
  obtain ⟨l', exit, hl', hcpu', hslot', hsettled', hagain⟩ :=
    exists_of_check (r := timerEntryRust (args 0x8200) spawnedKernel)
      (φ := fun l _ => l.cpu.currentTask = some ⟨1, 1⟩ ∧ l.cpu.interrupted = none ∧ SettledByKernel l ∧
        check (timerEntryRust (args 0x8300) l) (fun l _ => l.cpu.currentTask = some ⟨0, 1⟩) = true)
      (by decide +kernel)
  obtain ⟨l'', exit', hl'', hcpu''⟩ := exists_of_check hagain
  obtain ⟨hone, hrun⟩ := timer_slot_disciplined_iff (args 0x8200) spawnedKernel hslot
  obtain ⟨hone', -⟩ := timer_slot_disciplined_iff (args 0x8300) l' hslot'
  refine ⟨l', l'', exit, exit', hl', hcpu', ?_, hl'', hcpu'', ?_, ?_⟩
  · exact (hone _ hcpu).mpr (hsettled.settling _ _ hcpu) l' exit hl'
  · exact (hone' _ hcpu').mpr (hsettled'.settling _ _ hcpu') l'' exit' hl''
  · exact hrun _ (.tick _ (hsettled.settling _) hl' id (.tick _ (hsettled'.settling _) hl'' id (.nil l'')))

end TimerSample

end X11Os
