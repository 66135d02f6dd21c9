import X11Os.Arch.SnapshotSlot

/-!
# The yield that a syscall grants

`Yield` only asks for a switch: the syscall entry publishes the action `Reschedule` on the CPU, and the next timer
interrupt of the task takes the action and commits the yield.  There is one place for the action and every syscall
that returns writes it.  So a yield that has been granted happens exactly if the last syscall before the interrupt is
a yield as well.
-/

namespace X11Os

open Word Amd64 Exec

private theorem SyscallError.abiReturnValue_ne_zero (e : SyscallError) : e.abiReturnValue ≠ 0 := by
  have hne : ∀ error : AbiSyscallError, error.returnValue ≠ 0 := by rintro (_ | _) <;> decide
  exact hne e.abiError

namespace System

open SystemRuntime

/-! ### Syscalls that return -/

/-- A syscall from user mode: the memory view and the copy backend of its caller, the serial port and what it has
received, and the registers of the caller. -/
structure UserCall where
  memory : Option (UserMemoryView × UserCopyBackend)
  sink : WriteSink
  received : List (List U8)
  cs : U64
  registers : SavedRegisters
  user : cs &&& 3 = 3

namespace UserCall

def enter (c : UserCall) (s : System) : Panics (System × List (List U8) × Continuation) :=
  syscallEntryRust c.memory c.sink c.cs c.registers c.received s

/-- A `Yield` of a caller whose memory can be reached. -/
def AsksYield (c : UserCall) : Prop := c.registers.rax = 2 ∧ c.memory.isSome = true

instance (c : UserCall) : Decidable c.AsksYield := by unfold AsksYield; infer_instance

/-- What the dispatch of the call gives. -/
def outcome (c : UserCall) (s : SystemRuntime) : DispatchResult SystemRuntime :=
  dispatchRequest c.memory c.sink c.registers c.received s

private theorem enter_eq (c : UserCall) (s : System) :
    c.enter s = finishRequest c.registers s (c.outcome s.toSystemRuntime) :=
  if_neg (not_not.mpr c.user)

end UserCall

/-- The current task makes syscalls that all return to it, with these values in RAX. -/
inductive Calls : System → List (UserCall × U64) → System → Prop where
  | nil (s : System) : Calls s [] s
  | call {s s' s'' : System} (c : UserCall) {received : List (List U8)} {registers : SavedRegisters}
      {calls : List (UserCall × U64)} (hreturns : c.enter s = .returned (s', received, .caller registers))
      (hrest : Calls s' calls s'') : Calls s ((c, registers.rax) :: calls) s''

/-- A `Yield` that has returned success. -/
def Granted (call : UserCall × U64) : Prop := call.1.registers.rax = 2 ∧ call.2 = 0

/-- What a call publishes when it returns. -/
def published (s : SystemRuntime) (c : UserCall) : SyscallReturnAction :=
  if c.AsksYield ∧ s.pendingExit = none then .reschedule else .return

/-! ### What a call does -/

/-- A userspace task is at the head of the ready queue, behind the current task. -/
structure Contended (s : SystemRuntime) (task next : TaskId) : Prop where
  coherent : s.Coherent
  current : s.scheduler.current = some task
  head : s.scheduler.nextReady = some next
  kind : s.scheduler.taskKind next = some .userspace

namespace Contended

variable {s : SystemRuntime} {task next : TaskId}

private theorem requestReschedule (h : Contended s task next) :
    Contended { s with runtime := s.runtime.requestReschedule } task next where
  coherent := ⟨h.coherent.numbered, h.coherent.agrees, h.coherent.stored, h.coherent.handle, h.coherent.stack,
    h.coherent.resume, h.coherent.image⟩
  current := h.current
  head := h.head
  kind := h.kind

private theorem currentProcess (h : Contended s task next) :
    ∃ user, s.userspace.get task = some user ∧ s.currentProcess = some user.process := by
  obtain ⟨t, ht, hkind, -⟩ := lifecycle_task.mp (h.coherent.agrees.owner task h.current)
  have hkind' : s.scheduler.taskKind task = some .userspace := by rw [Scheduler.taskKind, ht, Option.map_some, hkind]
  obtain ⟨user, huser⟩ := h.coherent.user_of_kind hkind'
  exact ⟨user, huser, h.coherent.currentProcess_iff.mpr ⟨task, user, h.current, huser, rfl⟩⟩

private theorem checked_iff (h : Contended s task next) :
    (∃ user, s.currentBindingChecked = .ok user) ↔ s.pendingExit = none := by
  constructor
  · rintro ⟨user, hchecked⟩
    by_contra hpending
    obtain ⟨request, hrequest⟩ := Option.ne_none_iff_exists'.mp hpending
    rw [currentBindingChecked_of_pending hrequest] at hchecked
    cases hchecked
  · intro hpending
    obtain ⟨user, -, hprocess⟩ := h.currentProcess
    obtain ⟨checked, hchecked, -⟩ := h.coherent.currentBindingChecked hpending hprocess h.current
    exact ⟨checked, hchecked⟩

end Contended

/-- The ways in which a call is dispatched. -/
inductive Dispatches (s : SystemRuntime) (c : UserCall) : DispatchResult SystemRuntime → Prop where
  | panics {received : List (List U8)} {control : SystemRuntime} : Dispatches s c ⟨.panicked, received, control⟩
  | returns {result : SyscallResult} {received : List (List U8)} (hpublished : published s c = .return)
      (hyield : c.registers.rax = 2 → ∃ e, result = .error e) :
      Dispatches s c ⟨.returned (.returned result), received, s⟩
  | yields (hpublished : published s c = .reschedule) :
      Dispatches s c ⟨.returned (.reschedule 0), c.received, { s with runtime := s.runtime.requestReschedule }⟩
  | exits (hrax : c.registers.rax = 1) {user : UserExecutionBinding} (hchecked : s.currentBindingChecked = .ok user) :
      Dispatches s c ⟨.returned (.terminate 0), c.received, { s with
        pendingExit := some (user.process, user.task, c.registers.rdi)
        runtime := s.runtime.requestReschedule }⟩

/-- Only a `Yield` can publish `Reschedule`. -/
private theorem Dispatches.of_other {s : SystemRuntime} {c : UserCall}
    (h : Syscall.fromNumber c.registers.rax ≠ some .yield) {result : SyscallResult} {received : List (List U8)} :
    Dispatches s c ⟨.returned (.returned result), received, s⟩ := by
  have hne : c.registers.rax ≠ 2 := fun hrax => h (Syscall.fromNumber_eq_yield.mpr hrax)
  exact .returns (if_neg fun hasks => hne hasks.1.1) fun hrax => absurd hrax hne

private theorem UserCall.outcome_dispatches {s : SystemRuntime} {task next : TaskId} (h : Contended s task next)
    (c : UserCall) :
    Dispatches s c (c.outcome s) := by
  unfold outcome dispatchRequest
  cases hmemory : c.memory with
  | none => exact .returns (if_neg fun hasks => by simp [AsksYield, hmemory] at hasks) fun _ => ⟨_, rfl⟩
  | some memory =>
    obtain ⟨view, backend⟩ := memory
    unfold dispatchWithMemoryAndControlAction SyscallRequest.syscall
    dsimp only [syscallControl]
    rcases hcall : Syscall.fromNumber c.registers.rax with _ | _ | _ | _
    case none => exact .of_other (by simp [hcall])
    case some.write =>
      dsimp only
      split
      · exact .of_other (by simp [hcall])
      · rcases sysWriteWithMemory _ view backend c.sink c.received with ⟨result | _, received⟩
        · exact .of_other (by simp [hcall])
        · exact .panics
    case some.exit =>
      rcases exit_cases s c.registers.rdi with ⟨e, -, hrefused⟩ | ⟨user, hchecked, haccepted⟩
      · simp only [hrefused]
        exact .of_other (by simp [hcall])
      · simp only [haccepted]
        exact .exits (Syscall.fromNumber_eq_exit.mp hcall) hchecked
    case some.yield =>
      rcases yieldNow_cases s with ⟨e, hrefused⟩ | ⟨user, hchecked, hgranted⟩
      · simp only [hrefused]
        refine .returns (if_neg fun hasks => ?_) fun _ => ⟨e, rfl⟩
        obtain ⟨user, hchecked⟩ := h.checked_iff.mpr hasks.2
        simp [yieldNow, hchecked] at hrefused
      · simp only [hgranted]
        have hasks : c.AsksYield := ⟨Syscall.fromNumber_eq_yield.mp hcall, by rw [hmemory]; rfl⟩
        exact .yields (if_pos ⟨hasks, h.checked_iff.mp ⟨user, hchecked⟩⟩)

/-- A call that returns publishes an action, and at most asks for a switch. -/
structure Answered (s s' : System) (c : UserCall) (rax : U64) : Prop where
  runtime : s'.toSystemRuntime = s.toSystemRuntime ∨
    s'.toSystemRuntime = { s.toSystemRuntime with runtime := s.runtime.requestReschedule }
  cpu : s'.cpu = { s.cpu with syscallAction := some (published s.toSystemRuntime c) }
  granted : Granted (c, rax) → published s.toSystemRuntime c = .reschedule

private theorem UserCall.enter_answered {s s' : System} {task next : TaskId} {received : List (List U8)}
    {registers : SavedRegisters} (h : Contended s.toSystemRuntime task next) (c : UserCall)
    (hreturns : c.enter s = .returned (s', received, .caller registers)) : Answered s s' c registers.rax := by
  have houtcome := c.outcome_dispatches h
  rw [enter_eq] at hreturns
  generalize c.outcome s.toSystemRuntime = outcome at houtcome hreturns
  cases houtcome with
  | panics => cases hreturns
  | returns hpublished hyield =>
    cases hreturns
    refine ⟨.inl rfl, by rw [hpublished]; rfl, fun hgranted => ?_⟩
    obtain ⟨e, rfl⟩ := hyield hgranted.1
    exact absurd hgranted.2 e.abiReturnValue_ne_zero
  | yields hpublished =>
    cases hreturns
    exact ⟨.inr rfl, by rw [hpublished]; rfl, fun _ => hpublished⟩
  | exits hrax hchecked =>
    -- the exit is committed and the successor gets the CPU
    have hprocess := currentProcess_of_checked hchecked
    obtain ⟨user, hchecked', -, rfl⟩ :=
      h.coherent.currentBindingChecked (h.checked_iff.mp ⟨_, hchecked⟩) hprocess h.current
    cases hchecked.symm.trans hchecked'
    have hs := (Effect.exitAsked c.registers.rdi hchecked).coherent h.coherent
    obtain ⟨plan, s₁, hruns, hhandover, -⟩ := commitPendingExit_runs hs rfl hprocess h.current h.head h.kind
    simp only [finishRequest, Panics.bind_returned, SyscallDispatch.terminate] at hreturns
    rw [hruns] at hreturns
    simp only [Panics.bind_returned, hhandover.transfer_accepted hs] at hreturns
    cases hreturns

/-! ### Sequences of calls -/

namespace Answered

variable {s s' : System} {task next : TaskId} {c : UserCall} {rax : U64}

private theorem contended (h : Answered s s' c rax) (hs : Contended s.toSystemRuntime task next) :
    Contended s'.toSystemRuntime task next := by
  rcases h.runtime with hsame | hasked
  · rw [hsame]
    exact hs
  · rw [hasked]
    exact hs.requestReschedule

private theorem pendingExit (h : Answered s s' c rax) : s'.pendingExit = s.pendingExit := by
  rcases h.runtime with hsame | hasked
  · rw [hsame]
  · rw [hasked]

end Answered

/-- A sequence of calls publishes what the last of them does. -/
structure AllAnswered (s s' : System) (task next : TaskId) (calls : List (UserCall × U64)) : Prop where
  contended : Contended s'.toSystemRuntime task next
  cpu : s'.cpu = { s.cpu with
    syscallAction := (calls.getLast?.map fun call => published s.toSystemRuntime call.1).or s.cpu.syscallAction }
  granted : (∃ call ∈ calls, Granted call) → s.pendingExit = none

private theorem published_congr {s s' : SystemRuntime} (h : s'.pendingExit = s.pendingExit) (c : UserCall) :
    published s' c = published s c := by
  unfold published
  rw [h]

private theorem pendingExit_of_published {s : SystemRuntime} {c : UserCall} (h : published s c = .reschedule) :
    s.pendingExit = none := by
  by_contra hpending
  rw [published, if_neg fun hasks => hpending hasks.2] at h
  cases h

private theorem Calls.answered {s s' : System} {task next : TaskId} {calls : List (UserCall × U64)}
    (h : Calls s calls s') (hs : Contended s.toSystemRuntime task next) : AllAnswered s s' task next calls := by
  induction h with
  | nil s => exact ⟨hs, rfl, fun ⟨_, hmem, _⟩ => by cases hmem⟩
  | call c hreturns hrest ih =>
    have hone := c.enter_answered hs hreturns
    obtain ⟨hcontended, hcpu, hgranted⟩ := ih (hone.contended hs)
    refine ⟨hcontended, ?_, ?_⟩
    · rw [hcpu, hone.cpu, List.getLast?_cons]
      -- the actions published before the last one are gone
      cases hlast : List.getLast? _ with
      | none => rfl
      | some last => simp [published_congr hone.pendingExit]
    · rintro ⟨call, hmem, hcall⟩
      rcases List.mem_cons.mp hmem with rfl | hmem
      · exact pendingExit_of_published (hone.granted hcall)
      · exact hone.pendingExit.symm.trans (hgranted ⟨call, hmem, hcall⟩)

end System

/-! ### The interrupt -/

namespace TimerArgs

def rip (a : TimerArgs) : U64 := InterruptReturnFrame.rip a.memory a.returnFrame

/-- The interrupt has come in user mode: CS and SS have the privilege level 3, and bit 1 of RFLAGS is always set. -/
structure FromUser (a : TimerArgs) : Prop where
  frame : (InterruptReturnFrame.resumeRsp a.memory a.returnFrame).isSome = true
  cs : InterruptReturnFrame.cs a.memory a.returnFrame &&& 3 = 3
  rflags : InterruptReturnFrame.rflags a.memory a.returnFrame &&& 2 ≠ 0
  ss : read64 a.memory (a.returnFrame + 32) &&& 3 = 3

/-- A snapshot from user mode is accepted unless its instruction pointer is null. -/
private theorem FromUser.snapshot {a : TimerArgs} (h : a.FromUser) :
    ∃ snapshot, a.snapshot = .returned snapshot ∧ (snapshot.isValid = true ↔ a.rip ≠ 0) ∧
      (snapshot.isValid = true → snapshot.isUserValid = true) := by
  obtain ⟨resumeRsp, hresume⟩ := Option.isSome_iff_exists.mp h.frame
  have hne : ¬ (InterruptReturnFrame.cs a.memory a.returnFrame &&& 3 = 0) := by rw [h.cs]; decide
  have hrsp : resumeRsp ≠ 0 := by
    rw [InterruptReturnFrame.resumeRsp, if_neg hne, checkedAdd_eq_some] at hresume
    rintro rfl
    simp at hresume
  have hss : InterruptReturnFrame.ss a.memory a.returnFrame = some (read64 a.memory (a.returnFrame + 32)) :=
    if_neg hne
  have hstack : InterruptReturnFrame.rsp a.memory a.returnFrame = some (read64 a.memory (a.returnFrame + 24)) :=
    if_neg hne
  refine ⟨_, by rw [TimerArgs.snapshot, InterruptedState.capture, ReturnState.capture, hresume], ?_, fun hvalid => ?_⟩
  · simp only [InterruptedState.isValid, hss, hstack, Option.isSome_some, Bool.and_self, Bool.or_true, Bool.and_true,
      Bool.and_eq_true, bne_iff_ne]
    exact ⟨fun hvalid => hvalid.1.1, fun hrip => ⟨⟨hrip, h.rflags⟩, hrsp⟩⟩
  · rw [InterruptedState.isUserValid, hvalid]
    simp only [ReturnState.isUser, hss, hstack, h.cs, h.ss]
    rfl

end TimerArgs

namespace System

/-- The CPU to which the system runtime is bound. -/
def onCpu (s : System) (runtime : RuntimePointer) : CpuLocal := ⟨s.cpu, some s.toSystemRuntime, runtime⟩

/-- The interrupt commits the yield of `task` with its snapshot and transfers to `next`. -/
def YieldsTo (a : TimerArgs) (l : CpuLocal) (task next : TaskId) : Prop :=
  ∃ snapshot system cpu s' transfer, a.snapshot = .returned snapshot ∧ l.system = some system ∧
    Runs (commitUserspaceYieldWithSnapshot (some (task, snapshot))) ⟨system, cpu⟩ (some transfer) s' ∧
    timerEntryRust a l = .returned (l.discard s', .userTransferred transfer) ∧
    transfer.task = next ∧ s'.scheduler.current = some next

/-- Without `Reschedule` the interrupted task goes on. -/
private theorem timerUser_of_not_reschedule {l l' : CpuLocal} {system : SystemRuntime} {exit : TimerExit}
    (haction : l.cpu.syscallAction ≠ some .reschedule) (h : l.timerUser system = .returned (l', exit)) :
    exit = .userReturned := by
  unfold CpuLocal.timerUser at h
  dsimp only at h
  split at h
  · exact absurd ‹_› haction
  · cases h
    rfl
  · cases h
    rfl
  · cases h

/-- With `Reschedule` the head of the queue gets the CPU. -/
private theorem Contended.timerUser_yields {l : CpuLocal} {system : SystemRuntime} {task next : TaskId}
    {snapshot : InterruptedState} (h : Contended system task next)
    (hcaptured : l.cpu.interrupted = some (task, snapshot))
    (haction : l.cpu.syscallAction = some .reschedule) (hvalid : snapshot.isUserValid = true) :
    ∃ s' transfer,
      Runs (commitUserspaceYieldWithSnapshot (some (task, snapshot))) ⟨system, l.cpu.takeSyscallAction.1⟩
        (some transfer) s' ∧
      l.timerUser system = .returned (l.discard s', .userTransferred transfer) ∧
      transfer.task = next ∧ s'.scheduler.current = some next := by
  obtain ⟨user, -, hprocess⟩ := h.currentProcess
  obtain ⟨plan, s', rfl, hruns, hhandover, heffect⟩ := commitUserspaceYieldWithSnapshot_runs
    (s := ⟨system, l.cpu.takeSyscallAction.1⟩) h.coherent hprocess h.current h.head h.kind hvalid
  refine ⟨s', _, hruns, ?_, hhandover.nextUser_task, heffect.current⟩
  have haction' : l.cpu.takeSyscallAction.2 = some .reschedule := haction
  have hcaptured' : l.cpu.takeSyscallAction.1.interrupted = some (task, snapshot) := hcaptured
  rw [CpuLocal.timerUser, haction', hcaptured']
  dsimp only
  rw [hruns]
  simp only [Panics.bind_returned, hhandover.transfer_accepted h.coherent]

/-- While another userspace task is at the head of the queue, an interrupt of the current task from its user mode
yields exactly if `Reschedule` is published, the slot is empty and the instruction pointer of the task is not null. -/
private theorem Contended.yieldsTo_iff {s : System} {task next : TaskId} (h : Contended s.toSystemRuntime task next)
    (hcpu : s.cpu.currentTask = some task) {a : TimerArgs} (ha : a.FromUser) (runtime : RuntimePointer) :
    YieldsTo a (s.onCpu runtime) task next ↔
      s.cpu.syscallAction = some .reschedule ∧ s.cpu.interrupted = none ∧ a.rip ≠ 0 := by
  obtain ⟨snapshot, hsnapshot, hvalid, huserValid⟩ := ha.snapshot
  obtain ⟨user, huser, hprocess⟩ := h.currentProcess
  have hsystem : (s.onCpu runtime).userSystem = some s.toSystemRuntime := by
    refine Option.filter_eq_some_iff.mpr ⟨rfl, ?_⟩
    rw [SystemRuntime.currentUserBinding, h.current, Option.bind_some, huser]
    rfl
  by_cases hslot : s.cpu.interrupted = none
  · rcases timerEntryRust_cases (l := s.onCpu runtime) a hslot hcpu with
      ⟨cpu, exit, hentry, hexit, -, -, hinvalid⟩ | ⟨_, hsnapshot', hcaptured, hentry⟩
    · constructor
      · rintro ⟨_, _, _, _, _, -, -, -, htransferred, -⟩
        obtain ⟨-, rfl⟩ := Prod.ext_iff.mp (Panics.returned.inj (hentry.symm.trans htransferred))
        rcases hexit with hexit | hexit <;> cases hexit
      · rintro ⟨-, -, hrip⟩
        rw [hinvalid snapshot hsnapshot] at hvalid
        cases hvalid.mpr hrip
    · cases hsnapshot.symm.trans hsnapshot'
      rw [hsystem] at hentry
      constructor
      · rintro ⟨_, _, _, _, _, -, -, -, htransferred, -⟩
        refine ⟨?_, hslot, hvalid.mp hcaptured⟩
        by_contra haction
        cases timerUser_of_not_reschedule haction (hentry.symm.trans htransferred)
      · rintro ⟨haction, -, -⟩
        obtain ⟨s', transfer, hruns, hyields, htask, hcurrent⟩ :=
          h.timerUser_yields (l := (s.onCpu runtime).capture task snapshot) rfl haction (huserValid hcaptured)
        exact ⟨snapshot, _, _, s', transfer, hsnapshot, rfl, hruns, hentry.trans hyields, htask, hcurrent⟩
  · have hcapture : ∀ snapshot, s.cpu.captureInterrupted snapshot = (s.cpu, .error .alreadyPending) := by
      simp [Cpu.captureInterrupted, hcpu, Option.isSome_iff_ne_none.mpr hslot]
    refine ⟨fun hyields => ?_, fun hslot' => absurd hslot'.2.1 hslot⟩
    obtain ⟨_, _, _, _, _, -, -, -, htransferred, -⟩ := hyields
    rcases (timerEntryRust_of_refused hcapture htransferred).2 with hexit | hexit <;> cases hexit

/-- The current task makes syscalls in a state that has been reached, while another userspace task is at the head of
the queue, and a `Yield` among them is granted.  The next interrupt from user mode yields to the other task exactly if
the last of the syscalls is a `Yield`, the slot is empty and the instruction pointer of the task is not null. -/
theorem granted_yield_happens_iff {trace : List (ResumeEvent TaskId InterruptedState)} {s s' : System}
    (hrun : Run trace s)
    {task next : TaskId} (hcur : s.scheduler.current = some task) (hnext : s.scheduler.nextReady = some next)
    (hkind : s.scheduler.taskKind next = some .userspace) {cpu : Cpu} (hcpu : cpu.currentTask = some task)
    {calls : List (UserCall × U64)} (hcalls : Calls { s with cpu } calls s') (hgranted : ∃ call ∈ calls, Granted call)
    {a : TimerArgs} (ha : a.FromUser) (runtime : RuntimePointer) :
    YieldsTo a (s'.onCpu runtime) task next ↔
      (∃ call, calls.getLast? = some call ∧ call.1.AsksYield) ∧ cpu.interrupted = none ∧ a.rip ≠ 0 := by
  have hs := hcalls.answered ⟨hrun.coherent, hcur, hnext, hkind⟩
  have hpending : s.pendingExit = none := hs.granted hgranted
  obtain ⟨granted, hmem, -⟩ := hgranted
  obtain ⟨last, hlast⟩ := Option.ne_none_iff_exists'.mp (mt List.getLast?_eq_none_iff.mp (List.ne_nil_of_mem hmem))
  have haction : s'.cpu.syscallAction = some .reschedule ↔ last.1.AsksYield := by
    simp [hs.cpu, hlast, published, hpending]
  have hslot : s'.cpu.interrupted = cpu.interrupted := by rw [hs.cpu]
  rw [hs.contended.yieldsTo_iff (by rw [hs.cpu]; exact hcpu) ha runtime, haction, hslot, hlast]
  simp

/-! ### A yield and a write -/

namespace MailboxSample

/-- The calls one after another, with what they leave in RAX. -/
def callAll : List UserCall → System → Option (List U64 × System)
  | [], s => some ([], s)
  | c :: cs, s =>
    match c.enter s with
    | .returned (s, _, .caller registers) => (callAll cs s).map fun r => (registers.rax :: r.1, r.2)
    | _ => none

private theorem calls_of_callAll : ∀ {cs : List UserCall} {s s' : System} {values : List U64},
    callAll cs s = some (values, s') → Calls s (cs.zip values) s'
  | [], s, s', values, h => by
    cases h
    exact .nil s
  | c :: cs, s, s', values, h => by
    unfold callAll at h
    split at h
    · rename_i s₁ received registers henter
      obtain ⟨⟨values', s₂⟩, hrest, heq⟩ := Option.map_eq_some_iff.mp h
      cases heq
      exact .call c henter (calls_of_callAll hrest)
    · cases h

def call (registers : SavedRegisters) : UserCall :=
  ⟨some (ExitSample.view, ExitSample.backend), ExitSample.sink, [], 0x1b, registers, by decide⟩

def yield : UserCall := call ⟨2, 0, 0, 0, 0, 0, 0, 0, 0, 0, 0, 0, 0, 0, 0⟩

/-- A `Write` of no bytes. -/
def write : UserCall := call ⟨0, 0, 0, 0, 0, 0, 0x401000, 0, 0, 0, 0, 0, 0, 0, 0⟩

/-- The timer finds user code at 0x401000. -/
def args : TimerArgs := ⟨writeWords (fun _ => 0) 0x7000 [0x401000, 0x1b, 0x202, 0x7fff0000, 0x13], 0x6000, 0x7000⟩

private theorem args_fromUser : args.FromUser where
  frame := by decide +kernel
  cs := by decide +kernel
  rflags := by decide +kernel
  ss := by decide +kernel

/-- The first of two processes has been started. -/
def Started (s : System) : Prop :=
  s.scheduler.current = some ⟨0, 1⟩ ∧ s.scheduler.nextReady = some ⟨1, 1⟩ ∧
    s.scheduler.taskKind ⟨1, 1⟩ = some .userspace ∧ s.cpu.currentTask = some ⟨0, 1⟩ ∧ s.cpu.interrupted = none

instance (s : System) : Decidable (Started s) := by unfold Started; infer_instance

def start : List Op := [.spawnSample 1 AddressSpaceId.sample_ne_zero, .spawnSample 2 (by decide), .startUser ⟨0, 1⟩]

/-- What can be checked of the calls of the first process holds of a run. -/
private theorem run_of_callAll (cs : List UserCall) {φ : List U64 → System → Prop}
    [∀ values s, Decidable (φ values s)]
    (h : ((boot 0).performAll start).any
      (fun r => Started r.2 ∧ (callAll cs r.2).any (fun v => φ v.1 v.2) = true) = true) :
    ∃ trace s values s', Run trace s ∧ Started s ∧ Calls s (cs.zip values) s' ∧ φ values s' := by
  obtain ⟨trace, s, hrun, hstarted, hcalls⟩ := Run.of_performAll 0
    (φ := fun _ s => Started s ∧ (callAll cs s).any (fun v => φ v.1 v.2) = true) start h
  obtain ⟨⟨values, s'⟩, hall, hφ⟩ := (Option.any_eq_true _ _).mp hcalls
  exact ⟨trace, s, values, s', hrun, hstarted, calls_of_callAll hall, of_decide_eq_true hφ⟩

/-- A task yields and then writes nothing.  Both calls return 0, and the interrupt returns to the task. -/
theorem granted_yield_lost : ∃ trace s calls s', Run trace s ∧ s.scheduler.current = some ⟨0, 1⟩ ∧
    s.scheduler.nextReady = some ⟨1, 1⟩ ∧ s.scheduler.taskKind ⟨1, 1⟩ = some .userspace ∧
    s.cpu.currentTask = some ⟨0, 1⟩ ∧ s.cpu.interrupted = none ∧ Calls s calls s' ∧ (∃ call ∈ calls, Granted call) ∧
    args.FromUser ∧ args.rip ≠ 0 ∧
    (∃ l', timerEntryRust args (s'.onCpu .owned) = .returned (l', .userReturned) ∧ l'.cpu.currentTask = some ⟨0, 1⟩) ∧
    ¬ YieldsTo args (s'.onCpu .owned) ⟨0, 1⟩ ⟨1, 1⟩ := by
  obtain ⟨trace, s, values, s', hrun, ⟨hcur, hnext, hkind, hcpu, hslot⟩, hcalls, rfl, htimer⟩ :=
    run_of_callAll [yield, write] (φ := fun values s => values = [0, 0] ∧
      TimerSample.check (timerEntryRust args (s.onCpu .owned)) (fun l exit => exit = .userReturned ∧
        l.cpu.currentTask = some ⟨0, 1⟩) = true) (by decide +kernel)
  obtain ⟨l', exit, hentry, rfl, hcpu'⟩ := TimerSample.exists_of_check htimer
  refine ⟨trace, s, _, s', hrun, hcur, hnext, hkind, hcpu, hslot, hcalls, ⟨(yield, 0), List.mem_cons_self, rfl, rfl⟩,
    args_fromUser, by decide +kernel, ⟨l', hentry, hcpu'⟩, ?_⟩
  rintro ⟨_, _, _, _, _, -, -, -, htransferred, -⟩
  cases (Prod.ext_iff.mp (Panics.returned.inj (hentry.symm.trans htransferred))).2

/-- In the other order the second process gets the CPU. -/
theorem granted_yield_happens : ∃ trace s s', Run trace s ∧ Calls s [(write, 0), (yield, 0)] s' ∧
    YieldsTo args (s'.onCpu .owned) ⟨0, 1⟩ ⟨1, 1⟩ := by
  obtain ⟨trace, s, values, s', hrun, ⟨hcur, hnext, hkind, hcpu, hslot⟩, hcalls, rfl⟩ :=
    run_of_callAll [write, yield] (φ := fun values _ => values = [0, 0]) (by decide +kernel)
  refine ⟨trace, s, s', hrun, hcalls, ?_⟩
  refine (granted_yield_happens_iff hrun hcur hnext hkind hcpu hcalls ?_ args_fromUser .owned).mpr ?_
  · exact ⟨(yield, 0), by simp, rfl, rfl⟩
  · exact ⟨⟨(yield, 0), rfl, rfl, rfl⟩, hslot, by decide +kernel⟩

end MailboxSample

end System

end X11Os
