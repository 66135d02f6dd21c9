import X11Os.Arch.ContextSwitch
import X11Os.Lib.KeyedSlots
import X11Os.Scheduler.Task

/-!
# Execution state of tasks

The snapshot of an interrupted task (`arch/x86_64/interrupted_state.rs`), the execution binding that a task
owns (`arch/x86_64/execution.rs`) and the registry of the bindings (`arch/x86_64/execution_registry.rs`).
What the allocator and the linker decide (the address of a stack, of an activation record and of the
trampoline) is an argument.
-/

namespace X11Os

open Word

/-! ### Interrupted states -/

structure SavedRegisters where
  rax : U64
  rcx : U64
  rdx : U64
  rbx : U64
  rbp : U64
  rsi : U64
  rdi : U64
  r8 : U64
  r9 : U64
  r10 : U64
  r11 : U64
  r12 : U64
  r13 : U64
  r14 : U64
  r15 : U64
deriving DecidableEq, Repr

/-- The return frame; the stack pair is present only in a frame that leaves user mode. -/
structure ReturnState where
  rip : U64
  cs : U64
  rflags : U64
  resumeRsp : U64
  rsp : Option U64
  ss : Option U64
deriving DecidableEq, Repr

namespace ReturnState

def isKernel (s : ReturnState) : Bool := s.cs &&& 3 == 0

def isUser (s : ReturnState) : Bool := s.cs &&& 3 == 3

def kernelIretWords (s : ReturnState) : Option (List U64) :=
  if !s.isKernel || s.rip == 0 || s.rflags &&& 2 == 0 || s.resumeRsp == 0 then none
  else some [s.rip, s.cs, s.rflags]

end ReturnState

structure InterruptedState where
  registers : SavedRegisters
  returnState : ReturnState
deriving DecidableEq, Repr

namespace InterruptedState

def isValid (s : InterruptedState) : Bool :=
  s.returnState.rip != 0 && s.returnState.rflags &&& 2 != 0 && s.returnState.resumeRsp != 0 &&
    (s.returnState.isKernel || (s.returnState.rsp.isSome && s.returnState.ss.isSome))

theorem kernelIretWords_of_isValid {s : InterruptedState} (hvalid : s.isValid = true)
    (hkernel : s.returnState.isKernel = true) : s.returnState.kernelIretWords.isSome = true := by
  simp only [isValid, Bool.and_eq_true, bne_iff_ne] at hvalid
  obtain ⟨⟨⟨hrip, hrflags⟩, hrsp⟩, -⟩ := hvalid
  rw [ReturnState.kernelIretWords, if_neg]
  · rfl
  · simp only [hkernel, Bool.not_true, Bool.false_or, Bool.or_eq_true, beq_iff_eq, not_or]
    exact ⟨⟨hrip, hrflags⟩, hrsp⟩

def isUserValid (s : InterruptedState) : Bool :=
  if !s.isValid || !s.returnState.isUser || s.returnState.rsp.isNone then false
  else
    match s.returnState.ss with
    | none => false
    | some ss => s.returnState.cs &&& 3 == 3 && ss &&& 3 == 3

end InterruptedState

/-! ### Execution bindings -/

def kernelStackSize : U64 := 32 * 1024

inductive ExecutionError where
  | stackAllocationFailed
  | invalidStack
  | interruptedStateAlreadyPresent
deriving DecidableEq, Repr

/-- Where the allocator puts a stack and an activation record, and where the linker has put the trampoline. -/
structure Placement where
  stack : U64
  activation : U64
  trampoline : U64
  trampoline_ne_zero : trampoline ≠ 0
deriving Repr

private theorem Placement.eq_iff {a b : Placement} :
    a = b ↔ a.stack = b.stack ∧ a.activation = b.activation ∧ a.trampoline = b.trampoline := by
  cases a
  cases b
  rw [mk.injEq]

instance : DecidableEq Placement := fun _ _ => decidable_of_iff' _ Placement.eq_iff

/-- The trampoline of the sample runs. -/
theorem Placement.sample_ne_zero : (0x8000 : U64) ≠ 0 := by decide

/-- The initial context of a task that starts at the trampoline. -/
def bootstrapContext (stackTop activation trampoline : U64) : Option Context :=
  match checkedSub stackTop 8 with
  | none => none
  | some below =>
    match checkedAdd (below &&& ~~~0xf) 8 with
    | none => none
    | some entryRsp =>
      if entryRsp = 0 ∨ entryRsp > stackTop ∨ entryRsp &&& 0xf ≠ 8 then none
      else some { Context.empty with rsp := entryRsp, r12 := activation, rip := trampoline }

private theorem bootstrapContext_initialized {stackTop activation trampoline : U64} (htrampoline : trampoline ≠ 0)
    {context : Context} (h : bootstrapContext stackTop activation trampoline = some context) :
    context.isInitialized = true := by
  unfold bootstrapContext at h
  split at h
  · cases h
  · split at h
    · cases h
    · split_ifs at h with hbad
      cases h
      rw [not_or] at hbad
      rw [Context.isInitialized, Bool.and_eq_true, bne_iff_ne, bne_iff_ne]
      exact ⟨hbad.1, htrampoline⟩

private theorem bootstrapContext_r12 {stackTop activation trampoline : U64} {context : Context}
    (h : bootstrapContext stackTop activation trampoline = some context) : context.r12 = activation := by
  unfold bootstrapContext at h
  split at h
  · cases h
  · split at h
    · cases h
    · split_ifs at h
      cases h
      rfl

/-- The addresses of the stack and of the activation record, the saved context and the snapshot of an interrupt.  The
stack always has `kernelStackSize` bytes and the activation record always names the task of the binding. -/
structure X86ExecutionBinding where
  taskId : TaskId
  stack : U64
  activation : U64
  context : Context
  interrupted : Option InterruptedState
deriving DecidableEq, Repr

namespace X86ExecutionBinding

/-- A failed allocation is `none`. -/
def new (taskId : TaskId) (placement : Option Placement) : Except ExecutionError X86ExecutionBinding :=
  match placement with
  | none => .error .stackAllocationFailed
  | some place =>
    match checkedAdd place.stack kernelStackSize with
    | none => .error .invalidStack
    | some stackTop =>
      match bootstrapContext stackTop place.activation place.trampoline with
      | none => .error .invalidStack
      | some context => .ok ⟨taskId, place.stack, place.activation, context, none⟩

def stackTop (b : X86ExecutionBinding) : Option U64 := checkedAdd b.stack kernelStackSize

/-- What holds of a binding that has just been made. -/
structure Fresh (b : X86ExecutionBinding) (taskId : TaskId) : Prop where
  taskId_eq : b.taskId = taskId
  stackTop_isSome : b.stackTop.isSome = true
  interrupted_eq : b.interrupted = none
  initialized : b.context.isInitialized = true
  activated : b.context.r12 = b.activation

private theorem new_eq_ok {taskId : TaskId} {placement : Option Placement} {b : X86ExecutionBinding}
    (h : new taskId placement = .ok b) : ∃ place top context, placement = some place ∧
      checkedAdd place.stack kernelStackSize = some top ∧
      bootstrapContext top place.activation place.trampoline = some context ∧
      b = ⟨taskId, place.stack, place.activation, context, none⟩ := by
  cases placement with
  | none => cases h
  | some place =>
    rw [new] at h
    split at h
    · cases h
    · rename_i top htop
      split at h
      · cases h
      · rename_i context hcontext
        cases h
        exact ⟨place, top, context, rfl, htop, hcontext, rfl⟩

theorem new_fresh {taskId : TaskId} {placement : Option Placement} {b : X86ExecutionBinding}
    (h : new taskId placement = .ok b) : b.Fresh taskId := by
  obtain ⟨place, top, context, rfl, htop, hcontext, rfl⟩ := new_eq_ok h
  exact ⟨rfl, Option.isSome_iff_exists.mpr ⟨top, htop⟩, rfl,
    bootstrapContext_initialized place.trampoline_ne_zero hcontext, bootstrapContext_r12 hcontext⟩

def installInterrupted (b : X86ExecutionBinding) (snapshot : InterruptedState) :
    X86ExecutionBinding × Except ExecutionError Unit :=
  if b.interrupted.isSome then (b, .error .interruptedStateAlreadyPresent)
  else if !snapshot.isValid then (b, .error .invalidStack)
  else ({ b with interrupted := some snapshot }, .ok ())

def validate (b : X86ExecutionBinding) : Except ExecutionError Unit :=
  if !b.context.isInitialized || b.context.r12 != b.activation || b.interrupted.any (fun s => !s.isValid) ||
      b.stackTop.isNone then .error .invalidStack
  else .ok ()

theorem validate_eq_ok {b : X86ExecutionBinding} :
    b.validate = .ok () ↔ b.context.isInitialized = true ∧ b.context.r12 = b.activation ∧
      (∀ state, b.interrupted = some state → state.isValid = true) ∧ b.stackTop.isSome = true := by
  unfold validate
  split_ifs with hbad
  · simp only [Bool.or_eq_true, Bool.not_eq_true', bne_iff_ne, Option.any_eq_true, Option.isNone_iff_eq_none] at hbad
    refine iff_of_false (fun h => by cases h) fun ⟨hinitialized, hactivated, hinterrupted, hstack⟩ => ?_
    rcases hbad with ((hbad | hbad) | ⟨state, hstate, hbad⟩) | hbad
    · rw [hinitialized] at hbad
      cases hbad
    · exact hbad hactivated
    · rw [hinterrupted state hstate] at hbad
      cases hbad
    · rw [hbad] at hstack
      cases hstack
  · simp only [Bool.or_eq_true, not_or, Bool.not_eq_true', Bool.not_eq_false, bne_iff_ne, not_not, Option.any_eq_true,
      not_exists, not_and, Option.isNone_iff_eq_none] at hbad
    obtain ⟨⟨⟨hinitialized, hactivated⟩, hinterrupted⟩, hstack⟩ := hbad
    exact iff_of_true rfl ⟨hinitialized, hactivated, hinterrupted, Option.isSome_iff_ne_none.mpr hstack⟩

/-- A valid state does not change what the check says. -/
theorem validate_of_interrupted {b : X86ExecutionBinding} {state : InterruptedState}
    (hinterrupted : b.interrupted = none) (hvalid : state.isValid = true) :
    ({ b with interrupted := some state } : X86ExecutionBinding).validate = .ok () ↔ b.validate = .ok () := by
  rw [validate_eq_ok, validate_eq_ok]
  simp [hinterrupted, hvalid, stackTop]

private theorem stackTop_of_validate {b : X86ExecutionBinding} (h : b.validate = .ok ()) :
    ∃ top, b.stackTop = some top :=
  Option.isSome_iff_exists.mp (validate_eq_ok.mp h).2.2.2

end X86ExecutionBinding

/-! ### The registry -/

inductive RegistryInsertError where
  | alreadyBound
  | allocation
deriving DecidableEq, Repr

abbrev ExecutionRegistry := KeyedSlots X86ExecutionBinding.taskId

inductive PreemptionPlan where
  | returnToContext (taskId : TaskId) (context : Context)
  | iretKernel (taskId : TaskId) (state : InterruptedState)
deriving DecidableEq, Repr

namespace ExecutionRegistry

def new : ExecutionRegistry := .empty

/-- The binding takes the first empty slot. -/
def insert (r : ExecutionRegistry) (handle : ExecutionHandle) (placement : Option Placement) :
    ExecutionRegistry × Except RegistryInsertError Unit :=
  match hget : r.get handle.taskId with
  | some _ => (r, .error .alreadyBound)
  | none =>
    match hnew : X86ExecutionBinding.new handle.taskId placement with
    | .error _ => (r, .error .allocation)
    | .ok binding =>
      (r.fill binding (by rw [(X86ExecutionBinding.new_fresh hnew).taskId_eq, hget]), .ok ())

/-- Nothing changes, or a fresh binding is added for a task that had none. -/
theorem insert_cases (r : ExecutionRegistry) (handle : ExecutionHandle) (placement : Option Placement) :
    (∃ e, r.insert handle placement = (r, .error e)) ∨
    ∃ r' b, r.insert handle placement = (r', .ok ()) ∧ r.get handle.taskId = none ∧ b.Fresh handle.taskId ∧
      r'.get = Function.update r.get handle.taskId (some b) := by
  unfold insert
  split
  · exact .inl ⟨_, rfl⟩
  · rename_i hget
    split
    · exact .inl ⟨_, rfl⟩
    · rename_i b hnew
      have hfresh := X86ExecutionBinding.new_fresh hnew
      refine .inr ⟨_, b, rfl, hget, hfresh, ?_⟩
      rw [KeyedSlots.get_fill, hfresh.taskId_eq]

def remove (r : ExecutionRegistry) (handle : ExecutionHandle) : ExecutionRegistry × Bool :=
  match r.get handle.taskId with
  | none => (r, false)
  | some _ => (r.erase handle.taskId, true)

/-- After a removal the task has no binding, whether it had one or not. -/
theorem get_remove (r : ExecutionRegistry) (handle : ExecutionHandle) :
    (r.remove handle).1.get = Function.update r.get handle.taskId none := by
  unfold remove
  split
  · rename_i hget
    rw [← hget, Function.update_eq_self]
  · exact KeyedSlots.get_erase r handle.taskId

/-- Removing a binding that has been added. -/
theorem get_remove_added {r r' : ExecutionRegistry} {handle : ExecutionHandle} {b : X86ExecutionBinding}
    (hvacant : r.get handle.taskId = none) (h : r'.get = Function.update r.get handle.taskId (some b)) :
    (r'.remove handle).1.get = r.get := by
  rw [get_remove, h, Function.update_idem, ← hvacant, Function.update_eq_self]

def kernelStackTop (r : ExecutionRegistry) (taskId : TaskId) : Option U64 :=
  (r.get taskId).bind X86ExecutionBinding.stackTop

theorem kernelStackTop_of_validate {r : ExecutionRegistry} {taskId : TaskId} {b : X86ExecutionBinding}
    (hget : r.get taskId = some b) (hvalid : b.validate = .ok ()) : ∃ top, r.kernelStackTop taskId = some top := by
  obtain ⟨top, htop⟩ := X86ExecutionBinding.stackTop_of_validate hvalid
  exact ⟨top, by rw [kernelStackTop, hget, Option.bind_some, htop]⟩

/-- How the task would get the CPU back: an interrupted kernel snapshot comes before a saved context. -/
def preemptionPlan (r : ExecutionRegistry) (taskId : TaskId) : Option PreemptionPlan :=
  match r.get taskId with
  | none => none
  | some binding =>
    match binding.interrupted with
    | some state =>
      if state.returnState.kernelIretWords.isSome then some (.iretKernel taskId state)
      else if binding.context.isInitialized then some (.returnToContext taskId binding.context)
      else none
    | none => if binding.context.isInitialized then some (.returnToContext taskId binding.context) else none

def takeKernelPreemptState (r : ExecutionRegistry) (taskId : TaskId) : ExecutionRegistry × Option InterruptedState :=
  match r.get taskId with
  | none => (r, none)
  | some binding =>
    match binding.interrupted with
    | none => (r, none)
    | some state =>
      if state.returnState.kernelIretWords.isNone then (r, none)
      else (r.modify taskId (fun b => { b with interrupted := none }) fun _ => rfl, some state)

/-- Writing through the context reference of a task. -/
def setContext (r : ExecutionRegistry) (taskId : TaskId) (context : Context) : ExecutionRegistry :=
  r.modify taskId (fun b => { b with context := context }) fun _ => rfl

/-- The contexts that `context_pair_mut` refers to. -/
def contextPair (r : ExecutionRegistry) (current next : TaskId) : Option (Context × Context) :=
  if current = next then none
  else
    match r.get current, r.get next with
    | some binding, some nextBinding => some (binding.context, nextBinding.context)
    | _, _ => none

def installInterrupted (r : ExecutionRegistry) (taskId : TaskId) (snapshot : InterruptedState) :
    ExecutionRegistry × Except ExecutionError Unit :=
  match r.get taskId with
  | none => (r, .error .invalidStack)
  | some binding =>
    (r.modify taskId (fun b => (b.installInterrupted snapshot).1) (fun b => by
      unfold X86ExecutionBinding.installInterrupted
      split_ifs <;> rfl), (binding.installInterrupted snapshot).2)

end ExecutionRegistry

end X11Os
