import X11Os.Arch.Execution
import X11Os.Process.Manager

/-!
# Userspace execution

The launch of a user program (`arch/x86_64/user_launch.rs`, `arch/x86_64/user_return.rs`), the binding of a userspace
task to its process and to the state it resumes from (`arch/x86_64/user_execution.rs`), and the transfer that hands
the CPU to such a task (`arch/x86_64/user_return_transfer.rs`).
-/

namespace X11Os

open Word

/-! ### Launches -/

/-- The frame that `iretq` consumes on the way to user mode. -/
structure UserReturnFrame where
  rip : U64
  cs : U64
  rflags : U64
  rsp : U64
  ss : U64
deriving DecidableEq, Repr

inductive UserReturnError where
  | kernelSelector
  | invalidRflags
deriving DecidableEq, Repr

def userDataSelector : U16 := 0x13

def userCodeSelector : U16 := 0x1b

def UserReturnFrame.fromInitial (context : InitialContext) (userCode userData : U16) :
    Except UserReturnError UserReturnFrame :=
  if userCode &&& 3 ≠ 3 ∨ userData &&& 3 ≠ 3 then .error .kernelSelector
  else
    let rflags : U64 := 0x202
    if rflags &&& 2 = 0 ∨ rflags &&& (1 <<< 9) = 0 then .error .invalidRflags
    else .ok ⟨context.entry, userCode.setWidth 64, rflags, context.stackPointer, userData.setWidth 64⟩

/-- The frame of the level-4 table, by its physical address. -/
structure AddressSpaceRoot where
  physical : U64
deriving DecidableEq, Repr

structure UserLaunchPlan where
  addressSpace : AddressSpaceId
  entry : U64
  stackPointer : U64
deriving DecidableEq, Repr

inductive UserLaunchAdapterError where
  | invalidReturnFrame (error : UserReturnError)
deriving DecidableEq, Repr

/-- A launch that `prepareLaunch` has accepted: its frame returns to user mode with interrupts enabled. -/
structure PreparedUserLaunch where
  addressSpace : AddressSpaceId
  root : AddressSpaceRoot
  frame : UserReturnFrame
  prepared : ∃ context, UserReturnFrame.fromInitial context userCodeSelector userDataSelector = .ok frame
deriving DecidableEq, Repr

theorem PreparedUserLaunch.frame_fields (launch : PreparedUserLaunch) :
    launch.frame.cs = 0x1b ∧ launch.frame.rflags = 0x202 ∧ launch.frame.ss = 0x13 := by
  obtain ⟨context, hframe⟩ := launch.prepared
  rw [← Except.ok.inj hframe]
  exact ⟨rfl, rfl, rfl⟩

def prepareLaunch (root : AddressSpaceRoot) (plan : UserLaunchPlan) :
    Except UserLaunchAdapterError PreparedUserLaunch :=
  match InitialContext.new plan.entry plan.stackPointer with
  | .error _ => .error (.invalidReturnFrame .invalidRflags)
  | .ok context =>
    match hframe : UserReturnFrame.fromInitial context userCodeSelector userDataSelector with
    | .error e => .error (.invalidReturnFrame e)
    | .ok frame => .ok ⟨plan.addressSpace, root, frame, context, hframe⟩

/-! ### Bindings -/

structure UserExecutionBinding where
  process : ProcessId
  task : TaskId
  addressSpace : AddressSpaceId
  launch : PreparedUserLaunch
  resume : Option InterruptedState
deriving DecidableEq, Repr

inductive UserExecutionBindingError where
  | addressSpaceMismatch
  | resumeStateAlreadyPresent
  | invalidResumeState
deriving DecidableEq, Repr

namespace UserExecutionBinding

def new (process : ProcessId) (task : TaskId) (addressSpace : AddressSpaceId) (launch : PreparedUserLaunch) :
    Except UserExecutionBindingError UserExecutionBinding :=
  if launch.addressSpace ≠ addressSpace then .error .addressSpaceMismatch
  else .ok ⟨process, task, addressSpace, launch, none⟩

def installResume (b : UserExecutionBinding) (state : InterruptedState) :
    UserExecutionBinding × Except UserExecutionBindingError Unit :=
  if b.resume.isSome then (b, .error .resumeStateAlreadyPresent)
  else if !state.isUserValid then (b, .error .invalidResumeState)
  else ({ b with resume := some state }, .ok ())

@[simp] theorem installResume_task (b : UserExecutionBinding) (state : InterruptedState) :
    (b.installResume state).1.task = b.task := by
  unfold installResume
  split_ifs <;> rfl

def clearResume (b : UserExecutionBinding) : UserExecutionBinding × Option InterruptedState :=
  ({ b with resume := none }, b.resume)

@[simp] theorem clearResume_task (b : UserExecutionBinding) : b.clearResume.1.task = b.task := rfl

end UserExecutionBinding

/-! ### The registry -/

inductive UserExecutionRegistryError where
  | alreadyBound
  | notFound
  | binding (error : UserExecutionBindingError)
deriving DecidableEq, Repr

abbrev UserExecutionRegistry := KeyedSlots UserExecutionBinding.task

namespace UserExecutionRegistry

def new : UserExecutionRegistry := .empty

/-- The binding takes a new slot at the end. -/
def insert (r : UserExecutionRegistry) (binding : UserExecutionBinding) :
    UserExecutionRegistry × Except UserExecutionRegistryError Unit :=
  match hget : r.get binding.task with
  | some _ => (r, .error .alreadyBound)
  | none => (r.push binding hget, .ok ())

theorem insert_cases (r : UserExecutionRegistry) (binding : UserExecutionBinding) :
    (∃ e, r.insert binding = (r, .error e)) ∨
    ∃ r', r.insert binding = (r', .ok ()) ∧ r.get binding.task = none ∧
      r'.get = Function.update r.get binding.task (some binding) := by
  unfold insert
  split
  · exact .inl ⟨_, rfl⟩
  · rename_i hget
    exact .inr ⟨_, rfl, hget, KeyedSlots.get_push r binding hget⟩

def remove (r : UserExecutionRegistry) (task : TaskId) :
    UserExecutionRegistry × Except UserExecutionRegistryError UserExecutionBinding :=
  match r.get task with
  | none => (r, .error .notFound)
  | some binding => (r.erase task, .ok binding)

theorem remove_ok {r : UserExecutionRegistry} {task : TaskId} {binding : UserExecutionBinding}
    (h : r.get task = some binding) :
    ∃ r', r.remove task = (r', .ok binding) ∧ r'.get = Function.update r.get task none := by
  refine ⟨r.erase task, ?_, KeyedSlots.get_erase r task⟩
  rw [remove, h]

def installResume (r : UserExecutionRegistry) (task : TaskId) (state : InterruptedState) :
    UserExecutionRegistry × Except UserExecutionRegistryError Unit :=
  match r.get task with
  | none => (r, .error .notFound)
  | some binding =>
    (r.modify task (fun b => (b.installResume state).1) (fun b => b.installResume_task state),
      (binding.installResume state).2.mapError .binding)

/-- A task without a stored state takes any state of user mode. -/
theorem installResume_ok {r : UserExecutionRegistry} {task : TaskId} {binding : UserExecutionBinding}
    {state : InterruptedState} (h : r.get task = some binding) (hresume : binding.resume = none)
    (hvalid : state.isUserValid = true) :
    ∃ r', r.installResume task state = (r', .ok ()) ∧
      r'.get = Function.update r.get task (some { binding with resume := some state }) := by
  have hinstall : binding.installResume state = ({ binding with resume := some state }, .ok ()) := by
    simp [UserExecutionBinding.installResume, hresume, hvalid]
  refine ⟨r.modify task (fun b => (b.installResume state).1) (fun b => b.installResume_task state), ?_, ?_⟩
  · simp only [installResume, h, hinstall]
    rfl
  · rw [KeyedSlots.get_modify, h, Option.map_some, hinstall]

/-- A state is stored for a task that has none, or nothing changes. -/
theorem installResume_cases (r : UserExecutionRegistry) (task : TaskId) (state : InterruptedState) :
    (∃ e, r.installResume task state = (r, .error e)) ∨
    ∃ r' b, r.installResume task state = (r', .ok ()) ∧ r.get task = some b ∧ b.resume = none ∧
      r'.get = Function.update r.get task (some { b with resume := some state }) := by
  cases hget : r.get task with
  | none => exact .inl ⟨.notFound, by simp only [installResume, hget]⟩
  | some b =>
    by_cases hinstall : b.resume = none ∧ state.isUserValid = true
    · obtain ⟨r', hok, hget'⟩ := installResume_ok hget hinstall.1 hinstall.2
      exact .inr ⟨r', b, hok, rfl, hinstall.1, hget'⟩
    · have hrefused : ∃ e, b.installResume state = (b, .error e) := by
        unfold UserExecutionBinding.installResume
        split_ifs with hresume hvalid
        · exact ⟨_, rfl⟩
        · exact ⟨_, rfl⟩
        · exact absurd ⟨Option.not_isSome_iff_eq_none.mp hresume, by simpa using hvalid⟩ hinstall
      obtain ⟨e, he⟩ := hrefused
      refine .inl ⟨.binding e, ?_⟩
      simp only [installResume, hget]
      rw [KeyedSlots.modify_eq_self hget (by rw [he]), he]
      rfl

def clearResume (r : UserExecutionRegistry) (task : TaskId) :
    UserExecutionRegistry × Except UserExecutionRegistryError (Option InterruptedState) :=
  match r.get task with
  | none => (r, .error .notFound)
  | some binding => (r.modify task (fun b => b.clearResume.1) (fun b => b.clearResume_task),
    .ok binding.clearResume.2)

theorem clearResume_ok {r : UserExecutionRegistry} {task : TaskId} {binding : UserExecutionBinding}
    (h : r.get task = some binding) :
    ∃ r', r.clearResume task = (r', .ok binding.resume) ∧
      r'.get = Function.update r.get task (some { binding with resume := none }) := by
  refine ⟨r.modify task (fun b => b.clearResume.1) (fun b => b.clearResume_task), ?_, ?_⟩
  · simp only [clearResume, h]
    rfl
  · rw [KeyedSlots.get_modify, h]
    rfl

end UserExecutionRegistry

/-! ### Transfers -/

structure UserReturnTransfer where
  process : ProcessId
  task : TaskId
  binding : UserExecutionBinding
deriving DecidableEq, Repr

inductive UserReturnTransferError where
  | currentTask
  | invalidSelectors
  | invalidRflags
  | invalidResumeState
deriving DecidableEq, Repr

namespace UserReturnTransfer

def new (binding : UserExecutionBinding) : UserReturnTransfer := ⟨binding.process, binding.task, binding⟩

def frame (t : UserReturnTransfer) : UserReturnFrame := t.binding.launch.frame

def resume (t : UserReturnTransfer) : Option InterruptedState := t.binding.resume

def validate (t : UserReturnTransfer) (currentTask : Option TaskId) :
    Except UserReturnTransferError UserReturnTransfer :=
  if currentTask = some t.task then .error .currentTask
  else
    match t.resume with
    | some state => if !state.isUserValid then .error .invalidResumeState else .ok t
    | none =>
      if t.frame.cs &&& 3 ≠ 3 ∨ t.frame.ss &&& 3 ≠ 3 then .error .invalidSelectors
      else if t.frame.rflags &&& 2 = 0 ∨ t.frame.rflags &&& (1 <<< 9) = 0 then .error .invalidRflags
      else .ok t

/-- Validation returns the transfer itself. -/
theorem validate_eq_ok {t t' : UserReturnTransfer} {currentTask : Option TaskId}
    (h : t.validate currentTask = .ok t') : t' = t := by
  unfold validate at h
  split at h
  · cases h
  · split at h
    · split_ifs at h
      exact (Except.ok.inj h).symm
    · split at h
      · cases h
      · split_ifs at h
        exact (Except.ok.inj h).symm

/-- A transfer that was accepted is accepted again while nobody has the CPU. -/
theorem validate_none {t t' : UserReturnTransfer} {currentTask : Option TaskId}
    (h : t.validate currentTask = .ok t') :
    t.validate none = .ok t := by
  obtain rfl := validate_eq_ok h
  unfold validate at h ⊢
  split at h
  · cases h
  · rw [if_neg (Option.some_ne_none _).symm]
    exact h

/-- A transfer to another task is refused only for a stored state that is not one of user mode: the frame of a
prepared launch always passes. -/
theorem validate_ok {t : UserReturnTransfer} {currentTask : Option TaskId} (hother : currentTask ≠ some t.task)
    (hresume : ∀ state, t.resume = some state → state.isUserValid = true) : t.validate currentTask = .ok t := by
  unfold validate
  rw [if_neg hother]
  split
  · rename_i state hstate
    simp [hresume state hstate]
  · obtain ⟨hcs, hrflags, hss⟩ := t.binding.launch.frame_fields
    rw [frame, hcs, hrflags, hss]
    rfl

end UserReturnTransfer

end X11Os
