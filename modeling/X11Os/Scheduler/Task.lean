import X11Os.Lib.Word

/-!
# Tasks

Task identity and lifecycle state (`scheduler/task.rs`) and the execution handle a task owns
(`scheduler/execution.rs`).  A method that mutates the block returns the new block together with the value it
reports.
-/

namespace X11Os

open Word

/-- Generational identifier: a reused slot gets a new generation, so a stale name matches nothing. -/
structure TaskId where
  index : U32
  generation : U32
deriving DecidableEq, Repr

inductive TaskKind where
  | kernel
  | userspace
deriving DecidableEq, Repr

inductive TaskState where
  | created
  | ready
  | running
  | blocked
  | exited
deriving DecidableEq, Repr

structure Priority where
  value : U8
deriving DecidableEq, Repr

def Priority.default : Priority := ⟨128⟩

/-- Opaque token proving that a task has an execution binding. -/
structure ExecutionHandle where
  taskId : TaskId
deriving DecidableEq, Repr

def ExecutionHandle.forTask (id : TaskId) : ExecutionHandle := ⟨id⟩

inductive ExecutionAttachError where
  | alreadyAttached
deriving DecidableEq, Repr

structure TaskControlBlock where
  id : TaskId
  kind : TaskKind
  state : TaskState
  priority : Priority
  execution : Option ExecutionHandle
deriving DecidableEq, Repr

namespace TaskControlBlock

def new (id : TaskId) (priority : Priority) : TaskControlBlock :=
  { id, kind := .kernel, state := .created, priority, execution := none }

def newUserspace (id : TaskId) (priority : Priority) : TaskControlBlock :=
  { id, kind := .userspace, state := .created, priority, execution := none }

def attachExecution (t : TaskControlBlock) :
    TaskControlBlock × Except ExecutionAttachError ExecutionHandle :=
  if t.execution.isSome then (t, .error .alreadyAttached)
  else
    let handle := ExecutionHandle.forTask t.id
    ({ t with execution := some handle }, .ok handle)

def detachExecution (t : TaskControlBlock) : TaskControlBlock × Option ExecutionHandle :=
  ({ t with execution := none }, t.execution)

end TaskControlBlock

/-- The state pairs that `transition` accepts. -/
def TaskState.canBecome : TaskState → TaskState → Bool
  | .created, .ready => true
  | .ready, .running => true
  | .running, .ready => true
  | .running, .blocked => true
  | .blocked, .ready => true
  | .running, .exited => true
  | .blocked, .exited => true
  | _, _ => false

def TaskControlBlock.transition (t : TaskControlBlock) (state : TaskState) : TaskControlBlock × Bool :=
  if t.state.canBecome state then ({ t with state }, true) else (t, false)

theorem TaskControlBlock.transition_of {t : TaskControlBlock} {state : TaskState}
    (h : t.state.canBecome state = true) : t.transition state = ({ t with state }, true) := by
  simp [transition, h]

@[simp] theorem TaskControlBlock.transition_id (t : TaskControlBlock) (state : TaskState) :
    (t.transition state).1.id = t.id := by
  unfold transition
  split <;> rfl

end X11Os
