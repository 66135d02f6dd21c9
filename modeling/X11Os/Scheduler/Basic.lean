import Mathlib.Logic.Function.Basic
import X11Os.Scheduler.Queues

/-!
# The scheduler

The architecture-independent scheduler of `scheduler/mod.rs`: a growing table of task slots with one generation
counter a slot, the ready queue and the current task.  Every public operation is a function from the scheduler to
the new scheduler and the value it returns; the operations that borrow a wait queue or the sleep queue return that
queue as well.
-/

namespace X11Os

open Word

structure DispatchDecision where
  previous : Option TaskId
  next : Option TaskId
deriving DecidableEq, Repr

inductive SchedulerError where
  | taskNotFound
  | executionAlreadyAttached
  | taskNotCreated
  | waitQueueAlreadyContainsTask
  | sleepQueueAlreadyContainsTask
  | currentTaskMismatch
  | successorNotReady
deriving DecidableEq, Repr

structure Scheduler where
  tasks : List (Option TaskControlBlock)
  generations : List U32
  ready : RunQueue
  current : Option TaskId
deriving DecidableEq, Repr

private theorem canBecome_blocked {st : TaskState} (h : st.canBecome .blocked = true) : st = .running := by
  cases st <;> simp_all [TaskState.canBecome]

namespace Scheduler

def new : Scheduler := { tasks := [], generations := [], ready := .new, current := none }

/-! ### Slots -/

/-- The block a name refers to: the slot at its index, provided the block there carries the same name. -/
def task (s : Scheduler) (id : TaskId) : Option TaskControlBlock :=
  match s.tasks[id.index.toNat]? with
  | some (some t) => if t.id = id then some t else none
  | _ => none

/-- Writing through the reference that `task_mut` hands out. -/
def setTask (s : Scheduler) (t : TaskControlBlock) : Scheduler :=
  { s with tasks := s.tasks.set t.id.index.toNat (some t) }

def clearSlot (s : Scheduler) (index : Nat) : Scheduler := { s with tasks := s.tasks.set index none }

theorem task_eq_some {s : Scheduler} {id : TaskId} {t : TaskControlBlock} :
    s.task id = some t ↔ s.tasks[id.index.toNat]? = some (some t) ∧ t.id = id := by
  unfold task
  split
  · rename_i t' h
    rw [h]
    by_cases hid : t'.id = id
    · simp only [hid, if_true, Option.some.injEq]
      constructor
      · rintro rfl
        exact ⟨rfl, hid⟩
      · exact And.left
    · simp only [hid, if_false, reduceCtorEq, Option.some.injEq, false_iff, not_and]
      rintro rfl
      exact hid
  · rename_i h
    simp only [reduceCtorEq, false_iff, not_and]
    intro h'
    exact absurd h' (h t)

theorem task_id {s : Scheduler} {id : TaskId} {t : TaskControlBlock} (h : s.task id = some t) : t.id = id :=
  (task_eq_some.mp h).2

/-- The table looks up by slot: what a name refers to depends on its slot only. -/
private theorem task_of_slot {s s' : Scheduler} {id : TaskId}
    (h : s'.tasks[id.index.toNat]? = s.tasks[id.index.toNat]?) : s'.task id = s.task id := by
  unfold task
  rw [h]

/-- Two names of one slot: at most one of them is live. -/
private theorem task_none_of_slot {s : Scheduler} {id other : TaskId} {t : TaskControlBlock} (h : s.task id = some t)
    (hslot : other.index = id.index) (hne : other ≠ id) : s.task other = none := by
  rw [Option.eq_none_iff_forall_ne_some]
  intro t' h'
  obtain ⟨h1, h2⟩ := task_eq_some.mp h
  obtain ⟨h3, h4⟩ := task_eq_some.mp h'
  rw [hslot, h1, Option.some.injEq, Option.some.injEq] at h3
  exact hne (by rw [← h4, ← h3, h2])

private theorem index_toNat_ne {a b : TaskId} (h : a.index ≠ b.index) : b.index.toNat ≠ a.index.toNat := by
  intro h'
  exact h (BitVec.toNat_inj.mp h'.symm)

theorem task_setTask {s : Scheduler} {id : TaskId} {t : TaskControlBlock} (h : s.task id = some t)
    (t' : TaskControlBlock) (hkeep : t'.id = t.id) :
    (s.setTask t').task = Function.update s.task id (some t') := by
  funext k
  have hid : t'.id = id := hkeep.trans (task_id h)
  obtain ⟨hslot, -⟩ := task_eq_some.mp h
  have hlt : id.index.toNat < s.tasks.length := (List.getElem?_eq_some_iff.mp hslot).1
  by_cases hk : k = id
  · subst hk
    rw [Function.update_self, task_eq_some]
    simp [setTask, hid, hlt]
  · rw [Function.update_of_ne hk]
    by_cases hki : k.index = id.index
    · have hself : (s.setTask t').task id = some t' := by
        rw [task_eq_some]
        simp [setTask, hid, hlt]
      rw [task_none_of_slot h hki hk, task_none_of_slot hself hki hk]
    · apply task_of_slot
      rw [setTask, hid]
      exact List.getElem?_set_ne (index_toNat_ne hki)

theorem task_clearSlot {s : Scheduler} {id : TaskId} {t : TaskControlBlock} (h : s.task id = some t) :
    (s.clearSlot id.index.toNat).task = Function.update s.task id none := by
  funext k
  have hempty : ∀ k : TaskId, k.index = id.index → (s.clearSlot id.index.toNat).task k = none := by
    intro k hki
    rw [Option.eq_none_iff_forall_ne_some]
    intro t' h'
    have := (task_eq_some.mp h').1
    rw [clearSlot, hki, List.getElem?_set_self'] at this
    simp only [Option.map_eq_map, Option.map_eq_some_iff, Function.const_apply, reduceCtorEq, and_false,
      exists_false] at this
  by_cases hk : k = id
  · rw [hk, Function.update_self, hempty id rfl]
  · rw [Function.update_of_ne hk]
    by_cases hki : k.index = id.index
    · rw [task_none_of_slot h hki hk, hempty k hki]
    · apply task_of_slot
      exact List.getElem?_set_ne (index_toNat_ne hki)

def state (s : Scheduler) (id : TaskId) : Option TaskState := (s.task id).map TaskControlBlock.state

def taskKind (s : Scheduler) (id : TaskId) : Option TaskKind := (s.task id).map TaskControlBlock.kind

def execution (s : Scheduler) (id : TaskId) : Option ExecutionHandle :=
  (s.task id).bind TaskControlBlock.execution

def nextReady (s : Scheduler) : Option TaskId := s.ready.peek

/-! ### Creation and destruction -/

/-- The first empty slot whose generation counter is not used up. -/
def freeSlot (s : Scheduler) : Option Nat :=
  (List.range s.tasks.length).find? fun i => s.tasks[i]? == some none && s.generations.getD i 0 != u32Max

def newBlock (id : TaskId) (priority : Priority) : TaskKind → TaskControlBlock
  | .kernel => .new id priority
  | .userspace => .newUserspace id priority

def createTaskWithKind (s : Scheduler) (priority : Priority) (kind : TaskKind) : Scheduler × TaskId :=
  match s.freeSlot with
  | some index =>
    let generation := s.generations.getD index 0 + 1
    let id : TaskId := ⟨BitVec.ofNat 32 index, generation⟩
    ({ s with
        generations := s.generations.set index generation
        tasks := s.tasks.set index (some (newBlock id priority kind)) }, id)
  | none =>
    let id : TaskId := ⟨BitVec.ofNat 32 s.tasks.length, 1⟩
    ({ s with
        tasks := s.tasks ++ [some (newBlock id priority kind)]
        generations := s.generations ++ [1] }, id)

@[simp] theorem newBlock_id (id : TaskId) (priority : Priority) (kind : TaskKind) :
    (newBlock id priority kind).id = id := by
  cases kind <;> rfl

@[simp] theorem newBlock_state (id : TaskId) (priority : Priority) (kind : TaskKind) :
    (newBlock id priority kind).state = .created := by
  cases kind <;> rfl

theorem freeSlot_some {s : Scheduler} {index : Nat} (h : s.freeSlot = some index) :
    s.tasks[index]? = some none ∧ s.generations.getD index 0 ≠ u32Max := by
  have := List.find?_some h
  simpa only [Bool.and_eq_true, beq_iff_eq, bne_iff_ne] using this

/-- Filling an unoccupied slot makes the new block's name live and changes no other name. -/
private theorem task_fill (s s' : Scheduler) {index : Nat} (t : TaskControlBlock) (hid : t.id.index.toNat = index)
    (hfree : ∀ t', s.tasks[index]? ≠ some (some t')) (hfill : s'.tasks[index]? = some (some t))
    (hother : ∀ j, j ≠ index → s'.tasks[j]? = s.tasks[j]?) :
    s.task t.id = none ∧ s'.task = Function.update s.task t.id (some t) := by
  have hnone : ∀ k : TaskId, k.index.toNat = index → s.task k = none := by
    intro k hk
    rw [Option.eq_none_iff_forall_ne_some]
    intro t' h'
    have h1 := (task_eq_some.mp h').1
    rw [hk] at h1
    exact hfree t' h1
  refine ⟨hnone _ hid, ?_⟩
  funext k
  have hself : s'.task t.id = some t := by
    rw [task_eq_some, hid]
    exact ⟨hfill, rfl⟩
  by_cases hk : k = t.id
  · rw [hk, Function.update_self, hself]
  · rw [Function.update_of_ne hk]
    by_cases hki : k.index = t.id.index
    · rw [task_none_of_slot hself hki hk, hnone k (by rw [hki, hid])]
    · apply task_of_slot
      apply hother
      rw [← hid]
      exact (index_toNat_ne hki).symm

/-- Creation fills one unoccupied slot.  The name of the new task has the low bits of the slot's position only: that
is what the cast `index as u32` keeps. -/
private theorem createTaskWithKind_fills {s : Scheduler} {priority : Priority} {kind : TaskKind} {s' : Scheduler}
    {id : TaskId} (h : s.createTaskWithKind priority kind = (s', id)) :
    ∃ index < s'.tasks.length, id.index = BitVec.ofNat 32 index ∧ (∀ t', s.tasks[index]? ≠ some (some t')) ∧
      s'.tasks[index]? = some (some (newBlock id priority kind)) ∧ (∀ j, j ≠ index → s'.tasks[j]? = s.tasks[j]?) ∧
      s'.ready = s.ready ∧ s'.current = s.current := by
  unfold createTaskWithKind at h
  split at h
  · rename_i index hfree
    obtain ⟨hslot, -⟩ := freeSlot_some hfree
    have hlt : index < s.tasks.length := (List.getElem?_eq_some_iff.mp hslot).1
    obtain ⟨rfl, rfl⟩ := Prod.mk.inj h
    exact ⟨index, by simpa using hlt, rfl, by rw [hslot]; simp, by simp [hlt],
      fun j hj => List.getElem?_set_ne (Ne.symm hj), rfl, rfl⟩
  · obtain ⟨rfl, rfl⟩ := Prod.mk.inj h
    refine ⟨s.tasks.length, by simp, rfl, by simp, by simp, fun j hj => ?_, rfl, rfl⟩
    rcases Nat.lt_or_gt_of_ne hj with hj | hj
    · exact List.getElem?_append_left hj
    · rw [List.getElem?_eq_none (by simp; omega), List.getElem?_eq_none (by omega)]

/-- Within the 32-bit index, the name of a new task is the name of its slot. -/
private theorem task_created {s s' : Scheduler} {priority : Priority} {kind : TaskKind} {id : TaskId} {index : Nat}
    (hfits : index < 2 ^ 32) (hindex : id.index = BitVec.ofNat 32 index)
    (hfree : ∀ t', s.tasks[index]? ≠ some (some t'))
    (hfill : s'.tasks[index]? = some (some (newBlock id priority kind)))
    (hother : ∀ j, j ≠ index → s'.tasks[j]? = s.tasks[j]?) :
    s.task id = none ∧ s'.task = Function.update s.task id (some (newBlock id priority kind)) := by
  have hname : (newBlock id priority kind).id.index.toNat = index := by
    rw [newBlock_id, hindex, BitVec.toNat_ofNat]
    exact Nat.mod_eq_of_lt hfits
  have hnew := task_fill s s' (newBlock id priority kind) hname hfree hfill hother
  rwa [newBlock_id] at hnew

/-- Creation issues a name that was not live and leaves everything else as it was, as long as the slot table fits the
32-bit index. -/
theorem createTaskWithKind_spec {s : Scheduler} {priority : Priority} {kind : TaskKind} {s' : Scheduler} {id : TaskId}
    (h : s.createTaskWithKind priority kind = (s', id)) (hslots : s'.tasks.length ≤ 2 ^ 32) :
    s.task id = none ∧ s'.task = Function.update s.task id (some (newBlock id priority kind)) ∧
      s'.ready = s.ready ∧ s'.current = s.current := by
  obtain ⟨index, hlt, hindex, hfree, hfill, hother, hready, hcurrent⟩ := createTaskWithKind_fills h
  obtain ⟨hnone, htask⟩ := task_created (by omega) hindex hfree hfill hother
  exact ⟨hnone, htask, hready, hcurrent⟩

/-- A slot beyond the 32-bit index has no name: a task created there cannot be looked up at all. -/
theorem createTaskWithKind_task {s : Scheduler} {priority : Priority} {kind : TaskKind} {s' : Scheduler} {id : TaskId}
    (h : s.createTaskWithKind priority kind = (s', id)) :
    (s'.task = s.task ∨
      s.task id = none ∧ s'.task = Function.update s.task id (some (newBlock id priority kind))) ∧
    s'.ready = s.ready ∧ s'.current = s.current := by
  obtain ⟨index, hlt, hindex, hfree, hfill, hother, hready, hcurrent⟩ := createTaskWithKind_fills h
  refine ⟨?_, hready, hcurrent⟩
  by_cases hfits : index < 2 ^ 32
  · exact .inr (task_created hfits hindex hfree hfill hother)
  · refine .inl (funext fun k => task_of_slot (hother _ ?_))
    have hk := k.index.isLt
    omega

def createTask (s : Scheduler) (priority : Priority) : Scheduler × TaskId :=
  s.createTaskWithKind priority .kernel

def createUserTask (s : Scheduler) (priority : Priority) : Scheduler × TaskId :=
  s.createTaskWithKind priority .userspace

def attachExecution (s : Scheduler) (id : TaskId) : Scheduler × Except SchedulerError ExecutionHandle :=
  match s.task id with
  | none => (s, .error .taskNotFound)
  | some task =>
    match task.attachExecution with
    | (task, .ok handle) => (s.setTask task, .ok handle)
    | (_, .error .alreadyAttached) => (s, .error .executionAlreadyAttached)

theorem attachExecution_cases (s : Scheduler) (id : TaskId) :
    (∃ e, s.attachExecution id = (s, .error e)) ∨
    ∃ t, s.task id = some t ∧ t.execution = none ∧
      s.attachExecution id = (s.setTask { t with execution := some (.forTask id) }, .ok (.forTask id)) := by
  unfold attachExecution
  split
  · exact .inl ⟨_, rfl⟩
  · rename_i t ht
    cases he : t.execution with
    | some handle => exact .inl ⟨.executionAlreadyAttached, by simp [TaskControlBlock.attachExecution, he]⟩
    | none => exact .inr ⟨t, ht, he, by simp [TaskControlBlock.attachExecution, he, task_id ht]⟩

def destroyCreated (s : Scheduler) (id : TaskId) : Scheduler × Except SchedulerError ExecutionHandle :=
  let index := id.index.toNat
  match s.tasks[index]? with
  | none => (s, .error .taskNotFound)
  | some none => (s, .error .taskNotFound)
  | some (some task) =>
    -- a stale name is reported like a task in another state
    if task.id ≠ id ∨ task.state ≠ .created then (s, .error .taskNotCreated)
    else
      match task.detachExecution.2 with
      | none => (s, .error .taskNotCreated)
      | some handle => (s.clearSlot index, .ok handle)

theorem destroyCreated_cases (s : Scheduler) (id : TaskId) :
    (∃ e, s.destroyCreated id = (s, .error e)) ∨
    ∃ t handle, s.task id = some t ∧ t.state = .created ∧ t.execution = some handle ∧
      s.destroyCreated id = (s.clearSlot id.index.toNat, .ok handle) := by
  unfold destroyCreated
  dsimp only
  split
  · exact .inl ⟨_, rfl⟩
  · exact .inl ⟨_, rfl⟩
  · rename_i t ht
    split
    · exact .inl ⟨_, rfl⟩
    · rename_i hok
      rw [not_or, not_not, not_not] at hok
      split
      · exact .inl ⟨_, rfl⟩
      · rename_i handle he
        exact .inr ⟨t, handle, task_eq_some.mpr ⟨ht, hok.1⟩, hok.2, he, rfl⟩

/-! ### The ready queue -/

def makeReady (s : Scheduler) (id : TaskId) : Scheduler × Bool :=
  if s.ready.contains id then (s, false)
  else
    match s.task id with
    | none => (s, false)
    | some task =>
      match task.transition .ready with
      | (_, false) => (s, false)
      | (task, true) =>
        let (ready, pushed) := s.ready.push id
        ({ s.setTask task with ready }, pushed)

theorem makeReady_cases (s : Scheduler) (id : TaskId) :
    s.makeReady id = (s, false) ∨
    ∃ t, s.task id = some t ∧ t.state.canBecome .ready = true ∧ id ∉ s.ready.queue ∧
      s.makeReady id = ({ s.setTask { t with state := .ready } with ready := ⟨s.ready.queue ++ [id]⟩ }, true) := by
  unfold makeReady
  split
  · exact .inl rfl
  · rename_i hq
    have hmem : id ∉ s.ready.queue := by simpa [RunQueue.contains] using hq
    cases ht : s.task id with
    | none => exact .inl rfl
    | some t =>
      by_cases hst : t.state.canBecome .ready = true
      · refine .inr ⟨t, rfl, hst, hmem, ?_⟩
        simp only [TaskControlBlock.transition_of hst, RunQueue.push_of_notMem hmem]
      · exact .inl (by simp [TaskControlBlock.transition, hst])

/-- The slot at `index` holds the task `id`, in the given state. -/
def slotHolds (s : Scheduler) (index : Nat) (id : TaskId) (state : TaskState) : Bool :=
  match s.tasks[index]? with
  | some (some task) => task.id = id && task.state = state
  | _ => false

/-- `terminate_current_to`: both identities are checked before the first write, by name and then again by slot. -/
def terminateCurrentTo (s : Scheduler) (successor : TaskId) : Scheduler × Except SchedulerError TaskId :=
  match s.current with
  | none => (s, .error .taskNotFound)
  | some current =>
    if current = successor then (s, .error .currentTaskMismatch)
    else if s.ready.peek ≠ some successor ∨ s.state successor ≠ some .ready then (s, .error .successorNotReady)
    else
      let currentIndex := current.index.toNat
      let successorIndex := successor.index.toNat
      if !s.slotHolds currentIndex current .running then (s, .error .taskNotFound)
      else if !s.slotHolds successorIndex successor .ready then (s, .error .successorNotReady)
      else
        match s.tasks[currentIndex]? with
        | some (some currentTask) =>
          match currentTask.transition .exited with
          | (_, false) => (s, .error .taskNotFound)
          | (_, true) =>
            -- the exited block, with its execution detached, goes with the slot
            let s := s.clearSlot currentIndex
            let (ready, queued) := s.ready.pop
            let s := { s with ready }
            if queued ≠ some successor then (s, .error .successorNotReady)
            else
              match s.tasks[successorIndex]? with
              | some (some successorTask) =>
                match successorTask.transition .running with
                | (_, false) => (s, .error .successorNotReady)
                | (successorTask, true) =>
                  ({ s with tasks := s.tasks.set successorIndex (some successorTask), current := some successor },
                    .ok successor)
              | _ => (s, .error .successorNotReady)
        | _ => (s, .error .taskNotFound)

private theorem slotHolds_iff {s : Scheduler} {id : TaskId} {state : TaskState} :
    s.slotHolds id.index.toNat id state = true ↔ s.state id = some state := by
  unfold slotHolds
  constructor
  · intro h
    split at h
    · rename_i t hslot
      rw [Bool.and_eq_true, decide_eq_true_eq, decide_eq_true_eq] at h
      rw [Scheduler.state, task_eq_some.mpr ⟨hslot, h.1⟩, Option.map_some, h.2]
    · cases h
  · intro h
    obtain ⟨t, ht, hst⟩ := Option.map_eq_some_iff.mp h
    obtain ⟨hslot, hid⟩ := task_eq_some.mp ht
    simp [hslot, hid, hst]

theorem terminateCurrentTo_ok {s : Scheduler} {current successor : TaskId} {rest : List TaskId}
    {t t' : TaskControlBlock} (hcur : s.current = some current) (hne : current ≠ successor)
    (hq : s.ready.queue = successor :: rest) (ht : s.task current = some t) (hst : t.state = .running)
    (ht' : s.task successor = some t') (hst' : t'.state = .ready) :
    s.terminateCurrentTo successor =
      ({ (s.clearSlot current.index.toNat).setTask { t' with state := .running } with
          ready := ⟨rest⟩, current := some successor }, .ok successor) := by
  have hcurrent : s.state current = some .running := by rw [state, ht, Option.map_some, hst]
  have hsuccessor : s.state successor = some .ready := by rw [state, ht', Option.map_some, hst']
  -- two live names are two slots, so emptying the one does not touch the other
  have hclear : (s.clearSlot current.index.toNat).tasks[successor.index.toNat]? = some (some t') := by
    refine (task_eq_some.mp (?_ : (s.clearSlot current.index.toNat).task successor = some t')).1
    rw [task_clearSlot ht, Function.update_of_ne (Ne.symm hne), ht']
  have hpeek : s.ready.peek = some successor := by rw [RunQueue.peek, hq, List.head?_cons]
  have hpop : (s.clearSlot current.index.toNat).ready.pop = (⟨rest⟩, some successor) := by
    simp [clearSlot, RunQueue.pop, hq]
  have hexit : t.transition .exited = ({ t with state := .exited }, true) :=
    TaskControlBlock.transition_of (by rw [hst]; rfl)
  have hrun : t'.transition .running = ({ t' with state := .running }, true) :=
    TaskControlBlock.transition_of (by rw [hst']; rfl)
  simp only [terminateCurrentTo, hcur, hne, if_false, hpeek, hsuccessor, ne_eq, not_true_eq_false, or_self,
    slotHolds_iff.mpr hcurrent, slotHolds_iff.mpr hsuccessor, Bool.not_true, Bool.false_eq_true,
    (task_eq_some.mp ht).1, hexit, hpop, hclear, hrun]
  rw [setTask, task_id ht']

/-- Either nothing changes, or the running current task's slot is emptied and the successor, taken from the head of
the queue, runs. -/
theorem terminateCurrentTo_cases (s : Scheduler) (successor : TaskId) :
    (∃ e, s.terminateCurrentTo successor = (s, .error e)) ∨
    ∃ current rest t t', s.current = some current ∧ current ≠ successor ∧
      s.ready.queue = successor :: rest ∧ s.task current = some t ∧ t.state = .running ∧
      s.task successor = some t' ∧ t'.state = .ready ∧
      s.terminateCurrentTo successor =
        ({ (s.clearSlot current.index.toNat).setTask { t' with state := .running } with
            ready := ⟨rest⟩, current := some successor }, .ok successor) := by
  cases hcur : s.current with
  | none => exact .inl ⟨.taskNotFound, by rw [terminateCurrentTo, hcur]⟩
  | some current =>
    by_cases hne : current = successor
    · exact .inl ⟨.currentTaskMismatch, by simp only [terminateCurrentTo, hcur, hne, if_true]⟩
    · by_cases hsucc : s.ready.peek ≠ some successor ∨ s.state successor ≠ some .ready
      · exact .inl ⟨.successorNotReady, by simp only [terminateCurrentTo, hcur, hne, hsucc, if_false, if_true]⟩
      · by_cases hrun : s.state current ≠ some .running
        · have hslot : s.slotHolds current.index.toNat current .running = false := by
            rw [Bool.eq_false_iff, ne_eq, slotHolds_iff]
            exact hrun
          exact .inl ⟨.taskNotFound, by
            simp only [terminateCurrentTo, hcur, hne, hsucc, hslot, if_false, Bool.not_false, if_true]⟩
        · rw [not_or, not_not, not_not] at hsucc
          rw [not_not] at hrun
          obtain ⟨t, ht, hts⟩ := Option.map_eq_some_iff.mp hrun
          obtain ⟨t', ht', hts'⟩ := Option.map_eq_some_iff.mp hsucc.2
          obtain ⟨rest, hq⟩ := List.head?_eq_some_iff.mp hsucc.1
          exact .inr ⟨current, rest, t, t', rfl, hne, hq, ht, hts, ht', hts',
            terminateCurrentTo_ok hcur hne hq ht hts ht' hts'⟩

/-- The first block of `schedule_next`: a running current task goes back to the queue. -/
def requeuePrevious (s : Scheduler) : Scheduler :=
  match s.current with
  | none => s
  | some previous =>
    match s.task previous with
    | none => s
    | some task =>
      if task.state = .running then
        { s.setTask (task.transition .ready).1 with ready := (s.ready.push previous).1 }
      else s

theorem requeuePrevious_cases (s : Scheduler) :
    (s.requeuePrevious = s ∧ ∀ id, s.current = some id → s.state id ≠ some .running) ∨
    ∃ id t, s.current = some id ∧ s.task id = some t ∧ t.state = .running ∧
      s.requeuePrevious = { s.setTask { t with state := .ready } with ready := (s.ready.push id).1 } := by
  unfold requeuePrevious
  split
  · rename_i hcur
    exact .inl ⟨rfl, fun id h => by rw [hcur] at h; cases h⟩
  · rename_i id hcur
    cases ht : s.task id with
    | none =>
      refine .inl ⟨rfl, fun id' h => ?_⟩
      rw [hcur, Option.some.injEq] at h
      simp [state, ← h, ht]
    | some t =>
      by_cases hrun : t.state = .running
      · refine .inr ⟨id, t, hcur, ht, hrun, ?_⟩
        have htr : t.transition .ready = ({ t with state := .ready }, true) :=
          TaskControlBlock.transition_of (by rw [hrun]; rfl)
        simp only [hrun, if_true, htr]
      · refine .inl ⟨by simp [hrun], fun id' h => ?_⟩
        rw [hcur, Option.some.injEq] at h
        simp [state, ← h, ht, hrun]

/-- The second block of `schedule_next`: the previous task is the only one in the queue and keeps the CPU. -/
def keepPrevious (s : Scheduler) (previous : TaskId) : Scheduler × DispatchDecision :=
  let s := { s with ready := s.ready.pop.1 }
  let s := match s.task previous with
    | none => s
    | some task => s.setTask (task.transition .running).1
  ({ s with current := some previous }, { previous := some previous, next := none })

theorem keepPrevious_of_ready {s : Scheduler} {id : TaskId} {t : TaskControlBlock} {rest : List TaskId}
    (hq : s.ready.queue = id :: rest) (ht : s.task id = some t) (hst : t.state = .ready) :
    (s.keepPrevious id).1 =
      { s.setTask { t with state := .running } with ready := ⟨rest⟩, current := some id } := by
  have hpop : s.ready.pop.1 = ⟨rest⟩ := by simp [RunQueue.pop, hq]
  have htask : ({ s with ready := ⟨rest⟩ } : Scheduler).task id = some t := ht
  have htr : t.transition .running = ({ t with state := .running }, true) :=
    TaskControlBlock.transition_of (by rw [hst]; rfl)
  simp only [keepPrevious, hpop, htask, htr]
  rfl

/-- The last block of `schedule_next`: the head of the queue gets the CPU. -/
def dispatchHead (s : Scheduler) (previous : Option TaskId) : Scheduler × DispatchDecision :=
  let (ready, next) := s.ready.pop
  let s := { s with ready }
  let s := match next with
    | none => { s with current := none }
    | some nextId =>
      match s.task nextId with
      | none => { s with current := none }
      | some task =>
        match task.transition .running with
        | (task, true) => { s.setTask task with current := some nextId }
        | (_, false) => { s with current := none }
  (s, { previous, next := s.current })

theorem dispatchHead_of_ready {s : Scheduler} {id : TaskId} {t : TaskControlBlock} {rest : List TaskId}
    (previous : Option TaskId) (hq : s.ready.queue = id :: rest) (ht : s.task id = some t) (hst : t.state = .ready) :
    s.dispatchHead previous =
      ({ s.setTask { t with state := .running } with ready := ⟨rest⟩, current := some id },
        { previous, next := some id }) := by
  have hpop : s.ready.pop = (⟨rest⟩, some id) := by simp [RunQueue.pop, hq]
  have htask : ({ s with ready := ⟨rest⟩ } : Scheduler).task id = some t := ht
  have htr : t.transition .running = ({ t with state := .running }, true) :=
    TaskControlBlock.transition_of (by rw [hst]; rfl)
  simp only [dispatchHead, hpop, htask, htr]
  rfl

theorem dispatchHead_of_empty {s : Scheduler} (previous : Option TaskId) (hq : s.ready.queue = []) :
    s.dispatchHead previous = ({ s with current := none }, { previous, next := none }) := by
  have hpop : s.ready.pop = (s.ready, none) := by
    have : s.ready = ⟨[]⟩ := by rw [← hq]
    rw [this]
    rfl
  simp only [dispatchHead, hpop]

def scheduleNext (s : Scheduler) : Scheduler × DispatchDecision :=
  let previous := s.current
  let s := s.requeuePrevious
  match previous with
  | none => s.dispatchHead previous
  | some previousId =>
    if s.ready.len = 1 ∧ s.ready.peek = some previousId then s.keepPrevious previousId
    else s.dispatchHead previous

/-- With no owner of the CPU the head of the queue runs. -/
theorem scheduleNext_of_idle {s : Scheduler} {id : TaskId} {t : TaskControlBlock} {rest : List TaskId}
    (hcur : s.current = none) (hq : s.ready.queue = id :: rest) (ht : s.task id = some t) (hst : t.state = .ready) :
    s.scheduleNext =
      ({ s.setTask { t with state := .running } with ready := ⟨rest⟩, current := some id }, ⟨none, some id⟩) := by
  have hrequeue : s.requeuePrevious = s := by rw [requeuePrevious, hcur]
  simp only [scheduleNext, hcur, hrequeue]
  exact dispatchHead_of_ready none hq ht hst

/-- The running owner of the CPU goes to the end of the queue and the head of the queue runs. -/
theorem scheduleNext_of_running {s : Scheduler} {current id : TaskId} {t t' : TaskControlBlock} {rest : List TaskId}
    (hcur : s.current = some current) (ht : s.task current = some t) (hst : t.state = .running)
    (hnot : current ∉ s.ready.queue) (hq : s.ready.queue = id :: rest) (ht' : s.task id = some t')
    (hst' : t'.state = .ready) :
    s.scheduleNext =
      ({ (s.setTask { t with state := .ready }).setTask { t' with state := .running } with
          ready := ⟨rest ++ [current]⟩, current := some id }, ⟨some current, some id⟩) := by
  have hne : id ≠ current := by
    rintro rfl
    exact hnot (by rw [hq]; exact List.mem_cons_self)
  have hrequeue : s.requeuePrevious =
      { s.setTask { t with state := .ready } with ready := ⟨id :: (rest ++ [current])⟩ } := by
    have htr : t.transition .ready = ({ t with state := .ready }, true) :=
      TaskControlBlock.transition_of (by rw [hst]; rfl)
    simp only [requeuePrevious, hcur, ht, hst, if_true, htr, RunQueue.push_of_notMem hnot, hq, List.cons_append]
  have htask : s.requeuePrevious.task id = some t' := by
    rw [hrequeue]
    show (s.setTask { t with state := .ready }).task id = some t'
    rw [task_setTask ht { t with state := .ready } rfl, Function.update_of_ne hne, ht']
  have hdispatch := dispatchHead_of_ready (some current) (by rw [hrequeue]) htask hst'
  simp only [scheduleNext, hcur]
  rw [if_neg (by rw [hrequeue]; simp [RunQueue.len]), hdispatch, hrequeue]
  rfl

/-! ### Blocking and waking -/

def blockCurrentOn (s : Scheduler) (waiters : WaitQueue) :
    Scheduler × WaitQueue × Except SchedulerError TaskId :=
  match s.current with
  | none => (s, waiters, .error .taskNotFound)
  | some id =>
    if waiters.contains id then (s, waiters, .error .waitQueueAlreadyContainsTask)
    else
      match s.task id with
      | none => (s, waiters, .error .taskNotFound)
      | some task =>
        match task.transition .blocked with
        | (_, false) => (s, waiters, .error .taskNotFound)
        | (task, true) =>
          let s := s.setTask task
          match waiters.enqueue id with
          | (waiters, .error .alreadyQueued) =>
            (s.setTask (task.transition .running).1, waiters, .error .waitQueueAlreadyContainsTask)
          | (waiters, .ok ()) => ({ s with current := none }, waiters, .ok id)

theorem blockCurrentOn_cases (s : Scheduler) (waiters : WaitQueue) :
    (∃ e, s.blockCurrentOn waiters = (s, waiters, .error e)) ∨
    ∃ id t, s.current = some id ∧ s.task id = some t ∧ t.state = .running ∧ id ∉ waiters.queue ∧
      s.blockCurrentOn waiters =
        ({ s.setTask { t with state := .blocked } with current := none }, ⟨waiters.queue ++ [id]⟩, .ok id) := by
  unfold blockCurrentOn
  split
  · exact .inl ⟨_, rfl⟩
  · rename_i id hcur
    split
    · exact .inl ⟨_, rfl⟩
    · rename_i hw
      have hmem : id ∉ waiters.queue := by simpa [WaitQueue.contains] using hw
      cases ht : s.task id with
      | none => exact .inl ⟨_, rfl⟩
      | some t =>
        by_cases hst : t.state.canBecome .blocked = true
        · refine .inr ⟨id, t, hcur, ht, canBecome_blocked hst, hmem, ?_⟩
          simp [TaskControlBlock.transition_of hst, WaitQueue.enqueue, hmem]
        · exact .inl ⟨.taskNotFound, by simp [TaskControlBlock.transition, hst]⟩

def blockCurrent (s : Scheduler) : Scheduler × Bool :=
  match s.current with
  | none => (s, false)
  | some id =>
    match s.task id with
    | none => (s, false)
    | some task =>
      match task.transition .blocked with
      | (_, false) => (s, false)
      | (task, true) => ({ s.setTask task with current := none }, true)

theorem blockCurrent_cases (s : Scheduler) :
    s.blockCurrent = (s, false) ∨
    ∃ id t, s.current = some id ∧ s.task id = some t ∧ t.state = .running ∧
      s.blockCurrent = ({ s.setTask { t with state := .blocked } with current := none }, true) := by
  unfold blockCurrent
  split
  · exact .inl rfl
  · rename_i id hcur
    cases ht : s.task id with
    | none => exact .inl rfl
    | some t =>
      by_cases hst : t.state.canBecome .blocked = true
      · exact .inr ⟨id, t, hcur, ht, canBecome_blocked hst, by simp [TaskControlBlock.transition_of hst]⟩
      · exact .inl (by simp [TaskControlBlock.transition, hst])

/-- The `while let Some(id) = waiters.dequeue()` loop, over the waiters still queued. -/
def wakeOneLoop (s : Scheduler) : List TaskId → Scheduler × WaitQueue × Option TaskId
  | [] => (s, ⟨[]⟩, none)
  | id :: rest =>
    match s.task id with
    | none => s.wakeOneLoop rest
    | some task =>
      if task.state ≠ .blocked then s.wakeOneLoop rest
      else
        match task.transition .ready with
        | (_, false) => s.wakeOneLoop rest
        | (task, true) =>
          let s := s.setTask task
          match s.ready.push id with
          | (_, false) =>
            (s.setTask (task.transition .blocked).1, ((WaitQueue.mk rest).enqueue id).1, none)
          | (ready, true) => ({ s with ready }, ⟨rest⟩, some id)

def wakeOne (s : Scheduler) (waiters : WaitQueue) : Scheduler × WaitQueue × Option TaskId :=
  s.wakeOneLoop waiters.queue

def sleepCurrentUntil (s : Scheduler) (deadline : U64) (sleepers : SleepQueue) :
    Scheduler × SleepQueue × Except SchedulerError TaskId :=
  match s.current with
  | none => (s, sleepers, .error .taskNotFound)
  | some id =>
    if sleepers.contains id then (s, sleepers, .error .sleepQueueAlreadyContainsTask)
    else
      match s.task id with
      | none => (s, sleepers, .error .taskNotFound)
      | some task =>
        match task.transition .blocked with
        | (_, false) => (s, sleepers, .error .taskNotFound)
        | (task, true) =>
          let s := s.setTask task
          match sleepers.insert ⟨deadline, id⟩ with
          | (sleepers, false) =>
            (s.setTask (task.transition .running).1, sleepers, .error .sleepQueueAlreadyContainsTask)
          | (sleepers, true) => ({ s with current := none }, sleepers, .ok id)

theorem sleepCurrentUntil_cases (s : Scheduler) (deadline : U64) (sleepers : SleepQueue) :
    (∃ e, s.sleepCurrentUntil deadline sleepers = (s, sleepers, .error e)) ∨
    ∃ id t, s.current = some id ∧ s.task id = some t ∧ t.state = .running ∧ sleepers.contains id = false ∧
      s.sleepCurrentUntil deadline sleepers =
        ({ s.setTask { t with state := .blocked } with current := none },
          (sleepers.insert ⟨deadline, id⟩).1, .ok id) := by
  unfold sleepCurrentUntil
  split
  · exact .inl ⟨_, rfl⟩
  · rename_i id hcur
    cases hc : sleepers.contains id with
    | true => exact .inl ⟨.sleepQueueAlreadyContainsTask, by simp⟩
    | false =>
      cases ht : s.task id with
      | none => exact .inl ⟨.taskNotFound, by simp⟩
      | some t =>
        by_cases hst : t.state.canBecome .blocked = true
        · refine .inr ⟨id, t, hcur, ht, canBecome_blocked hst, hc, ?_⟩
          have hins : sleepers.insert ⟨deadline, id⟩ = ((sleepers.insert ⟨deadline, id⟩).1, true) :=
            SleepQueue.insert_of_notContains hc
          rw [hins]
          simp [TaskControlBlock.transition_of hst]
        · exact .inl ⟨.taskNotFound, by simp [TaskControlBlock.transition, hst]⟩

/-- One round of the loop over the expired sleepers. -/
def wakeSleeper (s : Scheduler) (id : TaskId) : Scheduler × Bool :=
  match s.task id with
  | none => (s, false)
  | some task =>
    if task.state ≠ .blocked then (s, false)
    else
      match task.transition .ready with
      | (_, false) => (s, false)
      | (task, true) =>
        let (ready, pushed) := s.ready.push id
        ({ s.setTask task with ready }, pushed)

theorem wakeSleeper_cases (s : Scheduler) (id : TaskId) :
    s.wakeSleeper id = (s, false) ∨
    ∃ t, s.task id = some t ∧ t.state = .blocked ∧
      s.wakeSleeper id =
        ({ s.setTask { t with state := .ready } with ready := (s.ready.push id).1 }, (s.ready.push id).2) := by
  unfold wakeSleeper
  cases ht : s.task id with
  | none => exact .inl rfl
  | some t =>
    by_cases hst : t.state = .blocked
    · refine .inr ⟨t, rfl, hst, ?_⟩
      have htr : t.transition .ready = ({ t with state := .ready }, true) :=
        TaskControlBlock.transition_of (by rw [hst]; rfl)
      simp only [hst, ne_eq, not_true, if_false, htr]
    · exact .inl (by simp [hst])

def wakeSleepers (s : Scheduler) : List TaskId → Scheduler × List TaskId
  | [] => (s, [])
  | id :: rest =>
    match s.wakeSleeper id with
    | (s, true) => ((s.wakeSleepers rest).1, id :: (s.wakeSleepers rest).2)
    | (s, false) => s.wakeSleepers rest

def expireSleepers (s : Scheduler) (now : U64) (sleepers : SleepQueue) :
    Scheduler × SleepQueue × List TaskId :=
  let (sleepers, expired) := sleepers.expireUntil now
  let (s, woken) := s.wakeSleepers expired
  (s, sleepers, woken)

def exitCurrent (s : Scheduler) : Scheduler × Bool :=
  match s.current with
  | none => (s, false)
  | some id =>
    match s.task id with
    | none => (s, false)
    | some task =>
      match task.transition .exited with
      | (_, false) => (s, false)
      | (_, true) => ({ s.clearSlot id.index.toNat with current := none }, true)

theorem exitCurrent_cases (s : Scheduler) :
    s.exitCurrent = (s, false) ∨
    ∃ id t, s.current = some id ∧ s.task id = some t ∧ t.state.canBecome .exited = true ∧
      s.exitCurrent = ({ s.clearSlot id.index.toNat with current := none }, true) := by
  unfold exitCurrent
  split
  · exact .inl rfl
  · rename_i id hcur
    cases ht : s.task id with
    | none => exact .inl rfl
    | some t =>
      by_cases hst : t.state.canBecome .exited = true
      · exact .inr ⟨id, t, hcur, ht, hst, by simp [TaskControlBlock.transition_of hst]⟩
      · exact .inl (by simp [TaskControlBlock.transition, hst])

end Scheduler

end X11Os
