import Mathlib.Data.List.Induction
import Mathlib.Order.Basic
import X11Os.Scheduler.Discipline
import X11Os.Scheduler.Identity

/-!
# The scheduler follows the ready discipline

Every operation of the scheduler is a sequence of moves of the ready discipline on what the scheduler shows of itself
(`Scheduler.view`), whatever its arguments are: stale names, names that were never issued, wait and sleep queues with
arbitrary contents.  So the discipline's soundness holds after every run of operations from the empty scheduler.
-/

namespace X11Os

open Word Discipline

namespace Scheduler

def view (s : Scheduler) : Discipline TaskId :=
  { state := s.state, queue := s.ready.queue, current := s.current }

@[simp] theorem view_state (s : Scheduler) : s.view.state = s.state := rfl

@[simp] theorem view_queue (s : Scheduler) : s.view.queue = s.ready.queue := rfl

theorem state_of_task {s : Scheduler} {id : TaskId} {t : TaskControlBlock} (h : s.task id = some t) :
    s.state id = some t.state := by
  rw [state, h, Option.map_some]

theorem task_of_state {s : Scheduler} {id : TaskId} {st : TaskState} (h : s.state id = some st) :
    ∃ t, s.task id = some t ∧ t.state = st :=
  Option.map_eq_some_iff.mp h

private theorem state_eq_comp (s : Scheduler) : s.state = Option.map TaskControlBlock.state ∘ s.task := rfl

theorem state_of_task_update {s s' : Scheduler} {id : TaskId} {t : Option TaskControlBlock}
    (h : s'.task = Function.update s.task id t) :
    s'.state = Function.update s.state id (t.map TaskControlBlock.state) := by
  rw [state_eq_comp, h, Function.comp_update, state_eq_comp]

theorem state_setState {s : Scheduler} {id : TaskId} {t : TaskControlBlock} (ht : s.task id = some t)
    (st : TaskState) : (s.setTask { t with state := st }).state = Function.update s.state id (some st) :=
  state_of_task_update (task_setTask ht { t with state := st } rfl)

theorem state_clearSlot {s : Scheduler} {id : TaskId} {t : TaskControlBlock} (ht : s.task id = some t) :
    (s.clearSlot id.index.toNat).state = Function.update s.state id none :=
  state_of_task_update (task_clearSlot ht)

/-! ### One operation -/

section Operations

variable {s : Scheduler}

private theorem createTaskWithKind_moves (priority : Priority) (kind : TaskKind) :
    Moves s.view (s.createTaskWithKind priority kind).1.view := by
  rcases hr : s.createTaskWithKind priority kind with ⟨s', id⟩
  obtain ⟨htask, hready, hcur⟩ := createTaskWithKind_task hr
  show Moves s.view ⟨s'.state, s'.ready.queue, s'.current⟩
  rw [hready, hcur]
  rcases htask with htask | ⟨hfresh, htask⟩
  · have hstate : s'.state = s.state := by rw [state_eq_comp, htask, state_eq_comp]
    rw [hstate]
    exact .refl
  · have hstate : s'.state = Function.update s.state id (some .created) := by
      rw [state_of_task_update htask, Option.map_some, newBlock_state]
    have hnone : s.view.state id = none := by
      show (s.task id).map _ = none
      rw [hfresh, Option.map_none]
    rw [hstate]
    exact .single (.create hnone)

private theorem attachExecution_moves (id : TaskId) : Moves s.view (s.attachExecution id).1.view := by
  rcases s.attachExecution_cases id with ⟨e, h⟩ | ⟨t, ht, -, h⟩
  · rw [h]
  · have hstate : (s.setTask { t with execution := some (.forTask id) }).state = s.state := by
      refine (state_of_task_update (task_setTask ht { t with execution := some (.forTask id) } rfl)).trans ?_
      rw [Option.map_some, ← state_of_task ht, Function.update_eq_self]
    rw [h]
    show Moves s.view ⟨(s.setTask _).state, s.ready.queue, s.current⟩
    rw [hstate]
    exact .refl

private theorem destroyCreated_moves (id : TaskId) : Moves s.view (s.destroyCreated id).1.view := by
  rcases s.destroyCreated_cases id with ⟨e, h⟩ | ⟨t, handle, ht, hst, -, h⟩
  · rw [h]
  · rw [h]
    show Moves s.view ⟨(s.clearSlot id.index.toNat).state, s.ready.queue, s.current⟩
    rw [state_clearSlot ht]
    exact .single (.destroy (hst ▸ state_of_task ht))

private theorem makeReady_moves (id : TaskId) : Moves s.view (s.makeReady id).1.view := by
  rcases s.makeReady_cases id with h | ⟨t, ht, hst, -, h⟩
  · rw [h]
  · rw [h]
    show Moves s.view ⟨(s.setTask _).state, s.ready.queue ++ [id], s.current⟩
    rw [state_setState ht]
    exact .single (.enqueue (state_of_task ht) hst)

/-- Removing the running task and running the head of the queue. -/
private theorem terminateCurrentTo_moves (hs : s.view.Sound) (successor : TaskId) :
    Moves s.view (s.terminateCurrentTo successor).1.view := by
  rcases s.terminateCurrentTo_cases successor with
    ⟨e, h⟩ | ⟨current, rest, t, t', hcur, hne, hq, ht, hst, ht', hst', h⟩
  · rw [h]
  · have hexit : Move s.view ⟨Function.update s.state current none, s.ready.queue, none⟩ :=
      .exit (hst ▸ state_of_task ht)
    have hidle : Idle ⟨Function.update s.state current none, s.ready.queue, none⟩ :=
      (hexit.sound hs).idle_of_owner (fun id hid => by cases hid)
    have hclear : (s.clearSlot current.index.toNat).task successor = some t' := by
      rw [task_clearSlot ht, Function.update_of_ne (Ne.symm hne), ht']
    rw [h]
    show Moves s.view ⟨((s.clearSlot current.index.toNat).setTask _).state, rest, some successor⟩
    rw [state_setState hclear, state_clearSlot ht]
    exact .tail (.single hexit) (.dispatch hq hidle)

theorem terminateCurrentTo_error {successor : TaskId} {e : SchedulerError}
    (herr : (s.terminateCurrentTo successor).2 = .error e) : (s.terminateCurrentTo successor).1 = s := by
  rcases s.terminateCurrentTo_cases successor with ⟨e', h⟩ | ⟨current, rest, t, t', -, -, -, -, -, -, -, h⟩
  · rw [h]
  · rw [h] at herr
    cases herr

theorem terminateCurrentTo_running {successor id id' : TaskId} (hok : (s.terminateCurrentTo successor).2 = .ok id')
    (hid : (s.terminateCurrentTo successor).1.current = some id) :
    (s.terminateCurrentTo successor).1.state id = some .running := by
  rcases s.terminateCurrentTo_cases successor with
    ⟨e, h⟩ | ⟨current, rest, t, t', -, hne, -, ht, -, ht', -, h⟩
  · rw [h] at hok
    cases hok
  · have hclear : (s.clearSlot current.index.toNat).task successor = some t' := by
      rw [task_clearSlot ht, Function.update_of_ne (Ne.symm hne), ht']
    rw [h] at hid ⊢
    rw [← Option.some.inj hid]
    exact (congrFun (state_setState hclear .running) successor).trans (Function.update_self ..)

/-- The current task goes back to the queue if it was running; after that no task is running. -/
theorem requeuePrevious_moves (hs : s.view.Sound) :
    Moves s.view s.requeuePrevious.view ∧ s.requeuePrevious.view.Idle := by
  rcases s.requeuePrevious_cases with ⟨h, hrun⟩ | ⟨id, t, hcur, ht, hst, h⟩
  · rw [h]
    exact ⟨.refl, hs.idle_of_owner hrun⟩
  · have hrun : s.state id = some .running := hst ▸ state_of_task ht
    have hpush : (s.ready.push id).1 = ⟨s.ready.queue ++ [id]⟩ := by
      rw [RunQueue.push_of_notMem (hs.notMem (by simp [hrun]))]
    have hmove : Move s.view ⟨Function.update s.state id (some .ready), s.ready.queue ++ [id], s.current⟩ :=
      .enqueue hrun rfl
    have hview : s.requeuePrevious.view =
        ⟨Function.update s.state id (some .ready), s.ready.queue ++ [id], s.current⟩ := by
      rw [h, hpush, ← state_setState ht]
      rfl
    rw [hview]
    refine ⟨.single hmove, (hmove.sound hs).idle_of_owner fun id' hid' => ?_⟩
    have : some id = some id' := hcur.symm.trans hid'
    rw [← Option.some.inj this]
    simp

/-- What `schedule_next` does after the requeue, once the queue holds exactly the ready tasks: its head runs. -/
theorem scheduleNext_of_cons (hs : s.view.Sound) {id : TaskId} {rest : List TaskId}
    (hq : s.requeuePrevious.ready.queue = id :: rest) :
    s.scheduleNext.1.view = ⟨Function.update s.requeuePrevious.state id (some .running), rest, some id⟩ := by
  have hsound : s.requeuePrevious.view.Sound := (requeuePrevious_moves hs).1.sound hs
  have hready : s.requeuePrevious.state id = some .ready :=
    (hsound.mem_queue id).mp (by rw [view_queue, hq]; exact List.mem_cons_self)
  obtain ⟨t, ht, hst⟩ := task_of_state hready
  have hdispatch : ∀ previous, (s.requeuePrevious.dispatchHead previous).1.view =
      ⟨Function.update s.requeuePrevious.state id (some .running), rest, some id⟩ := by
    intro previous
    rw [dispatchHead_of_ready previous hq ht hst, ← state_setState ht]
    rfl
  unfold scheduleNext
  dsimp only
  split
  · exact hdispatch _
  · rename_i previous hcur
    split_ifs with hself
    · have hprev : previous = id := by
        have := hself.2
        rw [RunQueue.peek, hq, List.head?_cons, Option.some.injEq] at this
        exact this.symm
      rw [hprev, keepPrevious_of_ready hq ht hst, ← state_setState ht]
      rfl
    · exact hdispatch _

theorem scheduleNext_of_nil (hq : s.requeuePrevious.ready.queue = []) :
    s.scheduleNext.1 = { s.requeuePrevious with current := none } := by
  unfold scheduleNext
  dsimp only
  split
  · rw [dispatchHead_of_empty _ hq]
  · split_ifs with hself
    · have := hself.2
      rw [RunQueue.peek, hq] at this
      cases this
    · rw [dispatchHead_of_empty _ hq]

theorem scheduleNext_running (hs : s.view.Sound) {id : TaskId} (hid : s.scheduleNext.1.current = some id) :
    s.scheduleNext.1.state id = some .running := by
  cases hq : s.requeuePrevious.ready.queue with
  | nil =>
    rw [scheduleNext_of_nil hq] at hid
    cases hid
  | cons k rest =>
    have hview := scheduleNext_of_cons hs hq
    have hk : some k = some id := (congrArg Discipline.current hview).symm.trans hid
    have hstate : s.scheduleNext.1.state = _ := congrArg Discipline.state hview
    rw [hstate, Option.some.inj hk]
    exact Function.update_self ..

theorem scheduleNext_moves (hs : s.view.Sound) : Moves s.view s.scheduleNext.1.view := by
  obtain ⟨hmoves, hidle⟩ := requeuePrevious_moves hs
  refine hmoves.trans (.single ?_)
  cases hq : s.requeuePrevious.ready.queue with
  | nil =>
    rw [scheduleNext_of_nil hq]
    exact .rest hidle
  | cons id rest =>
    rw [scheduleNext_of_cons hs hq]
    exact .dispatch hq hidle

private theorem block_move {id : TaskId} {t : TaskControlBlock} (ht : s.task id = some t) (hst : t.state = .running) :
    Moves s.view (view { s.setTask { t with state := .blocked } with current := none }) := by
  show Moves s.view ⟨(s.setTask _).state, s.ready.queue, none⟩
  rw [state_setState ht]
  exact .single (.block (hst ▸ state_of_task ht))

theorem blockCurrentOn_moves (waiters : WaitQueue) : Moves s.view (s.blockCurrentOn waiters).1.view := by
  rcases s.blockCurrentOn_cases waiters with ⟨e, h⟩ | ⟨id, t, -, ht, hst, -, h⟩
  · rw [h]
  · rw [h]
    exact block_move ht hst

private theorem blockCurrent_moves : Moves s.view s.blockCurrent.1.view := by
  rcases s.blockCurrent_cases with h | ⟨id, t, -, ht, hst, h⟩
  · rw [h]
  · rw [h]
    exact block_move ht hst

theorem sleepCurrentUntil_moves (deadline : U64) (sleepers : SleepQueue) :
    Moves s.view (s.sleepCurrentUntil deadline sleepers).1.view := by
  rcases s.sleepCurrentUntil_cases deadline sleepers with ⟨e, h⟩ | ⟨id, t, -, ht, hst, -, h⟩
  · rw [h]
  · rw [h]
    exact block_move ht hst

/-- A blocked task is not queued, so the push that follows its wake-up succeeds. -/
theorem push_blocked (hs : s.view.Sound) {id : TaskId} {t : TaskControlBlock} (ht : s.task id = some t)
    (hst : t.state = .blocked) : s.ready.push id = (⟨s.ready.queue ++ [id]⟩, true) := by
  refine RunQueue.push_of_notMem (hs.notMem ?_)
  rw [view_state, state_of_task ht, hst]
  simp

private theorem wake_move {id : TaskId} {t : TaskControlBlock} (ht : s.task id = some t) (hst : t.state = .blocked) :
    Moves s.view (view { s.setTask { t with state := .ready } with ready := ⟨s.ready.queue ++ [id]⟩ }) := by
  show Moves s.view ⟨(s.setTask _).state, s.ready.queue ++ [id], s.current⟩
  rw [state_setState ht]
  exact .single (.enqueue (state_of_task ht) (by rw [hst]; rfl))

/-- The loop passes over the waiters that are not blocked and wakes the first one that is. -/
theorem wakeOneLoop_cases (hs : s.view.Sound) (waiters : List TaskId) :
    (s.wakeOneLoop waiters = (s, ⟨[]⟩, none) ∧ ∀ id ∈ waiters, s.state id ≠ some .blocked) ∨
    ∃ passed id rest t, waiters = passed ++ id :: rest ∧ (∀ k ∈ passed, s.state k ≠ some .blocked) ∧
      s.task id = some t ∧ t.state = .blocked ∧
      s.wakeOneLoop waiters =
        ({ s.setTask { t with state := .ready } with ready := ⟨s.ready.queue ++ [id]⟩ }, ⟨rest⟩, some id) := by
  induction waiters with
  | nil => exact .inl ⟨rfl, by simp⟩
  | cons id rest ih =>
    by_cases hblocked : s.state id = some .blocked
    · obtain ⟨t, ht, hst⟩ := task_of_state hblocked
      have htr : t.transition .ready = ({ t with state := .ready }, true) :=
        TaskControlBlock.transition_of (by rw [hst]; rfl)
      have hpush : (s.setTask { t with state := .ready }).ready.push id = (⟨s.ready.queue ++ [id]⟩, true) :=
        push_blocked hs ht hst
      refine .inr ⟨[], id, rest, t, rfl, by simp, ht, hst, ?_⟩
      simp only [wakeOneLoop, ht, hst, ne_eq, not_true_eq_false, if_false, htr, hpush]
    · have hskip : s.wakeOneLoop (id :: rest) = s.wakeOneLoop rest := by
        cases ht : s.task id with
        | none => simp only [wakeOneLoop, ht]
        | some t =>
          have hst : t.state ≠ .blocked := fun hst => hblocked (by rw [state_of_task ht, hst])
          simp only [wakeOneLoop, ht, hst, ne_eq, not_false_eq_true, if_true]
      rw [hskip]
      rcases ih with ⟨h, hnone⟩ | ⟨passed, k, rest', t, hsplit, hpassed, ht, hst, h⟩
      · exact .inl ⟨h, List.forall_mem_cons.mpr ⟨hblocked, hnone⟩⟩
      · refine .inr ⟨id :: passed, k, rest', t, ?_, List.forall_mem_cons.mpr ⟨hblocked, hpassed⟩, ht, hst, h⟩
        rw [hsplit, List.cons_append]

theorem wakeOneLoop_moves (hs : s.view.Sound) (waiters : List TaskId) :
    Moves s.view (s.wakeOneLoop waiters).1.view := by
  rcases wakeOneLoop_cases hs waiters with ⟨h, -⟩ | ⟨passed, id, rest, t, -, -, ht, hst, h⟩
  · rw [h]
  · rw [h]
    exact wake_move ht hst

theorem wakeSleeper_moves (hs : s.view.Sound) (id : TaskId) : Moves s.view (s.wakeSleeper id).1.view := by
  rcases s.wakeSleeper_cases id with h | ⟨t, ht, hst, h⟩
  · rw [h]
  · rw [h, push_blocked hs ht hst]
    exact wake_move ht hst

theorem wakeSleepers_moves (hs : s.view.Sound) (expired : List TaskId) :
    Moves s.view (s.wakeSleepers expired).1.view := by
  induction expired generalizing s with
  | nil => exact .refl
  | cons id rest ih =>
    have hone := wakeSleeper_moves hs id
    unfold wakeSleepers
    rcases hw : s.wakeSleeper id with ⟨s', woken⟩
    rw [hw] at hone
    cases woken <;> exact hone.trans (ih (hone.sound hs))

/-- Only a running owner of the CPU can exit: one that has been queued again is refused. -/
theorem running_of_exit (hs : s.view.Sound) {id : TaskId} {t : TaskControlBlock} (hcur : s.current = some id)
    (ht : s.task id = some t) (hst : t.state.canBecome .exited = true) : s.state id = some .running := by
  rcases hs.owner id hcur with hrun | hready
  · exact hrun
  · have : t.state = .ready := Option.some.inj ((state_of_task ht).symm.trans hready)
    rw [this] at hst
    cases hst

theorem exitCurrent_moves (hs : s.view.Sound) : Moves s.view s.exitCurrent.1.view := by
  rcases s.exitCurrent_cases with h | ⟨id, t, hcur, ht, hst, h⟩
  · rw [h]
  · rw [h]
    show Moves s.view ⟨(s.clearSlot id.index.toNat).state, s.ready.queue, none⟩
    rw [state_clearSlot ht]
    exact .single (.exit (running_of_exit hs hcur ht hst))

end Operations

/-! ### Runs of operations -/

/-- A call of a public operation that may change the scheduler, with its arguments.  A wait queue or sleep queue is
an argument of its own: nothing ties it to the tasks it names. -/
inductive Op where
  | createTask (priority : Priority)
  | createUserTask (priority : Priority)
  | attachExecution (id : TaskId)
  | destroyCreated (id : TaskId)
  | makeReady (id : TaskId)
  | terminateCurrentTo (successor : TaskId)
  | scheduleNext
  | blockCurrentOn (waiters : WaitQueue)
  | blockCurrent
  | wakeOne (waiters : WaitQueue)
  | sleepCurrentUntil (deadline : U64) (sleepers : SleepQueue)
  | expireSleepers (now : U64) (sleepers : SleepQueue)
  | exitCurrent
deriving DecidableEq, Repr

def perform (s : Scheduler) : Op → Scheduler
  | .createTask priority => (s.createTask priority).1
  | .createUserTask priority => (s.createUserTask priority).1
  | .attachExecution id => (s.attachExecution id).1
  | .destroyCreated id => (s.destroyCreated id).1
  | .makeReady id => (s.makeReady id).1
  | .terminateCurrentTo successor => (s.terminateCurrentTo successor).1
  | .scheduleNext => s.scheduleNext.1
  | .blockCurrentOn waiters => (s.blockCurrentOn waiters).1
  | .blockCurrent => s.blockCurrent.1
  | .wakeOne waiters => (s.wakeOne waiters).1
  | .sleepCurrentUntil deadline sleepers => (s.sleepCurrentUntil deadline sleepers).1
  | .expireSleepers now sleepers => (s.expireSleepers now sleepers).1
  | .exitCurrent => s.exitCurrent.1

def run (ops : List Op) : Scheduler := ops.foldl perform new

theorem perform_moves {s : Scheduler} (hs : s.view.Sound) (op : Op) : Moves s.view (s.perform op).view := by
  cases op with
  | createTask priority => exact createTaskWithKind_moves priority .kernel
  | createUserTask priority => exact createTaskWithKind_moves priority .userspace
  | attachExecution id => exact attachExecution_moves id
  | destroyCreated id => exact destroyCreated_moves id
  | makeReady id => exact makeReady_moves id
  | terminateCurrentTo successor => exact terminateCurrentTo_moves hs successor
  | scheduleNext => exact scheduleNext_moves hs
  | blockCurrentOn waiters => exact blockCurrentOn_moves waiters
  | blockCurrent => exact blockCurrent_moves
  | wakeOne waiters => exact wakeOneLoop_moves hs waiters.queue
  | sleepCurrentUntil deadline sleepers => exact sleepCurrentUntil_moves deadline sleepers
  | expireSleepers now sleepers => exact wakeSleepers_moves hs (sleepers.expireUntil now).2
  | exitCurrent => exact exitCurrent_moves hs

/-! ### The invariant of every run -/

theorem new_sound : new.view.Sound where
  nodup := List.nodup_nil
  mem_queue id := by simp [new, RunQueue.new, state, task]
  running id h := by simp [new, state, task] at h
  owner id h := by cases h

theorem run_append (before after : List Op) : run (before ++ after) = after.foldl perform (run before) :=
  List.foldl_append ..

theorem run_concat (ops : List Op) (op : Op) : run (ops ++ [op]) = (run ops).perform op := run_append ops [op]

theorem run_sound (ops : List Op) : (run ops).view.Sound := by
  induction ops using List.reverseRecOn with
  | nil => exact new_sound
  | append_singleton ops op ih =>
    rw [run_concat]
    exact (perform_moves ih op).sound ih

/-- The scheduler has been reached by its operations. -/
def Reached (s : Scheduler) : Prop := ∃ ops, s = run ops

namespace Reached

variable {s : Scheduler}

theorem perform (h : s.Reached) (op : Op) : (s.perform op).Reached := by
  obtain ⟨ops, rfl⟩ := h
  exact ⟨ops ++ [op], (run_concat ops op).symm⟩

theorem of_perform (h : s.Reached) (op : Op) {s' : Scheduler} (heq : s.perform op = s') : s'.Reached :=
  heq ▸ h.perform op

theorem sound (h : s.Reached) : s.view.Sound := by
  obtain ⟨ops, rfl⟩ := h
  exact run_sound ops

end Reached

/-- How the scheduler's task states, its ready queue and its current task agree. -/
structure ReadyInvariant (s : Scheduler) : Prop where
  nodup : s.ready.queue.Nodup
  mem_queue : ∀ id, id ∈ s.ready.queue ↔ s.state id = some .ready
  running_unique : ∀ a b, s.state a = some .running → s.state b = some .running → a = b
  running_current : ∀ id, s.state id = some .running → s.current = some id
  current_live : ∀ id, s.current = some id → s.state id = some .running ∨ s.state id = some .ready

/-- What `schedule_next` does with the queue it pops, which is the ready queue after a running current task was put
back: its head becomes the running current task and the tail stays queued; only an empty queue leaves the CPU
without a task; no task disappears. -/
structure ScheduleNextExact (s : Scheduler) : Prop where
  head_runs : ∀ id rest, s.requeuePrevious.ready.queue = id :: rest →
    s.scheduleNext.1.current = some id ∧ s.scheduleNext.1.state id = some .running ∧
      s.scheduleNext.1.ready.queue = rest
  idle_iff_empty : s.scheduleNext.1.current = none ↔ s.requeuePrevious.ready.queue = []
  queue_kept : ∀ id, id ∈ s.ready.queue → id ∈ s.requeuePrevious.ready.queue
  none_lost : ∀ id, (s.scheduleNext.1.state id).isSome = (s.state id).isSome

private theorem ReadyInvariant.of_sound {s : Scheduler} (hs : s.view.Sound) : s.ReadyInvariant where
  nodup := hs.nodup
  mem_queue := hs.mem_queue
  running_unique a b ha hb := Option.some.inj ((hs.running a ha).symm.trans (hs.running b hb))
  running_current := hs.running
  current_live := hs.owner

private theorem requeuePrevious_isSome (s : Scheduler) (id : TaskId) :
    (s.requeuePrevious.state id).isSome = (s.state id).isSome := by
  rcases s.requeuePrevious_cases with ⟨h, -⟩ | ⟨k, t, -, ht, -, h⟩
  · rw [h]
  · have hstate : s.requeuePrevious.state = Function.update s.state k (some .ready) := by
      rw [h, ← state_setState ht]
      rfl
    rw [hstate]
    by_cases hk : id = k
    · simp [hk, state_of_task ht]
    · rw [Function.update_of_ne hk]

private theorem mem_requeuePrevious (s : Scheduler) {id : TaskId} (hmem : id ∈ s.ready.queue) :
    id ∈ s.requeuePrevious.ready.queue := by
  rcases s.requeuePrevious_cases with ⟨h, -⟩ | ⟨k, t, -, -, -, h⟩
  · rwa [h]
  · rw [h]
    show id ∈ (s.ready.push k).1.queue
    unfold RunQueue.push
    split
    · exact hmem
    · exact List.mem_append_left _ hmem

theorem ScheduleNextExact.of_sound {s : Scheduler} (hs : s.view.Sound) : s.ScheduleNextExact := by
  have hhead : ∀ id rest, s.requeuePrevious.ready.queue = id :: rest →
      s.scheduleNext.1.current = some id ∧ s.scheduleNext.1.state = Function.update s.requeuePrevious.state id
        (some .running) ∧ s.scheduleNext.1.ready.queue = rest := by
    intro id rest hq
    have hview := scheduleNext_of_cons hs hq
    exact ⟨congrArg Discipline.current hview, congrArg Discipline.state hview, congrArg Discipline.queue hview⟩
  refine ⟨fun id rest hq => ?_, ?_, fun id hmem => s.mem_requeuePrevious hmem, fun id => ?_⟩
  · obtain ⟨h1, h2, h3⟩ := hhead id rest hq
    exact ⟨h1, by rw [h2, Function.update_self], h3⟩
  · cases hq : s.requeuePrevious.ready.queue with
    | nil => simp [scheduleNext_of_nil hq]
    | cons id rest => simp [(hhead id rest hq).1]
  · rw [← s.requeuePrevious_isSome]
    cases hq : s.requeuePrevious.ready.queue with
    | nil =>
      rw [scheduleNext_of_nil hq]
      rfl
    | cons k rest =>
      have hsound : s.requeuePrevious.view.Sound := (requeuePrevious_moves hs).1.sound hs
      have hready : s.requeuePrevious.state k = some .ready :=
        (hsound.mem_queue k).mp (by rw [view_queue, hq]; exact List.mem_cons_self)
      rw [(hhead k rest hq).2.1]
      by_cases hk : id = k
      · simp [hk, hready]
      · rw [Function.update_of_ne hk]

/-- After every run of scheduler operations with arbitrary arguments the ready queue holds exactly the ready tasks,
each once, the running task is the current one, and `schedule_next` runs the head of the queue it pops. -/
theorem run_readyInvariant (ops : List Op) (_hslots : (run ops).tasks.length < 2 ^ 32) :
    (run ops).ReadyInvariant ∧ (run ops).ScheduleNextExact :=
  ⟨.of_sound (run_sound ops), .of_sound (run_sound ops)⟩

/-- Two tasks, the second queued behind the first; the running first task is queued again by `make_ready`. -/
theorem run_readyInvariant_requeued_current :
    (run [.createTask .default, .createUserTask .default, .makeReady ⟨0, 1⟩, .makeReady ⟨1, 1⟩, .scheduleNext,
        .makeReady ⟨0, 1⟩, .makeReady ⟨7, 3⟩]).ready.queue = [⟨1, 1⟩, ⟨0, 1⟩] ∧
    (run [.createTask .default, .createUserTask .default, .makeReady ⟨0, 1⟩, .makeReady ⟨1, 1⟩, .scheduleNext,
        .makeReady ⟨0, 1⟩, .makeReady ⟨7, 3⟩]).ReadyInvariant :=
  ⟨by decide, (run_readyInvariant _ (by decide)).1⟩

end Scheduler

end X11Os
