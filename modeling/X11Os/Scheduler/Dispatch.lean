import X11Os.Scheduler.Invariant

/-!
# Waiting and dispatching

Putting the current task to sleep and waking sleepers brings no task and takes none away, gives the CPU to nobody and
leaves the head of the ready queue where it is (`Keeps`).  A dispatch gives the CPU to that head (`Dispatched`), and
so does the end of the current task (`Terminated`).
-/

namespace X11Os

open Word

namespace Scheduler

/-- The tasks are numbered, the queue holds the ready tasks and the current task is running. -/
structure Settled (s : Scheduler) : Prop where
  numbered : s.Numbered
  sound : s.view.Sound
  running : ∀ id, s.current = some id → s.state id = some .running

theorem new_settled : new.Settled := ⟨new_numbered, new_sound, fun id h => by cases h⟩

theorem Settled.next_ready {s : Scheduler} (hs : s.Settled) {next : TaskId} (h : s.nextReady = some next) :
    s.state next = some .ready := by
  refine (hs.sound.mem_queue next).mp ?_
  exact List.mem_of_mem_head? h

theorem Settled.next_ne {s : Scheduler} (hs : s.Settled) {next : TaskId} (h : s.nextReady = some next) :
    s.current ≠ some next := by
  intro hcur
  have hrun := hs.running next hcur
  rw [hs.next_ready h] at hrun
  cases hrun

/-- The execution handle of a task does not change with its state. -/
private theorem execution_update {task : TaskId → Option TaskControlBlock} {id : TaskId} {t : TaskControlBlock}
    (ht : task id = some t) (st : TaskState) :
    (fun k => (Function.update task id (some { t with state := st }) k).bind TaskControlBlock.execution) =
      fun k => (task k).bind TaskControlBlock.execution := by
  funext k
  by_cases hk : k = id
  · rw [hk, Function.update_self, ht]
    rfl
  · rw [Function.update_of_ne hk]

private theorem execution_setState {s s' : Scheduler} {id : TaskId} {t : TaskControlBlock} {st : TaskState}
    (ht : s.task id = some t) (h : s'.task = Function.update s.task id (some { t with state := st })) :
    s'.execution = s.execution := by
  show (fun k => (s'.task k).bind TaskControlBlock.execution) = _
  rw [h]
  exact execution_update ht st

private theorem map_kind_update {task : TaskId → Option TaskControlBlock} {id : TaskId} {t : TaskControlBlock}
    (ht : task id = some t) (st : TaskState) :
    Option.map TaskControlBlock.kind ∘ Function.update task id (some { t with state := st }) =
      Option.map TaskControlBlock.kind ∘ task := by
  rw [Function.comp_update, Function.update_eq_iff]
  refine ⟨?_, fun _ _ => rfl⟩
  rw [Function.comp_apply, ht, Option.map_some, Option.map_some]

private theorem taskKind_setState {s s' : Scheduler} {id : TaskId} {t : TaskControlBlock} {st : TaskState}
    (ht : s.task id = some t) (h : s'.task = Function.update s.task id (some { t with state := st })) :
    s'.taskKind = s.taskKind := by
  show Option.map TaskControlBlock.kind ∘ s'.task = Option.map TaskControlBlock.kind ∘ s.task
  rw [h, map_kind_update ht]

/-! ### Waiting -/

structure Keeps (s s' : Scheduler) : Prop where
  numbered : s.Numbered → s'.Numbered
  sound : s.view.Sound → s'.view.Sound
  kind : s'.taskKind = s.taskKind
  execution : s'.execution = s.execution
  current : ∀ id, s'.current = some id → s.current = some id ∧
    (s.state id = some .running → s'.state id = some .running)
  queue : s.ready.queue <+: s'.ready.queue

namespace Keeps

variable {s s' s'' : Scheduler}

theorem refl (s : Scheduler) : Keeps s s := ⟨id, id, rfl, rfl, fun _ h => ⟨h, id⟩, List.prefix_rfl⟩

private theorem trans (h : Keeps s s') (h' : Keeps s' s'') : Keeps s s'' where
  numbered hs := h'.numbered (h.numbered hs)
  sound hs := h'.sound (h.sound hs)
  kind := h'.kind.trans h.kind
  execution := h'.execution.trans h.execution
  current id hid :=
    have ⟨hid', hrun'⟩ := h'.current id hid
    have ⟨hid'', hrun⟩ := h.current id hid'
    ⟨hid'', hrun' ∘ hrun⟩
  queue := h.queue.trans h'.queue

theorem settled (h : Keeps s s') (hs : s.Settled) : s'.Settled where
  numbered := h.numbered hs.numbered
  sound := h.sound hs.sound
  running id hid := (h.current id hid).2 (hs.running id (h.current id hid).1)

theorem nextReady (h : Keeps s s') {next : TaskId} (hnext : s.nextReady = some next) : s'.nextReady = some next := by
  obtain ⟨l, hl⟩ := h.queue
  show s'.ready.queue.head? = some next
  rw [← hl, List.head?_append, show s.ready.queue.head? = some next from hnext, Option.some_or]

end Keeps

theorem sleepCurrentUntil_keeps (s : Scheduler) (deadline : U64) (sleepers : SleepQueue) :
    Keeps s (s.sleepCurrentUntil deadline sleepers).1 := by
  have hnames := (s.sleepCurrentUntil_keepsNames deadline sleepers).sameNames
  have hmoves := s.sleepCurrentUntil_moves deadline sleepers
  rcases s.sleepCurrentUntil_cases deadline sleepers with ⟨e, h⟩ | ⟨id, t, -, ht, -, -, h⟩
  · rw [h]
    exact .refl s
  · have htask := task_setTask ht { t with state := .blocked } rfl
    rw [h] at hnames hmoves ⊢
    exact ⟨hnames.numbered, hmoves.sound, taskKind_setState ht htask, execution_setState ht htask,
      fun _ h => (by cases h), List.prefix_rfl⟩

theorem prefix_push (q : RunQueue) (id : TaskId) : q.queue <+: (q.push id).1.queue := by
  unfold RunQueue.push
  split_ifs
  · exact List.prefix_rfl
  · exact List.prefix_append _ _

private theorem wakeSleeper_keeps (s : Scheduler) (id : TaskId) : Keeps s (s.wakeSleeper id).1 := by
  have hnames := (s.wakeSleeper_keepsNames id).sameNames
  have hmoves := fun hs => wakeSleeper_moves (s := s) hs id
  rcases s.wakeSleeper_cases id with h | ⟨t, ht, hst, h⟩
  · rw [h]
    exact .refl s
  · have htask := task_setTask ht { t with state := .ready } rfl
    rw [h] at hnames hmoves ⊢
    refine ⟨hnames.numbered, fun hs => (hmoves hs).sound hs, taskKind_setState ht htask, execution_setState ht htask,
      fun id' hid' => ⟨hid', fun hrun => ?_⟩, prefix_push s.ready id⟩
    -- a task that is woken was not running
    have hne : id' ≠ id := by
      rintro rfl
      rw [state_of_task ht, hst] at hrun
      cases hrun
    show (s.setTask { t with state := .ready }).state id' = some .running
    rw [state_setState ht, Function.update_of_ne hne, hrun]

private theorem wakeSleepers_keeps (s : Scheduler) (expired : List TaskId) : Keeps s (s.wakeSleepers expired).1 := by
  induction expired generalizing s with
  | nil => exact .refl s
  | cons id rest ih =>
    have hone := s.wakeSleeper_keeps id
    unfold wakeSleepers
    rcases hw : s.wakeSleeper id with ⟨s', woken⟩
    rw [hw] at hone
    cases woken <;> exact hone.trans (ih s')

theorem expireSleepers_keeps (s : Scheduler) (now : U64) (sleepers : SleepQueue) :
    Keeps s (s.expireSleepers now sleepers).1 :=
  s.wakeSleepers_keeps (sleepers.expireUntil now).2

/-! ### Dispatching -/

structure Dispatched (s s' : Scheduler) (next : TaskId) : Prop where
  settled : s'.Settled
  kind : s'.taskKind = s.taskKind
  execution : s'.execution = s.execution
  current : s'.current = some next

private theorem Dispatched.of_running {s s' : Scheduler} (hs : s.Settled) (hnames : SameNames s s')
    (hmoves : Discipline.Moves s.view s'.view) {next : TaskId} (hcurrent : s'.current = some next)
    {t : TaskControlBlock} (ht : s'.task next = some t) (hst : t.state = .running) (hkind : s'.taskKind = s.taskKind)
    (hexecution : s'.execution = s.execution) : Dispatched s s' next := by
  refine ⟨⟨hnames.numbered hs.numbered, hmoves.sound hs.sound, fun id hid => ?_⟩, hkind, hexecution, hcurrent⟩
  rw [hcurrent, Option.some.injEq] at hid
  rw [← hid, state_of_task ht, hst]

theorem scheduleNext_dispatched {s : Scheduler} (hs : s.Settled) {next : TaskId} (h : s.nextReady = some next) :
    ∃ s', s.scheduleNext = (s', ⟨s.current, some next⟩) ∧ Dispatched s s' next := by
  obtain ⟨rest, hq⟩ := List.head?_eq_some_iff.mp h
  obtain ⟨t', ht', hst'⟩ := task_of_state (hs.next_ready h)
  have hmoves := scheduleNext_moves hs.sound
  cases hcur : s.current with
  | none =>
    obtain ⟨s', hok, htask, -, hcurrent, hnames⟩ := scheduleNext_idle_spec hcur hq ht' hst'
    rw [hok] at hmoves
    exact ⟨s', hok, .of_running hs hnames hmoves hcurrent (by rw [htask, Function.update_self]) rfl
      (taskKind_setState ht' htask) (execution_setState ht' htask)⟩
  | some current =>
    have hrun := hs.running current hcur
    obtain ⟨t, ht, hst⟩ := task_of_state hrun
    have hnot : current ∉ s.ready.queue := hs.sound.notMem (by rw [view_state, hrun]; decide)
    obtain ⟨s', hok, htask, -, hcurrent, hnames⟩ := scheduleNext_running_spec hcur ht hst hnot hq ht' hst'
    rw [hok] at hmoves
    have hne : next ≠ current := by
      rintro rfl
      exact hs.next_ne h hcur
    have hnext : Function.update s.task current (some { t with state := .ready }) next = some t' := by
      rw [Function.update_of_ne hne, ht']
    refine ⟨s', hok, .of_running hs hnames hmoves hcurrent (by rw [htask, Function.update_self]) rfl ?_ ?_⟩
    · show Option.map TaskControlBlock.kind ∘ s'.task = Option.map TaskControlBlock.kind ∘ s.task
      rw [htask, map_kind_update hnext, map_kind_update ht]
    · show (fun k => (s'.task k).bind TaskControlBlock.execution) =
        fun k => (s.task k).bind TaskControlBlock.execution
      rw [htask, execution_update hnext, execution_update ht]

/-! ### Exiting -/

theorem exitCurrent_settled {s : Scheduler} (hs : s.Settled) : s.exitCurrent.1.Settled where
  numbered := s.exitCurrent_sameNames.numbered hs.numbered
  sound := (exitCurrent_moves hs.sound).sound hs.sound
  running := by
    rcases s.exitCurrent_cases with h | ⟨id, t, -, -, -, h⟩
    · rw [h]
      exact hs.running
    · rw [h]
      rintro id ⟨⟩

/-! ### Terminating -/

/-- The current task is gone and the head of the queue runs in its place. -/
structure Terminated (s s' : Scheduler) (current successor : TaskId) : Prop where
  emptied : s'.tasks[current.index.toNat]? = some none
  running : ∃ t, s.task successor = some t ∧ s'.task successor = some { t with state := .running }
  queue : s.ready.queue = successor :: s'.ready.queue
  others : ∀ i, i ≠ current.index.toNat → i ≠ successor.index.toNat → s'.tasks[i]? = s.tasks[i]?
  generations : s'.generations = s.generations
  current : s'.current = some successor

/-- In every scheduler, reachable or not: a refused termination changes nothing, and one that is carried out is
exactly that. -/
theorem terminateCurrentTo_atomic (s : Scheduler) (successor : TaskId) :
    (∀ e, (s.terminateCurrentTo successor).2 = .error e → (s.terminateCurrentTo successor).1 = s) ∧
    ∀ id, (s.terminateCurrentTo successor).2 = .ok id → id = successor ∧
      ∃ current, s.current = some current ∧ Terminated s (s.terminateCurrentTo successor).1 current successor := by
  rcases s.terminateCurrentTo_cases successor with
    ⟨e, h⟩ | ⟨current, rest, t, t', hcur, hne, hq, ht, -, ht', -, h⟩
  · rw [h]
    exact ⟨fun _ _ => rfl, nofun⟩
  · rw [h]
    refine ⟨nofun, fun id hok => ⟨(Except.ok.inj hok).symm, current, hcur, ?_⟩⟩
    have hclear : (s.clearSlot current.index.toNat).task successor = some t' := by
      rw [task_clearSlot ht, Function.update_of_ne (Ne.symm hne), ht']
    obtain ⟨hslot, -⟩ := task_eq_some.mp ht
    have hlt : current.index.toNat < s.tasks.length := (List.getElem?_eq_some_iff.mp hslot).1
    -- the two tasks are live under different names, so they have different slots
    have hslots : successor.index.toNat ≠ current.index.toNat := by
      intro hsame
      have hslot' := (task_eq_some.mp hclear).1
      rw [hsame, clearSlot, List.getElem?_set_self hlt] at hslot'
      cases hslot'
    have htasks : ((s.clearSlot current.index.toNat).setTask { t' with state := .running }).tasks =
        (s.tasks.set current.index.toNat none).set successor.index.toNat (some { t' with state := .running }) := by
      rw [setTask, clearSlot, task_id ht']
    refine ⟨?_, ⟨t', ht', ?_⟩, hq, fun i hi hi' => ?_, rfl, rfl⟩
    · show ((s.clearSlot current.index.toNat).setTask { t' with state := .running }).tasks[_]? = _
      rw [htasks, List.getElem?_set_ne hslots, List.getElem?_set_self hlt]
    · show ((s.clearSlot current.index.toNat).setTask { t' with state := .running }).task successor = _
      rw [task_setTask hclear { t' with state := .running } rfl, Function.update_self]
    · show ((s.clearSlot current.index.toNat).setTask { t' with state := .running }).tasks[i]? = _
      rw [htasks, List.getElem?_set_ne (Ne.symm hi'), List.getElem?_set_ne (Ne.symm hi)]

/-! ### Schedulers in any state -/

/-- The task that goes back to the queue does not touch the head of the queue. -/
private theorem requeuePrevious_head {s : Scheduler} {id : TaskId} (hnext : s.nextReady = some id)
    (hne : s.current ≠ some id) :
    s.requeuePrevious.nextReady = some id ∧ s.requeuePrevious.task id = s.task id := by
  rcases s.requeuePrevious_cases with ⟨h, -⟩ | ⟨previous, t, hcur, ht, -, h⟩
  · rw [h]
    exact ⟨hnext, rfl⟩
  · have hother : id ≠ previous := by
      rintro rfl
      exact hne hcur
    rw [h]
    constructor
    · obtain ⟨l, hl⟩ := prefix_push s.ready previous
      show (s.ready.push previous).1.queue.head? = some id
      rw [← hl, List.head?_append, show s.ready.queue.head? = some id from hnext, Option.some_or]
    · show (s.setTask { t with state := .ready }).task id = s.task id
      rw [task_setTask ht { t with state := .ready } rfl, Function.update_of_ne hother]

/-- The head of the queue gets the CPU if its task is ready, and otherwise nobody does. -/
private theorem dispatchHead_current {s : Scheduler} {id : TaskId} (hnext : s.nextReady = some id)
    (previous : Option TaskId) :
    (s.dispatchHead previous).1.current = (if s.state id = some .ready then some id else none) ∧
      (s.dispatchHead previous).2 = ⟨previous, (s.dispatchHead previous).1.current⟩ := by
  have hpop : s.ready.pop.2 = some id := hnext
  refine ⟨?_, rfl⟩
  simp only [dispatchHead, hpop]
  cases ht : ({ s with ready := s.ready.pop.1 } : Scheduler).task id with
  | none =>
    rw [if_neg]
    rw [show s.state id = _ from congrArg (Option.map TaskControlBlock.state) ht]
    exact fun h => by cases h
  | some t =>
    rw [state_of_task (show s.task id = some t from ht)]
    cases hst : t.state <;> simp [TaskControlBlock.transition, TaskState.canBecome, hst]

/-- With somebody else at the head of the queue, the task that goes back to it is not the only one there. -/
private theorem scheduleNext_eq_dispatchHead {s : Scheduler} {id : TaskId} (hnext : s.nextReady = some id)
    (hne : s.current ≠ some id) : s.scheduleNext = s.requeuePrevious.dispatchHead s.current := by
  obtain ⟨hhead, -⟩ := requeuePrevious_head hnext hne
  unfold scheduleNext
  cases hcur : s.current with
  | none => rfl
  | some previous =>
    refine if_neg fun hlast => hne ?_
    rw [hcur, ← hlast.2]
    exact hhead

/-- Whoever is at the head of the queue and does not own the CPU gets it, if it is ready. -/
theorem scheduleNext_of_head {s : Scheduler} {id : TaskId} (hnext : s.nextReady = some id)
    (hne : s.current ≠ some id) :
    ∃ s', s.scheduleNext = (s', ⟨s.current, s'.current⟩) ∧
      s'.current = if s.state id = some .ready then some id else none := by
  obtain ⟨hhead, htask⟩ := requeuePrevious_head hnext hne
  obtain ⟨hcurrent, hdecision⟩ := dispatchHead_current hhead s.current
  rw [state, htask] at hcurrent
  exact ⟨_, by rw [scheduleNext_eq_dispatchHead hnext hne, ← hdecision], hcurrent⟩

theorem scheduleNext_of_ready_head {s : Scheduler} {id : TaskId} (hnext : s.nextReady = some id)
    (hne : s.current ≠ some id) (hready : s.state id = some .ready) :
    ∃ s', s.scheduleNext = (s', ⟨s.current, some id⟩) ∧ s'.current = some id ∧ s'.taskKind id = s.taskKind id := by
  obtain ⟨hhead, htask⟩ := requeuePrevious_head hnext hne
  obtain ⟨t, ht, hst⟩ := task_of_state hready
  obtain ⟨rest, hq⟩ := List.head?_eq_some_iff.mp hhead
  have ht' : s.requeuePrevious.task id = some t := htask.trans ht
  refine ⟨_, (scheduleNext_eq_dispatchHead hnext hne).trans (dispatchHead_of_ready s.current hq ht' hst), rfl, ?_⟩
  show Option.map TaskControlBlock.kind ((s.requeuePrevious.setTask { t with state := .running }).task id) = _
  rw [task_setTask ht' { t with state := .running } rfl, Function.update_self, taskKind, ht]
  rfl

end Scheduler

end X11Os
