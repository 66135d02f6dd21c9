import X11Os.Scheduler.Invariant

/-!
# The owner of the CPU is the running task

The scheduler keeps the owner of the CPU and the states of the tasks apart.  Six operations hand the CPU over and
leave it with a running task or with none; every other operation leaves the running task as it is, except `make_ready`
on the owner of the CPU, which queues the task that is still running.  So a run in which that does not happen is
exactly one after every step of which the owner of the CPU is the running task.
-/

namespace X11Os

open Word

namespace Scheduler

/-- The owner of the CPU is the running task. -/
def OwnerRuns (s : Scheduler) : Prop := ∀ id, s.current = some id ↔ s.state id = some .running

/-- The operations that hand the CPU over. -/
def Op.handsOver : Op → Bool
  | .scheduleNext => true
  | .blockCurrent => true
  | .blockCurrentOn _ => true
  | .sleepCurrentUntil _ _ => true
  | .exitCurrent => true
  | .terminateCurrentTo _ => true
  | _ => false

/-! ### Tasks that stay in their state -/

/-- The tasks in state `st` stay in it. -/
def Undisturbed (st : TaskState) (s s' : Scheduler) : Prop := ∀ id, s.state id = some st → s'.state id = some st

namespace Undisturbed

variable {st : TaskState} {s s' s'' : Scheduler}

theorem refl (s : Scheduler) : Undisturbed st s s := fun _ h => h

theorem trans (h : Undisturbed st s s') (h' : Undisturbed st s' s'') : Undisturbed st s s'' :=
  fun id hid => h' id (h id hid)

/-- Another task changes its state. -/
theorem of_update {id : TaskId} {x : Option TaskState} (hstate : s'.state = Function.update s.state id x)
    (hid : s.state id ≠ some st) : Undisturbed st s s' := by
  intro k hk
  have hne : k ≠ id := by
    rintro rfl
    exact hid hk
  rw [hstate, Function.update_of_ne hne, hk]

end Undisturbed

section Operations

variable {s : Scheduler}

theorem createTaskWithKind_undisturbed (st : TaskState) (priority : Priority) (kind : TaskKind) :
    Undisturbed st s (s.createTaskWithKind priority kind).1 := by
  rcases hr : s.createTaskWithKind priority kind with ⟨s', id⟩
  obtain ⟨htask | ⟨hfresh, htask⟩, -, -⟩ := createTaskWithKind_task hr
  · intro k hk
    rwa [state, htask, ← state]
  · exact .of_update (state_of_task_update htask) (by simp [state, hfresh])

theorem attachExecution_undisturbed (st : TaskState) (id : TaskId) : Undisturbed st s (s.attachExecution id).1 := by
  rcases s.attachExecution_cases id with ⟨e, h⟩ | ⟨t, ht, -, h⟩
  · rw [h]
    exact .refl s
  · have hstate := state_of_task_update (task_setTask ht { t with execution := some (.forTask id) } rfl)
    rw [Option.map_some, ← state_of_task ht, Function.update_eq_self] at hstate
    rw [h]
    intro k hk
    rw [hstate, hk]

theorem destroyCreated_undisturbed {st : TaskState} (hst : st ≠ .created) (id : TaskId) :
    Undisturbed st s (s.destroyCreated id).1 := by
  rcases s.destroyCreated_cases id with ⟨e, h⟩ | ⟨t, handle, ht, hcreated, -, h⟩
  · rw [h]
    exact .refl s
  · rw [h]
    exact .of_update (state_clearSlot ht) (by simpa [state_of_task ht, hcreated] using hst.symm)

/-- A task that becomes ready and is queued. -/
theorem enqueue_undisturbed {st : TaskState} {id : TaskId} {t : TaskControlBlock} (ht : s.task id = some t)
    (hst : t.state ≠ st) (ready : RunQueue) : Undisturbed st s { s.setTask { t with state := .ready } with ready } :=
  .of_update (state_setState ht .ready) (by simpa [state_of_task ht] using hst)

theorem makeReady_undisturbed {st : TaskState} {id : TaskId} (hid : s.state id ≠ some st) :
    Undisturbed st s (s.makeReady id).1 := by
  rcases s.makeReady_cases id with h | ⟨t, ht, -, -, h⟩
  · rw [h]
    exact .refl s
  · rw [h]
    exact enqueue_undisturbed ht (fun hst => hid (by rw [state_of_task ht, hst])) _

/-! ### Operations that leave the running task alone -/

/-- The CPU has the same owner, and a task that was running is running. -/
structure KeepsRunning (s s' : Scheduler) : Prop where
  current : s'.current = s.current
  running : Undisturbed .running s s'

private theorem KeepsRunning.refl (s : Scheduler) : KeepsRunning s s := ⟨rfl, .refl s⟩

private theorem KeepsRunning.trans {s s' s'' : Scheduler} (h : KeepsRunning s s') (h' : KeepsRunning s' s'') :
    KeepsRunning s s'' :=
  ⟨h'.current.trans h.current, h.running.trans h'.running⟩

private theorem createTaskWithKind_keepsRunning (priority : Priority) (kind : TaskKind) :
    KeepsRunning s (s.createTaskWithKind priority kind).1 :=
  ⟨(createTaskWithKind_task rfl).2.2, createTaskWithKind_undisturbed .running priority kind⟩

private theorem attachExecution_keepsRunning (id : TaskId) : KeepsRunning s (s.attachExecution id).1 := by
  refine ⟨?_, attachExecution_undisturbed .running id⟩
  rcases s.attachExecution_cases id with ⟨e, h⟩ | ⟨t, ht, -, h⟩ <;> rw [h]
  rfl

private theorem destroyCreated_keepsRunning (id : TaskId) : KeepsRunning s (s.destroyCreated id).1 := by
  refine ⟨?_, destroyCreated_undisturbed (by decide) id⟩
  rcases s.destroyCreated_cases id with ⟨e, h⟩ | ⟨t, handle, ht, -, -, h⟩ <;> rw [h]
  rfl

private theorem makeReady_keepsRunning {id : TaskId} (hs : s.view.Sound) (hid : s.current ≠ some id) :
    KeepsRunning s (s.makeReady id).1 := by
  refine ⟨?_, makeReady_undisturbed fun hrunning => hid (hs.running id hrunning)⟩
  rcases s.makeReady_cases id with h | ⟨t, ht, -, -, h⟩ <;> rw [h]
  rfl

private theorem wakeOne_keepsRunning (hs : s.view.Sound) (waiters : WaitQueue) :
    KeepsRunning s (s.wakeOne waiters).1 := by
  rw [wakeOne]
  rcases wakeOneLoop_cases hs waiters.queue with ⟨h, -⟩ | ⟨passed, id, rest, t, -, -, ht, hst, h⟩
  · rw [h]
    exact .refl s
  · rw [h]
    exact ⟨rfl, enqueue_undisturbed ht (by rw [hst]; decide) _⟩

private theorem wakeSleepers_keepsRunning (expired : List TaskId) : KeepsRunning s (s.wakeSleepers expired).1 := by
  induction expired generalizing s with
  | nil => exact .refl s
  | cons id rest ih =>
    have hone : KeepsRunning s (s.wakeSleeper id).1 := by
      rcases s.wakeSleeper_cases id with h | ⟨t, ht, hst, h⟩
      · rw [h]
        exact .refl s
      · rw [h]
        exact ⟨rfl, enqueue_undisturbed ht (by rw [hst]; decide) _⟩
    unfold wakeSleepers
    rcases hw : s.wakeSleeper id with ⟨s', woken⟩
    rw [hw] at hone
    cases woken <;> exact hone.trans ih

private theorem perform_keepsRunning (hs : s.view.Sound) {op : Op} (hop : op.handsOver = false)
    (howner : ∀ id, op = .makeReady id → s.current ≠ some id) : KeepsRunning s (s.perform op) := by
  cases op with
  | createTask priority => exact createTaskWithKind_keepsRunning priority .kernel
  | createUserTask priority => exact createTaskWithKind_keepsRunning priority .userspace
  | attachExecution id => exact attachExecution_keepsRunning id
  | destroyCreated id => exact destroyCreated_keepsRunning id
  | makeReady id => exact makeReady_keepsRunning hs (howner id rfl)
  | wakeOne waiters => exact wakeOne_keepsRunning hs waiters
  | expireSleepers now sleepers => exact wakeSleepers_keepsRunning (sleepers.expireUntil now).2
  | terminateCurrentTo successor => cases hop
  | scheduleNext => cases hop
  | blockCurrentOn waiters => cases hop
  | blockCurrent => cases hop
  | sleepCurrentUntil deadline sleepers => cases hop
  | exitCurrent => cases hop

/-! ### Operations that hand the CPU over -/

/-- An operation that hands the CPU over leaves it with a running task, or does nothing. -/
private theorem perform_handsOver (hs : s.view.Sound) (howner : s.OwnerRuns) {op : Op} (hop : op.handsOver = true)
    {id : TaskId} (h : (s.perform op).current = some id) : (s.perform op).state id = some .running := by
  have hsame : ∀ {s' : Scheduler}, s' = s → s'.current = some id → s'.state id = some .running := by
    rintro s' rfl hcurrent
    exact (howner id).mp hcurrent
  cases op with
  | createTask priority => cases hop
  | createUserTask priority => cases hop
  | attachExecution id => cases hop
  | destroyCreated id => cases hop
  | makeReady id => cases hop
  | wakeOne waiters => cases hop
  | expireSleepers now sleepers => cases hop
  | terminateCurrentTo successor =>
    cases hok : (s.terminateCurrentTo successor).2 with
    | error e => exact hsame (terminateCurrentTo_error hok) h
    | ok id' => exact terminateCurrentTo_running hok h
  | scheduleNext => exact scheduleNext_running hs h
  | blockCurrentOn waiters =>
    rw [perform] at h ⊢
    rcases s.blockCurrentOn_cases waiters with ⟨e, hcase⟩ | ⟨k, t, -, -, -, -, hcase⟩
    · rw [hcase] at h ⊢
      exact hsame rfl h
    · rw [hcase] at h
      cases h
  | blockCurrent =>
    rw [perform] at h ⊢
    rcases s.blockCurrent_cases with hcase | ⟨k, t, -, -, -, hcase⟩
    · rw [hcase] at h ⊢
      exact hsame rfl h
    · rw [hcase] at h
      cases h
  | sleepCurrentUntil deadline sleepers =>
    rw [perform] at h ⊢
    rcases s.sleepCurrentUntil_cases deadline sleepers with ⟨e, hcase⟩ | ⟨k, t, -, -, -, -, hcase⟩
    · rw [hcase] at h ⊢
      exact hsame rfl h
    · rw [hcase] at h
      cases h
  | exitCurrent =>
    rw [perform] at h ⊢
    rcases s.exitCurrent_cases with hcase | ⟨k, t, -, -, -, hcase⟩
    · rw [hcase] at h ⊢
      exact hsame rfl h
    · rw [hcase] at h
      cases h

private theorem perform_ownerRuns (hs : s.view.Sound) (howner : s.OwnerRuns) {op : Op}
    (hop : ∀ id, op = .makeReady id → s.current ≠ some id) : (s.perform op).OwnerRuns := by
  refine fun id => ⟨fun h => ?_, ((perform_moves hs op).sound hs).running id⟩
  cases hover : op.handsOver with
  | true => exact perform_handsOver hs howner hover h
  | false =>
    have hkeeps := perform_keepsRunning hs hover hop
    rw [hkeeps.current] at h
    exact hkeeps.running id ((howner id).mp h)

/-- A running task that is made ready goes into the queue and keeps the CPU. -/
private theorem makeReady_owner (hs : s.view.Sound) {id : TaskId} (hcurrent : s.current = some id)
    (hrunning : s.state id = some .running) :
    (s.makeReady id).1.current = some id ∧ (s.makeReady id).1.state id = some .ready := by
  obtain ⟨t, ht, hst⟩ := task_of_state hrunning
  have hnot : id ∉ s.ready.queue := hs.notMem (by rw [view_state, hrunning]; simp)
  have hcontains : s.ready.contains id = false := by simpa [RunQueue.contains] using hnot
  have htr : t.transition .ready = ({ t with state := .ready }, true) :=
    TaskControlBlock.transition_of (by rw [hst]; rfl)
  have hmake : s.makeReady id =
      ({ s.setTask { t with state := .ready } with ready := ⟨s.ready.queue ++ [id]⟩ }, true) := by
    simp only [makeReady, hcontains, Bool.false_eq_true, if_false, ht, htr, RunQueue.push_of_notMem hnot]
  rw [hmake]
  exact ⟨hcurrent, (congrFun (state_setState ht .ready) id).trans (Function.update_self ..)⟩

end Operations

/-! ### Runs -/

/-- Over a run: after every operation the owner of the CPU is the running task, and only the operations that hand the
CPU over change the state of its owner. -/
structure OwnerRunsThroughout (ops : List Op) : Prop where
  owner : ∀ before after, ops = before ++ after → (run before).OwnerRuns
  kept : ∀ before op after id, ops = before ++ op :: after → op.handsOver = false → (run before).current = some id →
    ((run before).perform op).state id = (run before).state id

/-- The owner of the CPU is the running task throughout a run exactly when `make_ready` is never applied to the task
that owns the CPU. -/
theorem ownerRunsThroughout_iff (ops : List Op) :
    OwnerRunsThroughout ops ↔
      ∀ before id after, ops = before ++ .makeReady id :: after → (run before).current ≠ some id := by
  constructor
  · rintro h before id after hsplit hcurrent
    have hrunning := (h.owner before _ hsplit id).mp hcurrent
    have hkept := h.kept before _ after id hsplit rfl hcurrent
    rw [hrunning, perform, (makeReady_owner (run_sound before) hcurrent hrunning).2] at hkept
    cases hkept
  · intro h
    have howner : ∀ before after, ops = before ++ after → (run before).OwnerRuns := by
      intro before
      induction before using List.reverseRecOn with
      | nil =>
        intro after _ id
        simp [run, new, state, task]
      | append_singleton before op ih =>
        intro after hsplit
        rw [List.append_assoc] at hsplit
        rw [run_concat]
        refine perform_ownerRuns (run_sound before) (ih _ hsplit) ?_
        rintro id rfl
        exact h before id after hsplit
    refine ⟨howner, fun before op after id hsplit hover hcurrent => ?_⟩
    have hrunning := (howner before _ hsplit id).mp hcurrent
    have hkeeps := perform_keepsRunning (run_sound before) hover (by
      rintro id rfl
      exact h before id after hsplit)
    rw [hrunning, hkeeps.running id hrunning]

/-- The running owner of the CPU is made ready and keeps the CPU. -/
theorem owner_made_ready :
    ¬ (run [.createTask .default, .makeReady ⟨0, 1⟩, .scheduleNext, .makeReady ⟨0, 1⟩]).OwnerRuns := by
  intro h
  have hrunning := (h ⟨0, 1⟩).mp (by decide)
  revert hrunning
  decide

end Scheduler

end X11Os
