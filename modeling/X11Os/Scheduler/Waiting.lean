import X11Os.Scheduler.Owner

/-!
# Waiting and waking

The scheduler together with the wait queues and the sleep queue that its callers own.  The queues hold names and
the scheduler holds states; `WaitedOnce` says how they agree: a queued name is the name of a blocked task, and it
is queued once, in one queue.  Every call through the scheduler keeps this, so a wake-up always finds the waiter
it is meant for.
-/

namespace X11Os

open Word

namespace Scheduler

/-- The operations that borrow a wait queue or the sleep queue. -/
def Op.borrowsQueue : Op → Bool
  | .blockCurrentOn _ => true
  | .wakeOne _ => true
  | .sleepCurrentUntil _ _ => true
  | .expireSleepers _ _ => true
  | _ => false

section Operations

variable {s : Scheduler}

/-! ### Blocked tasks stay blocked -/

private theorem terminateCurrentTo_undisturbed {st : TaskState} (hrunning : st ≠ .running) (hready : st ≠ .ready)
    (successor : TaskId) : Undisturbed st s (s.terminateCurrentTo successor).1 := by
  rcases s.terminateCurrentTo_cases successor with
    ⟨e, h⟩ | ⟨current, rest, t, t', -, hne, -, ht, hst, ht', hst', h⟩
  · rw [h]
    exact .refl s
  · have hclear : (s.clearSlot current.index.toNat).task successor = some t' := by
      rw [task_clearSlot ht, Function.update_of_ne (Ne.symm hne), ht']
    have hexit : Undisturbed st s (s.clearSlot current.index.toNat) :=
      .of_update (state_clearSlot ht) (by simpa [state_of_task ht, hst] using hrunning.symm)
    have hdispatch : Undisturbed st (s.clearSlot current.index.toNat)
        ((s.clearSlot current.index.toNat).setTask { t' with state := .running }) :=
      .of_update (state_setState hclear .running) (by simpa [state_of_task hclear, hst'] using hready.symm)
    rw [h]
    exact hexit.trans hdispatch

private theorem scheduleNext_undisturbed {st : TaskState} (hs : s.view.Sound) (hrunning : st ≠ .running)
    (hready : st ≠ .ready) : Undisturbed st s s.scheduleNext.1 := by
  have hrequeue : Undisturbed st s s.requeuePrevious := by
    rcases s.requeuePrevious_cases with ⟨h, -⟩ | ⟨id, t, -, ht, hst, h⟩
    · rw [h]
      exact .refl s
    · rw [h]
      exact enqueue_undisturbed ht (by rw [hst]; exact hrunning.symm) _
  refine hrequeue.trans ?_
  cases hq : s.requeuePrevious.ready.queue with
  | nil =>
    rw [scheduleNext_of_nil hq]
    exact .refl s.requeuePrevious
  | cons id rest =>
    have hsound : s.requeuePrevious.view.Sound := (requeuePrevious_moves hs).1.sound hs
    have hid : s.requeuePrevious.state id = some .ready :=
      (hsound.mem_queue id).mp (by rw [view_queue, hq]; exact List.mem_cons_self)
    refine .of_update (congrArg Discipline.state (scheduleNext_of_cons hs hq)) ?_
    simpa [hid] using hready.symm

private theorem block_undisturbed {st : TaskState} (hrunning : st ≠ .running) {id : TaskId} {t : TaskControlBlock}
    (ht : s.task id = some t) (hst : t.state = .running) :
    Undisturbed st s { s.setTask { t with state := .blocked } with current := none } :=
  .of_update (state_setState ht .blocked) (by simpa [state_of_task ht, hst] using hrunning.symm)

private theorem blockCurrent_undisturbed {st : TaskState} (hrunning : st ≠ .running) :
    Undisturbed st s s.blockCurrent.1 := by
  rcases s.blockCurrent_cases with h | ⟨id, t, -, ht, hst, h⟩
  · rw [h]
    exact .refl s
  · rw [h]
    exact block_undisturbed hrunning ht hst

private theorem exitCurrent_undisturbed {st : TaskState} (hs : s.view.Sound) (hrunning : st ≠ .running) :
    Undisturbed st s s.exitCurrent.1 := by
  rcases s.exitCurrent_cases with h | ⟨id, t, hcur, ht, hst, h⟩
  · rw [h]
    exact .refl s
  · rw [h]
    refine .of_update (state_clearSlot ht) ?_
    simpa [running_of_exit hs hcur ht hst] using hrunning.symm

/-- The calls without a queue leave the blocked tasks alone, `make_ready` when it is applied to new tasks only. -/
private theorem perform_undisturbed (hs : s.view.Sound) {op : Op} (hop : op.borrowsQueue = false)
    (hcreated : ∀ id, op = .makeReady id → s.state id = some .created) : Undisturbed .blocked s (s.perform op) := by
  cases op with
  | createTask priority => exact createTaskWithKind_undisturbed .blocked priority .kernel
  | createUserTask priority => exact createTaskWithKind_undisturbed .blocked priority .userspace
  | attachExecution id => exact attachExecution_undisturbed .blocked id
  | destroyCreated id => exact destroyCreated_undisturbed (by decide) id
  | makeReady id => exact makeReady_undisturbed (by rw [hcreated id rfl]; decide)
  | terminateCurrentTo successor => exact terminateCurrentTo_undisturbed (by decide) (by decide) successor
  | scheduleNext => exact scheduleNext_undisturbed hs (by decide) (by decide)
  | blockCurrent => exact blockCurrent_undisturbed (by decide)
  | exitCurrent => exact exitCurrent_undisturbed hs (by decide)
  | blockCurrentOn waiters => cases hop
  | wakeOne waiters => cases hop
  | sleepCurrentUntil deadline sleepers => cases hop
  | expireSleepers now sleepers => cases hop

/-! ### Waking -/

/-- The oldest waiter is blocked, so it is the one that is woken. -/
private theorem wakeOne_of_blocked (hs : s.view.Sound) {id : TaskId} (h : s.state id = some .blocked)
    (rest : List TaskId) :
    (s.wakeOne ⟨id :: rest⟩).2 = (⟨rest⟩, some id) ∧
    (s.wakeOne ⟨id :: rest⟩).1.state = Function.update s.state id (some .ready) ∧
    (s.wakeOne ⟨id :: rest⟩).1.ready.queue = s.ready.queue ++ [id] ∧
    (s.wakeOne ⟨id :: rest⟩).1.current = s.current := by
  rw [wakeOne]
  rcases wakeOneLoop_cases hs (id :: rest) with ⟨-, hnone⟩ | ⟨passed, k, rest', t, hsplit, hpassed, ht, hst, hresult⟩
  · exact absurd h (hnone id List.mem_cons_self)
  · cases passed with
    | nil =>
      obtain ⟨rfl, rfl⟩ := List.cons.inj hsplit
      rw [hresult]
      exact ⟨rfl, state_setState ht .ready, rfl, rfl⟩
    | cons k' passed =>
      obtain ⟨rfl, -⟩ := List.cons.inj hsplit
      exact absurd h (hpassed id List.mem_cons_self)

/-- Sleepers that are blocked are all woken, in the order of the list. -/
private theorem wakeSleepers_of_blocked (hs : s.view.Sound) {expired : List TaskId} (hnodup : expired.Nodup)
    (hblocked : ∀ id ∈ expired, s.state id = some .blocked) :
    (s.wakeSleepers expired).2 = expired ∧
    (∀ id, (s.wakeSleepers expired).1.state id = if id ∈ expired then some .ready else s.state id) ∧
    (s.wakeSleepers expired).1.ready.queue = s.ready.queue ++ expired ∧
    (s.wakeSleepers expired).1.current = s.current := by
  induction expired generalizing s with
  | nil => exact ⟨rfl, by simp [wakeSleepers], by simp [wakeSleepers], rfl⟩
  | cons id rest ih =>
    obtain ⟨hid, hrest⟩ := List.nodup_cons.mp hnodup
    obtain ⟨t, ht, hst⟩ := task_of_state (hblocked id List.mem_cons_self)
    obtain ⟨s', hwake, hstate, hready, hcurrent⟩ : ∃ s', s.wakeSleeper id = (s', true) ∧
        s'.state = Function.update s.state id (some .ready) ∧ s'.ready.queue = s.ready.queue ++ [id] ∧
        s'.current = s.current := by
      have htr : t.transition .ready = ({ t with state := .ready }, true) :=
        TaskControlBlock.transition_of (by rw [hst]; rfl)
      refine ⟨{ s.setTask { t with state := .ready } with ready := ⟨s.ready.queue ++ [id]⟩ }, ?_,
        state_setState ht .ready, rfl, rfl⟩
      simp only [wakeSleeper, ht, hst, ne_eq, not_true_eq_false, if_false, htr, push_blocked hs ht hst]
    have hmoves := wakeSleeper_moves hs id
    rw [hwake] at hmoves
    have hstays : ∀ k ∈ rest, s'.state k = some .blocked := by
      intro k hk
      have hne : k ≠ id := by
        rintro rfl
        exact hid hk
      rw [hstate, Function.update_of_ne hne]
      exact hblocked k (List.mem_cons_of_mem _ hk)
    obtain ⟨hwoken, hstates, hqueue, howner⟩ := ih (hmoves.sound hs) hrest hstays
    simp only [wakeSleepers, hwake]
    refine ⟨by rw [hwoken], fun k => ?_, ?_, howner.trans hcurrent⟩
    · rw [hstates, hstate]
      by_cases hk : k = id
      · simp [hk, hid]
      · simp [hk]
    · rw [hqueue, hready, List.append_assoc, List.singleton_append]

end Operations

end Scheduler

/-- The scheduler, the wait queues and the sleep queue. -/
structure WaitSystem (ι : Type) where
  scheduler : Scheduler
  waiters : ι → WaitQueue
  sleepers : SleepQueue

namespace WaitSystem

variable {ι : Type}

def new : WaitSystem ι := ⟨.new, fun _ => .new, .new⟩

/-- A call of the scheduler; the wait queue it borrows is one of the system's, and so is the sleep queue. -/
inductive Op (ι : Type) where
  | plain (op : Scheduler.Op) (h : op.borrowsQueue = false)
  | blockCurrentOn (i : ι)
  | wakeOne (i : ι)
  | sleepCurrentUntil (deadline : U64)
  | expireSleepers (now : U64)

/-- A queued name is the name of a blocked task, and it stands once in one of the queues. -/
structure WaitedOnce (w : WaitSystem ι) : Prop where
  waiting : ∀ i, ∀ id ∈ (w.waiters i).queue, w.scheduler.state id = some .blocked
  sleeping : ∀ e ∈ w.sleepers.entries, w.scheduler.state e.task = some .blocked
  waiting_nodup : ∀ i, (w.waiters i).queue.Nodup
  sleeping_nodup : (w.sleepers.entries.map SleepEntry.task).Nodup
  one_queue : ∀ i j id, id ∈ (w.waiters i).queue → id ∈ (w.waiters j).queue → i = j
  not_both : ∀ i, ∀ id ∈ (w.waiters i).queue, ∀ e ∈ w.sleepers.entries, e.task ≠ id

/-- What every call keeps. -/
structure Consistent (w : WaitSystem ι) : Prop extends WaitedOnce w where
  sound : w.scheduler.view.Sound
  sorted : w.sleepers.Sorted

private theorem new_consistent : (new : WaitSystem ι).Consistent where
  waiting i id h := by cases h
  sleeping e h := by cases h
  waiting_nodup i := List.nodup_nil
  sleeping_nodup := List.nodup_nil
  one_queue i j id h := by cases h
  not_both i id h := by cases h
  sound := Scheduler.new_sound
  sorted := List.Pairwise.nil

variable [DecidableEq ι]

def perform (w : WaitSystem ι) : Op ι → WaitSystem ι
  | .plain op _ => { w with scheduler := w.scheduler.perform op }
  | .blockCurrentOn i =>
    let (scheduler, waiters, _) := w.scheduler.blockCurrentOn (w.waiters i)
    { w with scheduler, waiters := Function.update w.waiters i waiters }
  | .wakeOne i =>
    let (scheduler, waiters, _) := w.scheduler.wakeOne (w.waiters i)
    { w with scheduler, waiters := Function.update w.waiters i waiters }
  | .sleepCurrentUntil deadline =>
    let (scheduler, sleepers, _) := w.scheduler.sleepCurrentUntil deadline w.sleepers
    { w with scheduler, sleepers }
  | .expireSleepers now =>
    let (scheduler, sleepers, _) := w.scheduler.expireSleepers now w.sleepers
    { w with scheduler, sleepers }

def run (ops : List (Op ι)) : WaitSystem ι := ops.foldl perform new

/-! ### Every call keeps the queues consistent -/

namespace Consistent

variable {w : WaitSystem ι}

omit [DecidableEq ι] in
/-- A task that is not blocked is in no queue. -/
private theorem not_queued (hw : w.Consistent) {id : TaskId} (h : w.scheduler.state id ≠ some .blocked) :
    (∀ i, id ∉ (w.waiters i).queue) ∧ ∀ e ∈ w.sleepers.entries, e.task ≠ id := by
  refine ⟨fun i hmem => h (hw.waiting i id hmem), fun e he heq => h ?_⟩
  rw [← heq]
  exact hw.sleeping e he

omit [DecidableEq ι] in
private theorem plain (hw : w.Consistent) {s : Scheduler} (hs : s.view.Sound)
    (hblocked : Scheduler.Undisturbed .blocked w.scheduler s) : Consistent { w with scheduler := s } where
  waiting i id h := hblocked id (hw.waiting i id h)
  sleeping e he := hblocked e.task (hw.sleeping e he)
  waiting_nodup := hw.waiting_nodup
  sleeping_nodup := hw.sleeping_nodup
  one_queue := hw.one_queue
  not_both := hw.not_both
  sound := hs
  sorted := hw.sorted

omit [DecidableEq ι] in
/-- A task that was not blocked goes to the end of a wait queue. -/
private theorem enqueue (hw : w.Consistent) {s : Scheduler} {waiters : ι → WaitQueue} {i : ι} {id : TaskId}
    (hs : s.view.Sound) (hstate : s.state = Function.update w.scheduler.state id (some .blocked))
    (hid : w.scheduler.state id ≠ some .blocked) (hi : (waiters i).queue = (w.waiters i).queue ++ [id])
    (hother : ∀ j, j ≠ i → waiters j = w.waiters j) : Consistent ⟨s, waiters, w.sleepers⟩ := by
  obtain ⟨hwaiting, hsleeping⟩ := hw.not_queued hid
  have hkept : Scheduler.Undisturbed .blocked w.scheduler s := .of_update hstate hid
  have hmem : ∀ j, ∀ k ∈ (waiters j).queue, k ∈ (w.waiters j).queue ∨ j = i ∧ k = id := by
    intro j k hk
    by_cases hj : j = i
    · rw [hj, hi, List.mem_append, List.mem_singleton] at hk
      rw [hj]
      exact hk.imp_right fun hk => ⟨rfl, hk⟩
    · rw [hother j hj] at hk
      exact .inl hk
  constructor
  case sound => exact hs
  case sorted => exact hw.sorted
  constructor
  case waiting =>
    intro j k hk
    rcases hmem j k hk with hk | ⟨-, rfl⟩
    · exact hkept k (hw.waiting j k hk)
    · exact (congrFun hstate k).trans (Function.update_self ..)
  case sleeping => exact fun e he => hkept _ (hw.sleeping e he)
  case waiting_nodup =>
    intro j
    by_cases hj : j = i
    · show (waiters j).queue.Nodup
      rw [hj, hi]
      refine List.nodup_append.mpr ⟨hw.waiting_nodup i, List.nodup_singleton id, ?_⟩
      rintro k hk _ hk' rfl
      exact hwaiting i (List.mem_singleton.mp hk' ▸ hk)
    · show (waiters j).queue.Nodup
      rw [hother j hj]
      exact hw.waiting_nodup j
  case sleeping_nodup => exact hw.sleeping_nodup
  case one_queue =>
    intro j j' k hk hk'
    rcases hmem j k hk with hold | ⟨hj, rfl⟩
    · rcases hmem j' k hk' with hold' | ⟨hj', rfl⟩
      · exact hw.one_queue j j' k hold hold'
      · exact absurd hold (hwaiting j)
    · rcases hmem j' k hk' with hold' | ⟨hj', -⟩
      · exact absurd hold' (hwaiting j')
      · rw [hj, hj']
  case not_both =>
    intro j k hk e he
    rcases hmem j k hk with hold | ⟨-, rfl⟩
    · exact hw.not_both j k hold e he
    · exact hsleeping e he

omit [DecidableEq ι] in
/-- A task that was not blocked goes into the sleep queue. -/
private theorem insert (hw : w.Consistent) {s : Scheduler} {deadline : U64} {id : TaskId} (hs : s.view.Sound)
    (hstate : s.state = Function.update w.scheduler.state id (some .blocked))
    (hid : w.scheduler.state id ≠ some .blocked) (hnew : w.sleepers.contains id = false) :
    Consistent ⟨s, w.waiters, (w.sleepers.insert ⟨deadline, id⟩).1⟩ := by
  obtain ⟨hwaiting, hsleeping⟩ := hw.not_queued hid
  have hkept : Scheduler.Undisturbed .blocked w.scheduler s := .of_update hstate hid
  have hperm : (w.sleepers.insert ⟨deadline, id⟩).1.entries.Perm (⟨deadline, id⟩ :: w.sleepers.entries) :=
    SleepQueue.insert_perm hw.sorted hnew
  have hmem : ∀ e ∈ (w.sleepers.insert ⟨deadline, id⟩).1.entries, e.task = id ∨ e ∈ w.sleepers.entries := by
    intro e he
    rcases List.mem_cons.mp (hperm.mem_iff.mp he) with rfl | he
    · exact .inl rfl
    · exact .inr he
  constructor
  case sound => exact hs
  case sorted => exact SleepQueue.insert_sorted hw.sorted hnew
  constructor
  case waiting => exact fun i k hk => hkept k (hw.waiting i k hk)
  case sleeping =>
    intro e he
    rcases hmem e he with rfl | he
    · exact (congrFun hstate e.task).trans (Function.update_self ..)
    · exact hkept _ (hw.sleeping e he)
  case waiting_nodup => exact hw.waiting_nodup
  case sleeping_nodup =>
    refine (hperm.map SleepEntry.task).nodup_iff.mpr (List.nodup_cons.mpr ⟨fun hmem => ?_, hw.sleeping_nodup⟩)
    obtain ⟨e, he, heq⟩ := List.mem_map.mp hmem
    exact hsleeping e he heq
  case one_queue => exact hw.one_queue
  case not_both =>
    intro i k hk e he
    rcases hmem e he with rfl | he
    · rintro rfl
      exact hwaiting i hk
    · exact hw.not_both i k hk e he

omit [DecidableEq ι] in
/-- Names leave the queues, and the tasks that stay queued stay blocked. -/
private theorem shrink (hw : w.Consistent) {s : Scheduler} {waiters : ι → WaitQueue} {sleepers : SleepQueue}
    (hs : s.view.Sound) (hwaiters : ∀ i, (waiters i).queue.Sublist (w.waiters i).queue)
    (hsleepers : sleepers.entries.Sublist w.sleepers.entries)
    (hwaiting : ∀ i, ∀ id ∈ (waiters i).queue, s.state id = w.scheduler.state id)
    (hsleeping : ∀ e ∈ sleepers.entries, s.state e.task = w.scheduler.state e.task) :
    Consistent ⟨s, waiters, sleepers⟩ where
  waiting i id hid := (hwaiting i id hid).trans (hw.waiting i id ((hwaiters i).subset hid))
  sleeping e he := (hsleeping e he).trans (hw.sleeping e (hsleepers.subset he))
  waiting_nodup i := (hwaiters i).nodup (hw.waiting_nodup i)
  sleeping_nodup := (hsleepers.map SleepEntry.task).nodup hw.sleeping_nodup
  one_queue i j id hi hj := hw.one_queue i j id ((hwaiters i).subset hi) ((hwaiters j).subset hj)
  not_both i id hid e he := hw.not_both i id ((hwaiters i).subset hid) e (hsleepers.subset he)
  sound := hs
  sorted := List.Pairwise.sublist hsleepers hw.sorted

end Consistent

/-! ### What a wake-up does -/

/-- Waking one waiter takes the oldest one from the queue and puts it at the end of the ready queue. -/
def WakeOneExact (w : WaitSystem ι) : Prop :=
  ∀ i id rest, (w.waiters i).queue = id :: rest → ∃ s', w.scheduler.wakeOne (w.waiters i) = (s', ⟨rest⟩, some id) ∧
    s'.state = Function.update w.scheduler.state id (some .ready) ∧
    s'.ready.queue = w.scheduler.ready.queue ++ [id] ∧ s'.current = w.scheduler.current

/-- The sleepers whose deadline has passed at `now`, in the order of the queue. -/
def due (w : WaitSystem ι) (now : U64) : List TaskId :=
  (w.sleepers.entries.filter fun e => decide (e.deadline ≤ now)).map SleepEntry.task

/-- Expiring the sleepers takes those whose deadline has passed from the queue and puts them at the end of the ready
queue, in their order. -/
def ExpireExact (w : WaitSystem ι) : Prop :=
  ∀ now, ∃ s', w.scheduler.expireSleepers now w.sleepers =
      (s', ⟨w.sleepers.entries.filter fun e => !decide (e.deadline ≤ now)⟩, w.due now) ∧
    (∀ id, s'.state id = if id ∈ w.due now then some .ready else w.scheduler.state id) ∧
    s'.ready.queue = w.scheduler.ready.queue ++ w.due now ∧ s'.current = w.scheduler.current

section

omit [DecidableEq ι]

variable {w : WaitSystem ι}

private theorem Consistent.wakeOneExact (hw : w.Consistent) : w.WakeOneExact := by
  intro i id rest hq
  have hblocked : w.scheduler.state id = some .blocked := hw.waiting i id (by rw [hq]; exact List.mem_cons_self)
  obtain ⟨hresult, hstate, hready, hcurrent⟩ := Scheduler.wakeOne_of_blocked hw.sound hblocked rest
  have hqueue : w.waiters i = ⟨id :: rest⟩ := by rw [← hq]
  rw [hqueue]
  exact ⟨_, Prod.ext rfl hresult, hstate, hready, hcurrent⟩

private theorem Consistent.expireExact (hw : w.Consistent) : w.ExpireExact := by
  intro now
  have hdue : ∀ id ∈ w.due now, w.scheduler.state id = some .blocked := by
    intro id hid
    obtain ⟨e, he, rfl⟩ := List.mem_map.mp hid
    exact hw.sleeping e (List.mem_of_mem_filter he)
  have hnodup : (w.due now).Nodup := (List.filter_sublist.map SleepEntry.task).nodup hw.sleeping_nodup
  obtain ⟨hwoken, hstate, hready, hcurrent⟩ := Scheduler.wakeSleepers_of_blocked hw.sound hnodup hdue
  refine ⟨(w.scheduler.wakeSleepers (w.due now)).1, ?_, hstate, hready, hcurrent⟩
  rw [Scheduler.expireSleepers, SleepQueue.expireUntil_eq hw.sorted]
  exact congrArg (fun woken => (_, _, woken)) hwoken

end

/-! ### Runs -/

/-- A call may come at this point of a run: `make_ready` is applied to new tasks only. -/
def admits (w : WaitSystem ι) : Op ι → Bool
  | .plain (.makeReady id) _ => w.scheduler.state id == some .created
  | _ => true

def admitsAll (w : WaitSystem ι) : List (Op ι) → Bool
  | [] => true
  | op :: ops => w.admits op && (w.perform op).admitsAll ops

/-- The oldest waiter leaves its queue. -/
private theorem Consistent.wakeOne {w : WaitSystem ι} (hw : w.Consistent) (i : ι) :
    (w.perform (.wakeOne i)).Consistent := by
  cases hq : (w.waiters i).queue with
  | nil =>
    have hempty : w.waiters i = ⟨[]⟩ := by rw [← hq]
    have hwake : w.scheduler.wakeOne (w.waiters i) = (w.scheduler, w.waiters i, none) := by
      rw [hempty]
      rfl
    simp only [perform, hwake, Function.update_eq_self]
    exact hw
  | cons id rest =>
    have hmoves := Scheduler.wakeOneLoop_moves hw.sound (w.waiters i).queue
    obtain ⟨s', hwake, hstate, -, -⟩ := hw.wakeOneExact i id rest hq
    rw [← Scheduler.wakeOne, hwake] at hmoves
    simp only [perform, hwake]
    have hmem : id ∈ (w.waiters i).queue := by
      rw [hq]
      exact List.mem_cons_self
    have hsublist : ∀ j, (Function.update w.waiters i ⟨rest⟩ j).queue.Sublist (w.waiters j).queue := by
      intro j
      by_cases hj : j = i
      · rw [hj, Function.update_self, hq]
        exact List.sublist_cons_self id rest
      · rw [Function.update_of_ne hj]
    refine hw.shrink (hmoves.sound hw.sound) hsublist (.refl _) (fun j k hk => ?_) (fun e he => ?_)
    · have hne : k ≠ id := by
        rintro rfl
        by_cases hj : j = i
        · rw [hj, Function.update_self] at hk
          exact (List.nodup_cons.mp (hq ▸ hw.waiting_nodup i)).1 hk
        · rw [Function.update_of_ne hj] at hk
          exact hj (hw.one_queue j i k hk hmem)
      rw [hstate, Function.update_of_ne hne]
    · rw [hstate, Function.update_of_ne (hw.not_both i id hmem e he)]

/-- The sleepers that are due leave the sleep queue. -/
private theorem Consistent.expireSleepers {w : WaitSystem ι} (hw : w.Consistent) (now : U64) :
    (w.perform (.expireSleepers now)).Consistent := by
  obtain ⟨s', hexpire, hstate, -, -⟩ := hw.expireExact now
  have hmoves : Discipline.Moves w.scheduler.view (w.scheduler.expireSleepers now w.sleepers).1.view :=
    Scheduler.wakeSleepers_moves hw.sound (w.sleepers.expireUntil now).2
  rw [hexpire] at hmoves
  simp only [perform, hexpire]
  refine hw.shrink (hmoves.sound hw.sound) (fun i => .refl _) List.filter_sublist (fun i k hk => ?_) (fun e he => ?_)
  · have hnot : k ∉ w.due now := by
      intro hdue
      obtain ⟨e, he, heq⟩ := List.mem_map.mp hdue
      exact hw.not_both i k hk e (List.mem_of_mem_filter he) heq
    rw [hstate, if_neg hnot]
  · have hnot : e.task ∉ w.due now := by
      intro hdue
      obtain ⟨e', he', heq⟩ := List.mem_map.mp hdue
      obtain ⟨hmem, hlate⟩ := List.mem_filter.mp he
      obtain ⟨hmem', hdue'⟩ := List.mem_filter.mp he'
      rw [List.inj_on_of_nodup_map hw.sleeping_nodup hmem' hmem heq] at hdue'
      simp [hdue'] at hlate
    rw [hstate, if_neg hnot]

private theorem perform_consistent {w : WaitSystem ι} (hw : w.Consistent) {op : Op ι} (hop : w.admits op = true) :
    (w.perform op).Consistent := by
  cases op with
  | plain op h =>
    refine hw.plain ((Scheduler.perform_moves hw.sound op).sound hw.sound)
      (Scheduler.perform_undisturbed hw.sound h ?_)
    rintro id rfl
    simpa [admits] using hop
  | blockCurrentOn i =>
    have hmoves := Scheduler.blockCurrentOn_moves (s := w.scheduler) (w.waiters i)
    rcases w.scheduler.blockCurrentOn_cases (w.waiters i) with ⟨e, h⟩ | ⟨id, t, -, ht, hst, -, h⟩
    · simp only [perform, h, Function.update_eq_self]
      exact hw
    · simp only [perform, h] at hmoves ⊢
      refine hw.enqueue (hmoves.sound hw.sound) (Scheduler.state_setState ht .blocked) ?_ ?_
        (fun j hj => Function.update_of_ne hj ..)
      · simp [Scheduler.state_of_task ht, hst]
      · rw [Function.update_self]
  | wakeOne i => exact hw.wakeOne i
  | sleepCurrentUntil deadline =>
    have hmoves := Scheduler.sleepCurrentUntil_moves (s := w.scheduler) deadline w.sleepers
    rcases w.scheduler.sleepCurrentUntil_cases deadline w.sleepers with ⟨e, h⟩ | ⟨id, t, -, ht, hst, hnew, h⟩
    · simp only [perform, h]
      exact hw
    · simp only [perform, h] at hmoves ⊢
      refine hw.insert (hmoves.sound hw.sound) (Scheduler.state_setState ht .blocked) ?_ hnew
      simp [Scheduler.state_of_task ht, hst]
  | expireSleepers now => exact hw.expireSleepers now

private theorem foldl_consistent {w : WaitSystem ι} (hw : w.Consistent) {ops : List (Op ι)}
    (hops : w.admitsAll ops = true) :
    (ops.foldl perform w).Consistent := by
  induction ops generalizing w with
  | nil => exact hw
  | cons op ops ih =>
    rw [admitsAll, Bool.and_eq_true] at hops
    exact ih (perform_consistent hw hops.1) hops.2

/-- Over a run in which `make_ready` is applied to new tasks only, every queued name is that of a blocked task and
stands once in one queue, a wake-up finds the oldest waiter, and the sleepers are woken in order when their
deadline has passed. -/
theorem run_waitedOnce (ops : List (Op ι)) (hops : (new : WaitSystem ι).admitsAll ops = true) :
    (run ops).WaitedOnce ∧ (run ops).sleepers.Sorted ∧ (run ops).WakeOneExact ∧ (run ops).ExpireExact := by
  have hrun : (run ops).Consistent := foldl_consistent new_consistent hops
  exact ⟨hrun.toWaitedOnce, hrun.sorted, hrun.wakeOneExact, hrun.expireExact⟩

/-- Three tasks: one waits, two sleep, the later deadline first. -/
def sampleOps : List (Op Bool) :=
  [.plain (.createTask .default) rfl, .plain (.createTask .default) rfl, .plain (.createUserTask .default) rfl,
    .plain (.makeReady ⟨0, 1⟩) rfl, .plain (.makeReady ⟨1, 1⟩) rfl, .plain (.makeReady ⟨2, 1⟩) rfl,
    .plain .scheduleNext rfl, .blockCurrentOn true, .plain .scheduleNext rfl, .sleepCurrentUntil 9,
    .plain .scheduleNext rfl, .sleepCurrentUntil 4]

theorem run_waitedOnce_sample :
    (run sampleOps).sleepers.entries = [⟨4, ⟨2, 1⟩⟩, ⟨9, ⟨1, 1⟩⟩] ∧ ((run sampleOps).waiters true).queue = [⟨0, 1⟩] ∧
      (run sampleOps).WaitedOnce ∧ (run sampleOps).WakeOneExact ∧ (run sampleOps).ExpireExact := by
  obtain ⟨honce, -, hwake, hexpire⟩ := run_waitedOnce sampleOps (by decide)
  exact ⟨by decide, by decide, honce, hwake, hexpire⟩

end WaitSystem

end X11Os
