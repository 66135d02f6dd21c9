import Mathlib.Data.List.Rotate
import X11Os.Lib.Fifo
import X11Os.Scheduler.Dispatch

/-!
# Nobody is overtaken

The scheduler serves its ready queue in order: `schedule_next` and a successful `terminate_current_to` give the CPU
to the head of the queue, and every operation adds tasks only behind the tasks that wait.  So a task at position `k`
of the ready queue moves one place with each dispatch and runs after the dispatch number `k + 1`, whatever else is
called in between.

If nothing but `schedule_next` is called, the tasks that can run take turns: the queue that `schedule_next` pops is
rotated by one place with every call.
-/

namespace X11Os

open Word

namespace Scheduler

/-- A call that dispatches: `schedule_next`, or a `terminate_current_to` that succeeds. -/
def dispatches (s : Scheduler) : Op → Bool
  | .scheduleNext => true
  | .terminateCurrentTo successor => (s.terminateCurrentTo successor).2.toBool
  | _ => false

/-- The ready queue, served by the calls that dispatch. -/
def readyMachine : Fifo.Machine Scheduler Op TaskId where
  step := perform
  queue s := s.ready.queue
  calls := dispatches
  served s op := if s.dispatches op then (s.perform op).current else none

/-! ### One operation -/

section Operations

variable {s : Scheduler}

private theorem createTaskWithKind_ready (priority : Priority) (kind : TaskKind) :
    (s.createTaskWithKind priority kind).1.ready = s.ready :=
  (createTaskWithKind_task rfl).2.1

private theorem makeReady_prefix (id : TaskId) : s.ready.queue <+: (s.makeReady id).1.ready.queue := by
  rcases s.makeReady_cases id with h | ⟨t, ht, -, -, h⟩
  · rw [h]
  · rw [h]
    exact List.prefix_append _ _

private theorem wakeOne_prefix (hs : s.view.Sound) (waiters : WaitQueue) :
    s.ready.queue <+: (s.wakeOne waiters).1.ready.queue := by
  rw [wakeOne]
  rcases wakeOneLoop_cases hs waiters.queue with ⟨h, -⟩ | ⟨passed, id, rest, t, -, -, ht, hst, h⟩
  · rw [h]
  · rw [h]
    exact List.prefix_append _ _

/-- Without a dispatch nobody leaves the ready queue, and whoever enters it waits behind the others. -/
private theorem perform_prefix (hs : s.view.Sound) {op : Op} (hop : s.dispatches op = false) :
    s.ready.queue <+: (s.perform op).ready.queue := by
  cases op with
  | createTask priority => exact (createTaskWithKind_ready priority .kernel) ▸ List.prefix_rfl
  | createUserTask priority => exact (createTaskWithKind_ready priority .userspace) ▸ List.prefix_rfl
  | attachExecution id =>
    rw [perform]
    rcases s.attachExecution_cases id with ⟨e, h⟩ | ⟨t, -, -, h⟩ <;> rw [h]
    exact List.prefix_rfl
  | destroyCreated id =>
    rw [perform]
    rcases s.destroyCreated_cases id with ⟨e, h⟩ | ⟨t, handle, -, -, -, h⟩ <;> rw [h]
    exact List.prefix_rfl
  | makeReady id => exact makeReady_prefix id
  | terminateCurrentTo successor =>
    rw [perform]
    rcases s.terminateCurrentTo_cases successor with ⟨e, h⟩ | ⟨current, rest, t, t', -, -, -, -, -, -, -, h⟩
    · rw [h]
    · rw [dispatches, h] at hop
      cases hop
  | scheduleNext => cases hop
  | blockCurrentOn waiters =>
    rw [perform]
    rcases s.blockCurrentOn_cases waiters with ⟨e, h⟩ | ⟨id, t, -, -, -, -, h⟩ <;> rw [h]
    exact List.prefix_rfl
  | blockCurrent =>
    rw [perform]
    rcases s.blockCurrent_cases with h | ⟨id, t, -, -, -, h⟩ <;> rw [h]
    exact List.prefix_rfl
  | wakeOne waiters => exact wakeOne_prefix hs waiters
  | sleepCurrentUntil deadline sleepers => exact (s.sleepCurrentUntil_keeps deadline sleepers).queue
  | expireSleepers now sleepers => exact (s.expireSleepers_keeps now sleepers).queue
  | exitCurrent =>
    rw [perform]
    rcases s.exitCurrent_cases with h | ⟨id, t, -, -, -, h⟩ <;> rw [h]
    exact List.prefix_rfl

private theorem requeuePrevious_prefix (s : Scheduler) : s.ready.queue <+: s.requeuePrevious.ready.queue := by
  rcases s.requeuePrevious_cases with ⟨h, -⟩ | ⟨id, t, -, -, -, h⟩
  · rw [h]
  · rw [h]
    exact prefix_push s.ready id

/-- The new owner of the CPU is the head of the ready queue, as the call finds it or after the call put the previous
owner at its end. -/
private theorem perform_passes (hs : s.view.Sound) {op : Op} (hop : s.dispatches op = true) :
    Fifo.Passes s.ready.queue (s.perform op).current (s.perform op).ready.queue := by
  cases op with
  | scheduleNext =>
    obtain ⟨added, hadded⟩ := s.requeuePrevious_prefix
    refine ⟨added, hadded.trans ?_⟩
    show _ = s.scheduleNext.1.current.toList ++ s.scheduleNext.1.ready.queue
    cases hq : s.requeuePrevious.ready.queue with
    | nil =>
      rw [scheduleNext_of_nil hq]
      exact hq.symm
    | cons id rest =>
      obtain ⟨hcur, -, hrest⟩ := (ScheduleNextExact.of_sound hs).head_runs id rest hq
      rw [hcur, hrest]
      rfl
  | terminateCurrentTo successor =>
    rw [perform]
    rcases s.terminateCurrentTo_cases successor with ⟨e, h⟩ | ⟨current, rest, t, t', -, -, hq, -, -, -, -, h⟩
    · rw [dispatches, h] at hop
      cases hop
    · rw [h]
      exact ⟨[], by rw [hq, List.append_nil]; rfl⟩
  | _ => cases hop

/-- The owner of the CPU that a dispatch leaves is running. -/
private theorem running_of_dispatches (hs : s.view.Sound) {op : Op} (hop : s.dispatches op = true) {id : TaskId}
    (hid : (s.perform op).current = some id) : (s.perform op).state id = some .running := by
  cases op with
  | scheduleNext => exact scheduleNext_running hs hid
  | terminateCurrentTo successor =>
    cases hok : (s.terminateCurrentTo successor).2 with
    | error e =>
      rw [dispatches, hok] at hop
      cases hop
    | ok id' => exact terminateCurrentTo_running hok hid
  | _ => cases hop

/-- A dispatch leaves the CPU without an owner only if nobody waits. -/
private theorem current_of_dispatches (hs : s.view.Sound) {op : Op} (hop : s.dispatches op = true)
    (hq : s.ready.queue ≠ []) :
    (s.perform op).current.isSome := by
  cases op with
  | scheduleNext =>
    rw [Option.isSome_iff_ne_none]
    intro hnone
    have hempty := (ScheduleNextExact.of_sound hs).idle_iff_empty.mp hnone
    exact hq (List.prefix_nil.mp (hempty ▸ s.requeuePrevious_prefix))
  | terminateCurrentTo successor =>
    rw [perform]
    rcases s.terminateCurrentTo_cases successor with ⟨e, h⟩ | ⟨current, rest, t, t', -, -, -, -, -, -, -, h⟩
    · rw [dispatches, h] at hop
      cases hop
    · rw [h]
      rfl
  | _ => cases hop

end Operations

private theorem readyMachine_inOrder : readyMachine.InOrder fun s => s.view.Sound where
  keeps s op hs := (perform_moves hs op).sound hs
  passes s op hs := by
    show Fifo.Passes s.ready.queue (if s.dispatches op then (s.perform op).current else none)
      (s.perform op).ready.queue
    cases hop : s.dispatches op with
    | false => exact perform_prefix hs hop
    | true => exact perform_passes hs hop
  served_none s op hop := if_neg (Bool.eq_false_iff.mp hop)
  served_some s op hs hop hq := by
    show (if s.dispatches op then (s.perform op).current else none).isSome
    rw [if_pos (show s.dispatches op = true from hop)]
    exact current_of_dispatches hs hop hq

/-! ### Bounded bypass -/

/-- How many of the calls dispatch, in the states in which they are made. -/
abbrev dispatchesIn (s : Scheduler) (ops : List Op) : ℕ := readyMachine.callsIn s ops

/-- Whoever waits at position `k` of the ready queue moves one place with every call that dispatches and with no other
call, as long as it waits, and the call number `k + 1` that dispatches makes it the running owner of the CPU. -/
structure BoundedBypass (s : Scheduler) : Prop where
  position : ∀ k id ops, s.ready.queue[k]? = some id → s.dispatchesIn ops ≤ k →
    (ops.foldl perform s).ready.queue[k - s.dispatchesIn ops]? = some id
  runs : ∀ k id ops op, s.ready.queue[k]? = some id → s.dispatchesIn ops = k →
    (ops.foldl perform s).dispatches op = true →
    ((ops.foldl perform s).perform op).current = some id ∧ ((ops.foldl perform s).perform op).state id = some .running

private theorem BoundedBypass.of_sound {s : Scheduler} (hs : s.view.Sound) : s.BoundedBypass where
  position k id ops hk hle := readyMachine_inOrder.position hs hk ops hle
  runs k id ops op hk hcalls hop := by
    have hserved := readyMachine_inOrder.turn hs hk hcalls hop
    have hcur : ((ops.foldl perform s).perform op).current = some id := (if_pos hop).symm.trans hserved
    exact ⟨hcur, running_of_dispatches (readyMachine_inOrder.keeps_foldl hs ops) hop hcur⟩

/-! ### Turns -/

/-- The scheduler after `n` calls of `schedule_next`. -/
def afterTurns (s : Scheduler) (n : ℕ) : Scheduler := (fun s => s.scheduleNext.1)^[n] s

/-- The tasks that can run, in the order in which `schedule_next` serves them. -/
def cycle (s : Scheduler) : List TaskId := s.requeuePrevious.ready.queue

private theorem afterTurns_succ (s : Scheduler) (n : ℕ) : s.afterTurns (n + 1) = (s.afterTurns n).scheduleNext.1 :=
  Function.iterate_succ_apply' ..

private theorem afterTurns_sound {s : Scheduler} (hs : s.view.Sound) (n : ℕ) : (s.afterTurns n).view.Sound := by
  induction n with
  | zero => exact hs
  | succ n ih =>
    rw [afterTurns_succ]
    exact (scheduleNext_moves ih).sound ih

private theorem cycle_nodup {s : Scheduler} (hs : s.view.Sound) : s.cycle.Nodup :=
  ((requeuePrevious_moves hs).1.sound hs).nodup

private theorem mem_cycle {s : Scheduler} (hs : s.view.Sound) (id : TaskId) :
    id ∈ s.cycle ↔ s.state id = some .ready ∨ s.state id = some .running := by
  have hmem : id ∈ s.cycle ↔ s.requeuePrevious.state id = some .ready :=
    ((requeuePrevious_moves hs).1.sound hs).mem_queue id
  rw [hmem]
  rcases s.requeuePrevious_cases with ⟨h, hrun⟩ | ⟨k, t, hcur, ht, hst, h⟩
  · have hnot : s.state id ≠ some .running := hs.idle_of_owner hrun id
    rw [h, or_iff_left hnot]
  · have hstate : s.requeuePrevious.state = Function.update s.state k (some .ready) := by
      rw [h, ← state_setState ht]
      rfl
    rw [hstate]
    by_cases hk : id = k
    · simp [hk, state_of_task ht, hst]
    · have hnot : s.state id ≠ some .running := by
        intro hrunning
        exact hk (Option.some.inj ((hs.running id hrunning).symm.trans hcur))
      rw [Function.update_of_ne hk, or_iff_left hnot]

/-- The running owner of the CPU comes last. -/
private theorem cycle_of_running {s : Scheduler} (hs : s.view.Sound) {id : TaskId} (hcur : s.current = some id)
    (hrunning : s.state id = some .running) : s.cycle = s.ready.queue ++ [id] := by
  rcases s.requeuePrevious_cases with ⟨-, hrun⟩ | ⟨k, t, hk, -, -, h⟩
  · exact absurd hrunning (hrun id hcur)
  · have hnot : id ∉ s.ready.queue := hs.notMem (by rw [view_state, hrunning]; decide)
    rw [cycle, h, ← Option.some.inj (hcur.symm.trans hk), RunQueue.push_of_notMem hnot]

/-- With two tasks that can run, `schedule_next` decides for the first of them. -/
private theorem scheduleNext_decision {s : Scheduler} (hs : s.view.Sound) {id : TaskId} {rest : List TaskId}
    (hcycle : s.cycle = id :: rest) (hrest : rest ≠ []) : s.scheduleNext.2.next = some id := by
  have hsound := (requeuePrevious_moves hs).1.sound hs
  have hready : s.requeuePrevious.state id = some .ready := by
    refine (hsound.mem_queue id).mp ?_
    show id ∈ s.cycle
    rw [hcycle]
    exact List.mem_cons_self
  obtain ⟨t, ht, hst⟩ := task_of_state hready
  have hdispatch : ∀ previous, (s.requeuePrevious.dispatchHead previous).2.next = some id := by
    intro previous
    rw [dispatchHead_of_ready previous hcycle ht hst]
  -- the previous owner keeps the CPU only if it is alone
  have hlen : s.requeuePrevious.ready.len ≠ 1 := by
    have hpos := List.length_pos_iff.mpr hrest
    show s.cycle.length ≠ 1
    rw [hcycle, List.length_cons]
    omega
  unfold scheduleNext
  dsimp only
  split
  · exact hdispatch _
  · rw [if_neg fun h => hlen h.1]
    exact hdispatch _

/-- With two tasks that can run, a turn gives the CPU to the first of them and makes it the last. -/
private theorem scheduleNext_turn {s : Scheduler} (hs : s.view.Sound) (hcycle : 2 ≤ s.cycle.length) :
    s.scheduleNext.2.next = s.cycle.head? ∧ s.scheduleNext.1.current = s.cycle.head? ∧
      s.scheduleNext.1.cycle = s.cycle.rotate 1 := by
  cases hq : s.cycle with
  | nil =>
    rw [hq] at hcycle
    exact absurd hcycle (by decide)
  | cons id rest =>
    have hrest : rest ≠ [] := by
      rintro rfl
      rw [hq, List.length_singleton] at hcycle
      omega
    obtain ⟨hcur, hrunning, hqueue⟩ := (ScheduleNextExact.of_sound hs).head_runs id rest hq
    have hnext := cycle_of_running ((scheduleNext_moves hs).sound hs) hcur hrunning
    rw [hqueue] at hnext
    exact ⟨scheduleNext_decision hs hq hrest, hcur, by rw [hnext, List.rotate_cons_succ, List.rotate_zero]⟩

private theorem afterTurns_cycle {s : Scheduler} (hs : s.view.Sound) (hcycle : 2 ≤ s.cycle.length) (n : ℕ) :
    (s.afterTurns n).cycle = s.cycle.rotate n := by
  induction n with
  | zero => rw [List.rotate_zero, afterTurns, Function.iterate_zero_apply]
  | succ n ih =>
    have hlen : 2 ≤ (s.afterTurns n).cycle.length := by rw [ih, List.length_rotate]; exact hcycle
    rw [afterTurns_succ, (scheduleNext_turn (afterTurns_sound hs n) hlen).2.2, ih, List.rotate_rotate]

/-- The task that call number `n` of `schedule_next` dispatches, counted from 0. -/
def turn (s : Scheduler) (n : ℕ) : Option TaskId := (s.afterTurns n).scheduleNext.2.next

/-- The tasks that can run take turns: there is one order of them such that the calls `m`, …, `m + n - 1` of
`schedule_next`, `n` being their number, dispatch them in that order, starting at the place `m` of it. -/
structure RoundRobin (s : Scheduler) (tasks : List TaskId) : Prop where
  nodup : tasks.Nodup
  mem_iff : ∀ id, id ∈ tasks ↔ s.state id = some .ready ∨ s.state id = some .running
  turns : 2 ≤ tasks.length → ∀ m, (List.range tasks.length).map (fun i => s.turn (m + i)) = (tasks.rotate m).map some
  runs : 2 ≤ tasks.length → ∀ n, ∃ id, s.turn n = some id ∧ (s.afterTurns (n + 1)).current = some id ∧
    (s.afterTurns (n + 1)).state id = some .running

private theorem turn_eq {s : Scheduler} (hs : s.view.Sound) (hcycle : 2 ≤ s.cycle.length) (n : ℕ) :
    s.turn n = (s.cycle.rotate n).head? ∧ (s.afterTurns (n + 1)).current = (s.cycle.rotate n).head? := by
  have hrotate := afterTurns_cycle hs hcycle n
  have hlen : 2 ≤ (s.afterTurns n).cycle.length := by rw [hrotate, List.length_rotate]; exact hcycle
  obtain ⟨hnext, hcur, -⟩ := scheduleNext_turn (afterTurns_sound hs n) hlen
  rw [turn, hnext, afterTurns_succ, hcur, hrotate]
  exact ⟨rfl, rfl⟩

private theorem RoundRobin.of_sound {s : Scheduler} (hs : s.view.Sound) : s.RoundRobin s.cycle where
  nodup := cycle_nodup hs
  mem_iff := mem_cycle hs
  turns hcycle m := by
    refine List.ext_getElem (by simp) fun i hi hi' => ?_
    have hlt : i < (s.cycle.rotate m).length := by simpa using hi'
    rw [List.getElem_map, List.getElem_map, List.getElem_range, (turn_eq hs hcycle (m + i)).1, ← List.rotate_rotate,
      List.head?_rotate hlt, List.getElem?_eq_getElem hlt]
  runs hcycle n := by
    obtain ⟨hturn, hcur⟩ := turn_eq hs hcycle n
    have hne : s.cycle.rotate n ≠ [] := by
      rw [← List.length_pos_iff, List.length_rotate]
      omega
    rw [List.head?_eq_some_head hne] at hturn hcur
    refine ⟨_, hturn, hcur, ?_⟩
    rw [afterTurns_succ] at hcur ⊢
    exact scheduleNext_running (afterTurns_sound hs n) hcur

/-- After every run of scheduler operations nobody who waits is overtaken, and with nothing but `schedule_next` the
tasks that can run take turns. -/
theorem run_fair (ops : List Op) : (run ops).BoundedBypass ∧ ∃ tasks, (run ops).RoundRobin tasks :=
  ⟨.of_sound (run_sound ops), _, .of_sound (run_sound ops)⟩

example : (List.range 4).map
    (turn (run [.createTask .default, .createTask .default, .makeReady ⟨0, 1⟩, .makeReady ⟨1, 1⟩]))
    = [some ⟨0, 1⟩, some ⟨1, 1⟩, some ⟨0, 1⟩, some ⟨1, 1⟩] := by decide

end Scheduler

end X11Os
