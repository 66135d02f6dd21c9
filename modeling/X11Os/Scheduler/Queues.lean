import X11Os.Lib.Bisect
import X11Os.Scheduler.Task

/-!
# Queues of tasks

The FIFO ready queue, the FIFO wait queue and the deadline queue (`scheduler/run_queue.rs`,
`scheduler/wait_queue.rs`, `scheduler/sleep_queue.rs`).  Each owns membership only; none of them touches the state
of a task.
-/

namespace X11Os

open Word

/-! ### The ready queue -/

structure RunQueue where
  queue : List TaskId
deriving DecidableEq, Repr

namespace RunQueue

def new : RunQueue := ⟨[]⟩

def contains (q : RunQueue) (id : TaskId) : Bool := q.queue.contains id

def push (q : RunQueue) (id : TaskId) : RunQueue × Bool :=
  if q.queue.contains id then (q, false) else (⟨q.queue ++ [id]⟩, true)

def peek (q : RunQueue) : Option TaskId := q.queue.head?

def pop (q : RunQueue) : RunQueue × Option TaskId := (⟨q.queue.tail⟩, q.queue.head?)

def len (q : RunQueue) : Nat := q.queue.length

theorem push_of_notMem {q : RunQueue} {id : TaskId} (h : id ∉ q.queue) :
    q.push id = (⟨q.queue ++ [id]⟩, true) := by
  simp [push, h]

end RunQueue

/-! ### Wait queues -/

structure WaitQueue where
  queue : List TaskId
deriving DecidableEq, Repr

inductive WaitQueueError where
  | alreadyQueued
deriving DecidableEq, Repr

namespace WaitQueue

def new : WaitQueue := ⟨[]⟩

def contains (q : WaitQueue) (task : TaskId) : Bool := q.queue.contains task

def enqueue (q : WaitQueue) (task : TaskId) : WaitQueue × Except WaitQueueError Unit :=
  if q.queue.contains task then (q, .error .alreadyQueued) else (⟨q.queue ++ [task]⟩, .ok ())

end WaitQueue

/-! ### The sleep queue -/

structure SleepEntry where
  deadline : U64
  task : TaskId
deriving DecidableEq, Repr

/-- The derived lexicographic order on `(deadline, task)`. -/
def SleepEntry.le (a b : SleepEntry) : Bool :=
  a.deadline < b.deadline || (a.deadline == b.deadline &&
    (a.task.index < b.task.index || (a.task.index == b.task.index && a.task.generation ≤ b.task.generation)))

theorem SleepEntry.le_iff {a b : SleepEntry} : a.le b = true ↔
    a.deadline.toNat < b.deadline.toNat ∨ (a.deadline.toNat = b.deadline.toNat ∧
      (a.task.index.toNat < b.task.index.toNat ∨ (a.task.index.toNat = b.task.index.toNat ∧
        a.task.generation.toNat ≤ b.task.generation.toNat))) := by
  simp only [le, Bool.or_eq_true, Bool.and_eq_true, decide_eq_true_eq, beq_iff_eq, BitVec.lt_def, BitVec.le_def,
    ← BitVec.toNat_inj]

private theorem SleepEntry.le_trans {a b c : SleepEntry} (hab : a.le b = true) (hbc : b.le c = true) :
    a.le c = true := by
  rw [le_iff] at hab hbc ⊢
  omega

private theorem SleepEntry.le_of_not_le {a b : SleepEntry} (h : ¬ a.le b = true) : b.le a = true := by
  rw [le_iff] at h ⊢
  omega

theorem SleepEntry.deadline_le {a b : SleepEntry} (h : a.le b = true) : a.deadline ≤ b.deadline := by
  rw [le_iff] at h
  rw [BitVec.le_def]
  omega

structure SleepQueue where
  entries : List SleepEntry
deriving DecidableEq, Repr

namespace SleepQueue

def new : SleepQueue := ⟨[]⟩

def contains (q : SleepQueue) (task : TaskId) : Bool := q.entries.any (·.task == task)

def insert (q : SleepQueue) (entry : SleepEntry) : SleepQueue × Bool :=
  if q.entries.any (·.task == entry.task) then (q, false)
  else
    let position := Bisect.partitionPoint q.entries (·.le entry)
    (⟨q.entries.take position ++ entry :: q.entries.drop position⟩, true)

theorem insert_of_notContains {q : SleepQueue} {entry : SleepEntry} (h : q.contains entry.task = false) :
    q.insert entry = ((q.insert entry).1, true) := by
  unfold contains at h
  simp [insert, h]

def nextDeadline (q : SleepQueue) : Option U64 := q.entries.head?.map SleepEntry.deadline

def expireUntil (q : SleepQueue) (now : U64) : SleepQueue × List TaskId :=
  let split := Bisect.partitionPoint q.entries (·.deadline ≤ now)
  (⟨q.entries.drop split⟩, (q.entries.take split).map SleepEntry.task)

def remove (q : SleepQueue) (task : TaskId) : SleepQueue × Bool :=
  match q.entries.findIdx? (·.task == task) with
  | none => (q, false)
  | some position => (⟨q.entries.eraseIdx position⟩, true)

/-- The entries stand in the order of their deadlines and names. -/
def Sorted (q : SleepQueue) : Prop := q.entries.Pairwise fun a b => a.le b = true

/-- On a sorted queue exactly the entries whose deadline has passed are taken out, in order. -/
theorem expireUntil_eq {q : SleepQueue} (h : q.Sorted) (now : U64) :
    q.expireUntil now = (⟨q.entries.filter fun e => !decide (e.deadline ≤ now)⟩,
      (q.entries.filter fun e => decide (e.deadline ≤ now)).map SleepEntry.task) := by
  have hsplit : q.entries.Pairwise fun a b => decide (b.deadline ≤ now) = true →
    decide (a.deadline ≤ now) = true := by
    refine h.imp fun {a b} hab hb => ?_
    have hdeadline := SleepEntry.deadline_le hab
    simp only [decide_eq_true_eq, BitVec.le_def] at hb hdeadline ⊢
    omega
  rw [expireUntil, Bisect.drop_partitionPoint hsplit, Bisect.take_partitionPoint hsplit]

/-- On a sorted queue the new entry is put between those that do not come after it and those that do. -/
private theorem insert_eq {q : SleepQueue} (h : q.Sorted) {entry : SleepEntry}
    (hnew : q.contains entry.task = false) :
    (q.insert entry).1.entries =
      q.entries.filter (·.le entry) ++ entry :: q.entries.filter fun e => !e.le entry := by
  have hsplit : q.entries.Pairwise fun a b => b.le entry = true → a.le entry = true :=
    h.imp fun hab hb => SleepEntry.le_trans hab hb
  unfold contains at hnew
  simp only [insert, hnew, Bool.false_eq_true, if_false]
  rw [Bisect.take_partitionPoint hsplit, Bisect.drop_partitionPoint hsplit]

theorem insert_sorted {q : SleepQueue} (h : q.Sorted) {entry : SleepEntry} (hnew : q.contains entry.task = false) :
    (q.insert entry).1.Sorted := by
  unfold Sorted
  rw [insert_eq h hnew, List.pairwise_append]
  have hbefore : ∀ e ∈ q.entries.filter (·.le entry), e.le entry = true := fun e he => (List.mem_filter.mp he).2
  have hafter : ∀ e ∈ q.entries.filter (fun e => !e.le entry), entry.le e = true := fun e he =>
    SleepEntry.le_of_not_le (by simpa using (List.mem_filter.mp he).2)
  refine ⟨h.filter _, List.pairwise_cons.mpr ⟨hafter, h.filter _⟩, fun a ha b hb => ?_⟩
  rcases List.mem_cons.mp hb with rfl | hb
  · exact hbefore a ha
  · exact SleepEntry.le_trans (hbefore a ha) (hafter b hb)

/-- The entries after an insertion, whatever their order. -/
theorem insert_perm {q : SleepQueue} (h : q.Sorted) {entry : SleepEntry} (hnew : q.contains entry.task = false) :
    (q.insert entry).1.entries.Perm (entry :: q.entries) := by
  rw [insert_eq h hnew]
  refine List.perm_middle.trans (.cons entry ?_)
  exact List.filter_append_perm _ _

end SleepQueue

end X11Os
