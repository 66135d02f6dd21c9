import X11Os.Scheduler.Queues

/-!
# Runs of the sleep queue

`insert` and `expire_until` find their place by bisection, which is right on a sorted queue only.  Each operation
leaves a sorted queue behind in which a task occurs once (`Ordered`), whatever the deadlines and the times are, so the
places that bisection finds are right after every sequence of operations (`run_keepsTime`).
-/

namespace X11Os

open Word

/-- The strict order on `(deadline, task)`. -/
def SleepEntry.Before (a b : SleepEntry) : Prop := a.le b = true ∧ ¬ b.le a = true

private theorem SleepEntry.task_eq_of_le {a b : SleepEntry} (hab : a.le b = true) (hba : b.le a = true) :
    a.task = b.task := by
  obtain ⟨deadline, index, generation⟩ := a
  obtain ⟨deadline', index', generation'⟩ := b
  rw [le_iff] at hab hba
  rw [TaskId.mk.injEq, ← BitVec.toNat_inj, ← BitVec.toNat_inj]
  dsimp only at hab hba
  omega

namespace SleepQueue

variable {q : SleepQueue}

/-- The entries are sorted and belong to different tasks. -/
structure Ordered (q : SleepQueue) : Prop where
  sorted : q.Sorted
  once : (q.entries.map SleepEntry.task).Nodup

private theorem contains_iff {task : TaskId} : q.contains task = true ↔ ∃ e ∈ q.entries, e.task = task := by
  simp only [contains, List.any_eq_true, beq_iff_eq]

private theorem new_ordered : new.Ordered := ⟨List.Pairwise.nil, List.nodup_nil⟩

/-- Two entries that are sorted and different are in the strict order. -/
private theorem Ordered.increasing (h : q.Ordered) : q.entries.Pairwise SleepEntry.Before := by
  have hne : q.entries.Pairwise fun a b => a.task ≠ b.task := List.pairwise_map.mp h.once
  refine List.Pairwise.imp ?_ (h.sorted.and hne)
  intro a b hab
  exact ⟨hab.1, fun hba => hab.2 (SleepEntry.task_eq_of_le hab.1 hba)⟩

/-! ### One operation -/

private theorem insert_of_contains {entry : SleepEntry} (h : q.contains entry.task = true) :
    q.insert entry = (q, false) :=
  if_pos h

theorem Ordered.insert (h : q.Ordered) (entry : SleepEntry) : (q.insert entry).1.Ordered := by
  cases hnew : q.contains entry.task with
  | true =>
    rw [insert_of_contains hnew]
    exact h
  | false =>
    refine ⟨insert_sorted h.sorted hnew, ?_⟩
    have hperm := (insert_perm h.sorted hnew).map SleepEntry.task
    rw [hperm.nodup_iff, List.map_cons, List.nodup_cons]
    refine ⟨fun hmem => ?_, h.once⟩
    have hcontains := contains_iff.mpr (List.mem_map.mp hmem)
    rw [hnew] at hcontains
    cases hcontains

/-- Entries that are left out leave an ordered queue. -/
private theorem Ordered.filter (h : q.Ordered) (p : SleepEntry → Bool) : Ordered ⟨q.entries.filter p⟩ :=
  ⟨h.sorted.filter _, h.once.sublist (List.filter_sublist.map _)⟩

private theorem Ordered.expireUntil (h : q.Ordered) (now : U64) : (q.expireUntil now).1.Ordered := by
  rw [expireUntil_eq h.sorted]
  exact h.filter _

/-- The entry of a task is the only one of this task. -/
private theorem eraseP_task {l : List SleepEntry} (h : (l.map SleepEntry.task).Nodup) (task : TaskId) :
    l.eraseP (·.task == task) = l.filter fun e => !(e.task == task) := by
  induction l with
  | nil => rfl
  | cons e l ih =>
    rw [List.map_cons, List.nodup_cons] at h
    by_cases he : e.task = task
    · have hrest : ∀ e' ∈ l, (!(e'.task == task)) = true := by
        intro e' he'
        rw [Bool.not_eq_true', beq_eq_false_iff_ne]
        intro heq
        exact h.1 (List.mem_map.mpr ⟨e', he', heq.trans he.symm⟩)
      rw [List.eraseP_cons_of_pos (by simpa using he), List.filter_cons_of_neg (by simp [he]),
        List.filter_eq_self.mpr hrest]
    · rw [List.eraseP_cons_of_neg (by simpa using he), List.filter_cons_of_pos (by simpa using he), ih h.2]

private theorem remove_eq (h : q.Ordered) (task : TaskId) :
    q.remove task = (⟨q.entries.filter fun e => !(e.task == task)⟩, q.contains task) := by
  have hcontains : (q.entries.findIdx? (·.task == task)).isSome = q.contains task := List.findIdx?_isSome
  rw [← eraseP_task h.once, List.eraseP_eq_eraseIdx, remove, ← hcontains]
  cases q.entries.findIdx? (·.task == task) <;> rfl

private theorem Ordered.remove (h : q.Ordered) (task : TaskId) : (q.remove task).1.Ordered := by
  rw [remove_eq h]
  exact h.filter _

/-! ### Sequences of operations -/

inductive Op where
  | insert (entry : SleepEntry)
  | remove (task : TaskId)
  | expireUntil (now : U64)
deriving DecidableEq, Repr

def perform (q : SleepQueue) : Op → SleepQueue
  | .insert entry => (q.insert entry).1
  | .remove task => (q.remove task).1
  | .expireUntil now => (q.expireUntil now).1

def run (ops : List Op) : SleepQueue := ops.foldl perform new

private theorem Ordered.perform (h : q.Ordered) (op : Op) : (q.perform op).Ordered := by
  cases op with
  | insert entry => exact h.insert entry
  | remove task => exact h.remove task
  | expireUntil now => exact h.expireUntil now

private theorem run_ordered (ops : List Op) : (run ops).Ordered :=
  List.foldlRecOn ops SleepQueue.perform new_ordered fun _ hq op _ => hq.perform op

/-- The first entry has the least deadline. -/
private theorem nextDeadline_eq_some (h : q.Sorted) {deadline : U64} :
    q.nextDeadline = some deadline ↔
      (∃ e ∈ q.entries, e.deadline = deadline) ∧ ∀ e ∈ q.entries, deadline ≤ e.deadline := by
  obtain ⟨entries⟩ := q
  cases entries with
  | nil => simp [nextDeadline]
  | cons first rest =>
    have hfirst : ∀ e ∈ first :: rest, first.deadline ≤ e.deadline :=
      List.forall_mem_cons.mpr
      ⟨BitVec.le_refl _, fun e he => SleepEntry.deadline_le ((List.pairwise_cons.mp h).1 e he)⟩
    have hnext : nextDeadline ⟨first :: rest⟩ = some first.deadline := rfl
    rw [hnext, Option.some.injEq]
    constructor
    · rintro rfl
      exact ⟨⟨first, List.mem_cons_self, rfl⟩, hfirst⟩
    · rintro ⟨⟨e, he, rfl⟩, hleast⟩
      exact BitVec.le_antisymm (hfirst e he) (hleast first List.mem_cons_self)

/-- What the operations do with a queue and what they return. -/
structure KeepsTime (q : SleepQueue) : Prop where
  increasing : q.entries.Pairwise SleepEntry.Before
  once : (q.entries.map SleepEntry.task).Nodup
  insert_fails_iff : ∀ entry, (q.insert entry).2 = false ↔ ∃ e ∈ q.entries, e.task = entry.task
  insert_fails : ∀ entry, (q.insert entry).2 = false → (q.insert entry).1 = q
  insert_entries : ∀ entry, (q.insert entry).2 = true → (q.insert entry).1.entries.Perm (entry :: q.entries)
  remove : ∀ task, q.remove task = (⟨q.entries.filter fun e => !(e.task == task)⟩, q.contains task)
  expire : ∀ now, q.expireUntil now = (⟨q.entries.filter fun e => !decide (e.deadline ≤ now)⟩,
    (q.entries.filter fun e => decide (e.deadline ≤ now)).map SleepEntry.task)
  next : ∀ deadline, q.nextDeadline = some deadline ↔
    (∃ e ∈ q.entries, e.deadline = deadline) ∧ ∀ e ∈ q.entries, deadline ≤ e.deadline

private theorem Ordered.keepsTime (h : q.Ordered) : q.KeepsTime := by
  have hinsert : ∀ entry, (q.insert entry).2 = !q.contains entry.task := by
    intro entry
    cases hnew : q.contains entry.task with
    | true => rw [insert_of_contains hnew]; rfl
    | false => rw [insert_of_notContains hnew]; rfl
  constructor
  case increasing => exact h.increasing
  case once => exact h.once
  case insert_fails_iff =>
    intro entry
    rw [hinsert, Bool.not_eq_false', contains_iff]
  case insert_fails =>
    intro entry hfails
    rw [hinsert, Bool.not_eq_false'] at hfails
    rw [insert_of_contains hfails]
  case insert_entries =>
    intro entry hok
    rw [hinsert, Bool.not_eq_true'] at hok
    exact insert_perm h.sorted hok
  case remove => exact remove_eq h
  case expire => exact expireUntil_eq h.sorted
  case next => exact fun deadline => nextDeadline_eq_some h.sorted

theorem run_keepsTime (ops : List Op) : (run ops).KeepsTime := (run_ordered ops).keepsTime

end SleepQueue

end X11Os
