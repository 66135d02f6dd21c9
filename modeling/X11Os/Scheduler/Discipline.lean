import Mathlib.Data.List.Nodup
import Mathlib.Logic.Function.Basic
import Mathlib.Logic.Relation
import X11Os.Scheduler.Task

/-!
# The ready discipline

What a scheduler is for, without slots, generations or queues of waiters: a partial map from names to task states,
a queue of names and at most one owner of the CPU.  `Move` lists the ways the three may change together and `Sound`
says how they agree.  Every move keeps them in agreement (`Move.sound`), hence so does every sequence of moves.
-/

namespace X11Os

structure Discipline (κ : Type) where
  state : κ → Option TaskState
  queue : List κ
  current : Option κ

namespace Discipline

variable {κ : Type}

/-- The queue holds exactly the ready tasks, each once; a running task owns the CPU; the owner of the CPU is running,
or ready if it has been queued while it ran. -/
structure Sound (d : Discipline κ) : Prop where
  nodup : d.queue.Nodup
  mem_queue : ∀ id, id ∈ d.queue ↔ d.state id = some .ready
  running : ∀ id, d.state id = some .running → d.current = some id
  owner : ∀ id, d.current = some id → d.state id = some .running ∨ d.state id = some .ready

def Idle (d : Discipline κ) : Prop := ∀ id, d.state id ≠ some .running

theorem Sound.notMem {d : Discipline κ} (hd : d.Sound) {id : κ} (h : d.state id ≠ some .ready) : id ∉ d.queue :=
  fun hmem => h ((hd.mem_queue id).mp hmem)

private theorem Sound.owner_ne {d : Discipline κ} (hd : d.Sound) {id k : κ} (hrun : d.state id ≠ some .running)
    (hready : d.state id ≠ some .ready) (h : d.current = some k) : k ≠ id := by
  rintro rfl
  rcases hd.owner k h with h' | h'
  · exact hrun h'
  · exact hready h'

/-- The owner of the CPU gives it up once it is queued: nobody else was running. -/
theorem Sound.idle_of_owner {d : Discipline κ} (hd : d.Sound)
    (h : ∀ id, d.current = some id → d.state id ≠ some .running) : d.Idle :=
  fun id hrun => h id (hd.running id hrun) hrun

variable [DecidableEq κ]

inductive Move : Discipline κ → Discipline κ → Prop where
  | create {d : Discipline κ} {id : κ} (h : d.state id = none) :
      Move d { d with state := Function.update d.state id (some .created) }
  | destroy {d : Discipline κ} {id : κ} (h : d.state id = some .created) :
      Move d { d with state := Function.update d.state id none }
  | enqueue {d : Discipline κ} {id : κ} {st : TaskState} (h : d.state id = some st)
      (hst : st.canBecome .ready = true) :
      Move d { d with state := Function.update d.state id (some .ready), queue := d.queue ++ [id] }
  | dispatch {d : Discipline κ} {id : κ} {rest : List κ} (h : d.queue = id :: rest) (hidle : d.Idle) :
      Move d { state := Function.update d.state id (some .running), queue := rest, current := some id }
  | rest {d : Discipline κ} (hidle : d.Idle) : Move d { d with current := none }
  | block {d : Discipline κ} {id : κ} (h : d.state id = some .running) :
      Move d { d with state := Function.update d.state id (some .blocked), current := none }
  | exit {d : Discipline κ} {id : κ} (h : d.state id = some .running) :
      Move d { d with state := Function.update d.state id none, current := none }

/-! ### Every move is sound -/

/-- A move that leaves the queue alone and takes one task between two states other than ready. -/
private theorem Sound.relabel {d : Discipline κ} (hd : d.Sound) {id : κ} {st : Option TaskState} {c : Option κ}
    (hold : d.state id ≠ some .ready) (hnew : st ≠ some .ready) (hrun : st ≠ some .running)
    (howner : ∀ k, c = some k → k ≠ id ∧ d.current = some k)
    (hothers : ∀ k, k ≠ id → d.state k = some .running → c = some k) :
    Sound { state := Function.update d.state id st, queue := d.queue, current := c } where
  nodup := hd.nodup
  mem_queue k := by
    by_cases hk : k = id
    · subst hk
      simpa only [Function.update_self, hnew, iff_false] using hd.notMem hold
    · simpa only [Function.update_of_ne hk] using hd.mem_queue k
  running k h := by
    by_cases hk : k = id
    · subst hk
      exact absurd (by simpa only [Function.update_self] using h) hrun
    · exact hothers k hk (by simpa only [Function.update_of_ne hk] using h)
  owner k h := by
    obtain ⟨hk, hc⟩ := howner k h
    simpa only [Function.update_of_ne hk] using hd.owner k hc

/-- Taking the CPU from the running task: no other task was running. -/
private theorem Sound.release {d : Discipline κ} (hd : d.Sound) {id : κ} {st : Option TaskState}
    (h : d.state id = some .running) (hnew : st ≠ some .ready) (hrun : st ≠ some .running) :
    Sound { state := Function.update d.state id st, queue := d.queue, current := none } := by
  refine hd.relabel (by simp [h]) hnew hrun (fun k hk => by cases hk) (fun k hk hkrun => ?_)
  have h1 := hd.running k hkrun
  rw [hd.running id h, Option.some.injEq] at h1
  exact absurd h1.symm hk

theorem Sound.enqueue {d : Discipline κ} (hd : d.Sound) {id : κ} (hready : d.state id ≠ some .ready) :
    Sound { d with state := Function.update d.state id (some .ready), queue := d.queue ++ [id] } where
  nodup := by
    rw [List.nodup_append]
    refine ⟨hd.nodup, List.nodup_singleton id, fun a ha b hb => ?_⟩
    rw [List.mem_singleton.mp hb]
    rintro rfl
    exact hd.notMem hready ha
  mem_queue k := by
    by_cases hk : k = id
    · simp [hk]
    · simp [hk, hd.mem_queue k]
  running k h := by
    by_cases hk : k = id
    · simp [hk] at h
    · exact hd.running k (by simpa [hk] using h)
  owner k h := by
    by_cases hk : k = id
    · simp [hk]
    · simpa [hk] using hd.owner k h

private theorem Sound.dispatch {d : Discipline κ} (hd : d.Sound) {id : κ} {rest : List κ} (h : d.queue = id :: rest)
    (hidle : d.Idle) :
    Sound { state := Function.update d.state id (some .running), queue := rest, current := some id } := by
  have hnd : id ∉ rest ∧ rest.Nodup := by
    have := hd.nodup
    rwa [h, List.nodup_cons] at this
  refine ⟨hnd.2, fun k => ?_, fun k hk => ?_, fun k hk => ?_⟩
  · by_cases hk : k = id
    · simp [hk, hnd.1]
    · have := hd.mem_queue k
      rw [h, List.mem_cons] at this
      simpa [hk] using this
  · by_cases hk' : k = id
    · rw [hk']
    · exact absurd (by simpa [hk'] using hk) (hidle k)
  · rw [Option.some.injEq] at hk
    simp [hk]

theorem Move.sound {d d' : Discipline κ} (hd : d.Sound) (h : Move d d') : d'.Sound := by
  cases h with
  | create h =>
    exact hd.relabel (by simp [h]) (by simp) (by simp) (fun k hk => ⟨hd.owner_ne (by simp [h]) (by simp [h]) hk, hk⟩)
      (fun k _ hrun => hd.running k hrun)
  | destroy h =>
    exact hd.relabel (by simp [h]) (by simp) (by simp) (fun k hk => ⟨hd.owner_ne (by simp [h]) (by simp [h]) hk, hk⟩)
      (fun k _ hrun => hd.running k hrun)
  | enqueue h hst =>
    refine hd.enqueue ?_
    rw [h]
    rintro ⟨⟩
    cases hst
  | dispatch h hidle => exact hd.dispatch h hidle
  | rest hidle =>
    exact ⟨hd.nodup, hd.mem_queue, fun k hk => absurd hk (hidle k), fun k hk => by cases hk⟩
  | block h => exact hd.release h (by simp) (by simp)
  | exit h => exact hd.release h (by simp) (by simp)

abbrev Moves : Discipline κ → Discipline κ → Prop := Relation.ReflTransGen Move

theorem Moves.sound {d d' : Discipline κ} (h : Moves d d') (hd : d.Sound) : d'.Sound := by
  induction h with
  | refl => exact hd
  | tail _ hmove ih => exact hmove.sound ih

end Discipline

end X11Os
