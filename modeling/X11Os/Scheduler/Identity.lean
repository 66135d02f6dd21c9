import Mathlib.Data.Set.Insert
import X11Os.Scheduler.Basic

/-!
# Task names

A name is a slot and a generation.  `issued` is the set of the names that have been handed out: those whose generation
does not exceed the counter of their slot.  Creation issues a name that was not issued before; every other operation
only rewrites a block under its own name or empties a slot (`SameNames`), so no name is ever used for two tasks.
-/

namespace X11Os

open Word

namespace Scheduler

def issued (s : Scheduler) : Set TaskId :=
  { id | 1 ≤ id.generation.toNat ∧ id.generation.toNat ≤ (s.generations.getD id.index.toNat 0).toNat }

/-- The block in a slot carries the name of the slot, with the generation that was issued last. -/
structure Numbered (s : Scheduler) : Prop where
  length : s.generations.length = s.tasks.length
  slot : ∀ (i : Nat) (t : TaskControlBlock), s.tasks[i]? = some (some t) → t.id.index.toNat = i ∧
    s.generations[i]? = some t.id.generation ∧ 1 ≤ t.id.generation.toNat

theorem new_numbered : new.Numbered where
  length := rfl
  slot i t h := by cases h

theorem new_issued : new.issued = ∅ := by
  refine Set.eq_empty_of_forall_notMem fun id h => ?_
  have hle : id.generation.toNat ≤ 0 := h.2
  have hpos : 1 ≤ id.generation.toNat := h.1
  omega

theorem Numbered.mem_issued {s : Scheduler} (hs : s.Numbered) {id : TaskId} {t : TaskControlBlock}
    (h : s.task id = some t) : id ∈ s.issued := by
  obtain ⟨hslot, rfl⟩ := task_eq_some.mp h
  obtain ⟨-, hgen, hpos⟩ := hs.slot _ _ hslot
  refine ⟨hpos, ?_⟩
  rw [List.getD_eq_getElem?_getD, hgen, Option.getD_some]

/-! ### Operations that issue no name -/

/-- Every block that is there afterwards was there before under the same name, and no counter has moved. -/
structure SameNames (s s' : Scheduler) : Prop where
  generations : s'.generations = s.generations
  length : s'.tasks.length = s.tasks.length
  slot : ∀ (i : Nat) (t' : TaskControlBlock), s'.tasks[i]? = some (some t') →
    ∃ t, s.tasks[i]? = some (some t) ∧ t.id = t'.id

namespace SameNames

variable {s s' s'' : Scheduler}

theorem of_eq (htasks : s'.tasks = s.tasks) (hgenerations : s'.generations = s.generations) : SameNames s s' where
  generations := hgenerations
  length := by rw [htasks]
  slot i t' h := ⟨t', by rw [← htasks, h], rfl⟩

private theorem refl (s : Scheduler) : SameNames s s := of_eq rfl rfl

theorem trans (h : SameNames s s') (h' : SameNames s' s'') : SameNames s s'' where
  generations := h'.generations.trans h.generations
  length := h'.length.trans h.length
  slot i t'' ht'' := by
    obtain ⟨t', ht', hid'⟩ := h'.slot i t'' ht''
    obtain ⟨t, ht, hid⟩ := h.slot i t' ht'
    exact ⟨t, ht, hid.trans hid'⟩

theorem clearSlot (s : Scheduler) (index : Nat) : SameNames s (s.clearSlot index) where
  generations := rfl
  length := List.length_set
  slot i u hu := by
    rw [Scheduler.clearSlot, List.getElem?_set] at hu
    split_ifs at hu
    · cases hu
    · exact ⟨u, hu, rfl⟩

theorem numbered (h : SameNames s s') (hs : s.Numbered) : s'.Numbered where
  length := by rw [h.generations, h.length, hs.length]
  slot i t' ht' := by
    obtain ⟨t, ht, hid⟩ := h.slot i t' ht'
    rw [h.generations, ← hid]
    exact hs.slot i t ht

theorem issued (h : SameNames s s') : s'.issued = s.issued := by
  unfold Scheduler.issued
  rw [h.generations]

end SameNames

/-- The names in the slots. -/
def names (s : Scheduler) : List (Option TaskId) := s.tasks.map (Option.map TaskControlBlock.id)

theorem task_isSome_iff {s : Scheduler} {id : TaskId} :
    (s.task id).isSome = true ↔ s.names[id.index.toNat]? = some (some id) := by
  rw [Option.isSome_iff_exists, names, List.getElem?_map]
  constructor
  · rintro ⟨t, ht⟩
    obtain ⟨hslot, hid⟩ := task_eq_some.mp ht
    simp [hslot, hid]
  · intro h
    obtain ⟨slot, hslot, hname⟩ := Option.map_eq_some_iff.mp h
    obtain ⟨t, rfl, hid⟩ := Option.map_eq_some_iff.mp hname
    exact ⟨t, task_eq_some.mpr ⟨hslot, hid⟩⟩

theorem names_clearSlot (s : Scheduler) (index : Nat) : (s.clearSlot index).names = s.names.set index none := by
  rw [names, clearSlot, List.map_set]
  rfl

/-- Every slot has the block of the same name as before, and no counter has moved. -/
structure KeepsNames (s s' : Scheduler) : Prop where
  generations : s'.generations = s.generations
  names : s'.names = s.names

namespace KeepsNames

variable {s s' s'' : Scheduler}

private theorem of_eq (htasks : s'.tasks = s.tasks) (hgenerations : s'.generations = s.generations) :
    KeepsNames s s' :=
  ⟨hgenerations, by rw [Scheduler.names, htasks, Scheduler.names]⟩

theorem refl (s : Scheduler) : KeepsNames s s := ⟨rfl, rfl⟩

private theorem trans (h : KeepsNames s s') (h' : KeepsNames s' s'') : KeepsNames s s'' :=
  ⟨h'.generations.trans h.generations, h'.names.trans h.names⟩

theorem setTask {id : TaskId} {t : TaskControlBlock} (ht : s.task id = some t) (t' : TaskControlBlock)
    (hid : t'.id = t.id) : KeepsNames s (s.setTask t') where
  generations := rfl
  names := by
    obtain ⟨hslot, rfl⟩ := task_eq_some.mp ht
    rw [Scheduler.names, Scheduler.setTask, List.map_set, ← Scheduler.names, Option.map_some, hid]
    have hname : s.names[t.id.index.toNat]? = some (some t.id) := task_isSome_iff.mp (by rw [ht]; rfl)
    obtain ⟨hlt, hget⟩ := List.getElem?_eq_some_iff.mp hname
    rw [← hget, List.set_getElem_self]

theorem sameNames (h : KeepsNames s s') : SameNames s s' where
  generations := h.generations
  length := by
    have hlength := congrArg List.length h.names
    simpa [Scheduler.names] using hlength
  slot i t' ht' := by
    have hname : s.names[i]? = some (some t'.id) := by
      rw [← h.names, Scheduler.names, List.getElem?_map, ht']
      rfl
    rw [Scheduler.names, List.getElem?_map] at hname
    obtain ⟨slot, hslot, hslotName⟩ := Option.map_eq_some_iff.mp hname
    obtain ⟨t, rfl, hid⟩ := Option.map_eq_some_iff.mp hslotName
    exact ⟨t, hslot, hid⟩

theorem task_isSome (h : KeepsNames s s') (id : TaskId) : (s'.task id).isSome = (s.task id).isSome := by
  rw [Bool.eq_iff_iff, task_isSome_iff, task_isSome_iff, h.names]

end KeepsNames

section Operations

variable (s : Scheduler)

theorem attachExecution_keepsNames (id : TaskId) : KeepsNames s (s.attachExecution id).1 := by
  rcases s.attachExecution_cases id with ⟨e, h⟩ | ⟨t, ht, -, h⟩
  · rw [h]
    exact .refl s
  · rw [h]
    exact .setTask ht _ rfl

theorem makeReady_keepsNames (id : TaskId) : KeepsNames s (s.makeReady id).1 := by
  rcases s.makeReady_cases id with h | ⟨t, ht, -, -, h⟩
  · rw [h]
    exact .refl s
  · rw [h]
    exact (KeepsNames.setTask ht { t with state := .ready } rfl).trans (.of_eq rfl rfl)

theorem terminateCurrentTo_sameNames (successor : TaskId) : SameNames s (s.terminateCurrentTo successor).1 := by
  rcases s.terminateCurrentTo_cases successor with
    ⟨e, h⟩ | ⟨current, rest, t, t', -, hne, -, ht, -, ht', -, h⟩
  · rw [h]
    exact .refl s
  · have hclear : (s.clearSlot current.index.toNat).task successor = some t' := by
      rw [task_clearSlot ht, Function.update_of_ne (Ne.symm hne), ht']
    rw [h]
    exact (SameNames.clearSlot s _).trans
      ((KeepsNames.setTask hclear { t' with state := .running } rfl).sameNames.trans (.of_eq rfl rfl))

private theorem requeuePrevious_keepsNames : KeepsNames s s.requeuePrevious := by
  rcases s.requeuePrevious_cases with ⟨h, -⟩ | ⟨id, t, -, ht, -, h⟩
  · rw [h]
    exact .refl s
  · rw [h]
    exact (KeepsNames.setTask ht { t with state := .ready } rfl).trans (.of_eq rfl rfl)

private theorem keepPrevious_keepsNames (previous : TaskId) : KeepsNames s (s.keepPrevious previous).1 := by
  unfold keepPrevious
  dsimp only
  cases ht : ({ s with ready := s.ready.pop.1 } : Scheduler).task previous with
  | none => exact .of_eq rfl rfl
  | some t =>
    refine (show KeepsNames s { s with ready := s.ready.pop.1 } from .of_eq rfl rfl).trans ?_
    exact (KeepsNames.setTask ht (t.transition .running).1 (t.transition_id .running)).trans (.of_eq rfl rfl)

private theorem dispatchHead_keepsNames (previous : Option TaskId) : KeepsNames s (s.dispatchHead previous).1 := by
  unfold dispatchHead
  dsimp only
  split
  · exact .of_eq rfl rfl
  · rename_i id hid
    cases ht : ({ s with ready := s.ready.pop.1 } : Scheduler).task id with
    | none => exact .of_eq rfl rfl
    | some t =>
      dsimp only
      split
      · rename_i t' htr
        have hid' : t'.id = t.id := by
          rw [← t.transition_id .running, htr]
        refine (show KeepsNames s { s with ready := s.ready.pop.1 } from .of_eq rfl rfl).trans ?_
        exact (KeepsNames.setTask ht t' hid').trans (.of_eq rfl rfl)
      · exact .of_eq rfl rfl

theorem scheduleNext_keepsNames : KeepsNames s s.scheduleNext.1 := by
  refine s.requeuePrevious_keepsNames.trans ?_
  unfold scheduleNext
  dsimp only
  split
  · exact dispatchHead_keepsNames _ _
  · split_ifs
    · exact keepPrevious_keepsNames _ _
    · exact dispatchHead_keepsNames _ _

private theorem block_keepsNames {s : Scheduler} {id : TaskId} {t : TaskControlBlock} (ht : s.task id = some t) :
    KeepsNames s { s.setTask { t with state := .blocked } with current := none } :=
  (KeepsNames.setTask ht { t with state := .blocked } rfl).trans (.of_eq rfl rfl)

theorem blockCurrentOn_keepsNames (waiters : WaitQueue) : KeepsNames s (s.blockCurrentOn waiters).1 := by
  rcases s.blockCurrentOn_cases waiters with ⟨e, h⟩ | ⟨id, t, -, ht, -, -, h⟩
  · rw [h]
    exact .refl s
  · rw [h]
    exact block_keepsNames ht

theorem blockCurrent_keepsNames : KeepsNames s s.blockCurrent.1 := by
  rcases s.blockCurrent_cases with h | ⟨id, t, -, ht, -, h⟩
  · rw [h]
    exact .refl s
  · rw [h]
    exact block_keepsNames ht

theorem sleepCurrentUntil_keepsNames (deadline : U64) (sleepers : SleepQueue) :
    KeepsNames s (s.sleepCurrentUntil deadline sleepers).1 := by
  rcases s.sleepCurrentUntil_cases deadline sleepers with ⟨e, h⟩ | ⟨id, t, -, ht, -, -, h⟩
  · rw [h]
    exact .refl s
  · rw [h]
    exact block_keepsNames ht

theorem wakeOneLoop_keepsNames (waiters : List TaskId) : KeepsNames s (s.wakeOneLoop waiters).1 := by
  induction waiters with
  | nil => exact .refl s
  | cons id rest ih =>
    unfold wakeOneLoop
    cases ht : s.task id with
    | none => exact ih
    | some t =>
      by_cases hst : t.state = .blocked
      · have htr : t.transition .ready = ({ t with state := .ready }, true) :=
          TaskControlBlock.transition_of (by rw [hst]; rfl)
        have hset := KeepsNames.setTask ht { t with state := .ready } rfl
        simp only [hst, ne_eq, not_true_eq_false, if_false, htr]
        split
        · have hself : (s.setTask { t with state := .ready }).task id = some { t with state := .ready } := by
            rw [task_setTask ht { t with state := .ready } rfl, Function.update_self]
          exact hset.trans (.setTask hself _ (TaskControlBlock.transition_id _ _))
        · exact hset.trans (.of_eq rfl rfl)
      · simp only [hst, ne_eq, not_false_eq_true, if_true]
        exact ih

theorem wakeSleeper_keepsNames (id : TaskId) : KeepsNames s (s.wakeSleeper id).1 := by
  rcases s.wakeSleeper_cases id with h | ⟨t, ht, -, h⟩
  · rw [h]
    exact .refl s
  · rw [h]
    exact (KeepsNames.setTask ht { t with state := .ready } rfl).trans (.of_eq rfl rfl)

theorem wakeSleepers_keepsNames (expired : List TaskId) : KeepsNames s (s.wakeSleepers expired).1 := by
  induction expired generalizing s with
  | nil => exact .refl s
  | cons id rest ih =>
    have hone := s.wakeSleeper_keepsNames id
    unfold wakeSleepers
    rcases hw : s.wakeSleeper id with ⟨s', woken⟩
    rw [hw] at hone
    cases woken <;> exact hone.trans (ih s')

theorem exitCurrent_sameNames : SameNames s s.exitCurrent.1 := by
  rcases s.exitCurrent_cases with h | ⟨id, t, -, -, -, h⟩
  · rw [h]
    exact .refl s
  · rw [h]
    exact (SameNames.clearSlot s _).trans (.of_eq rfl rfl)

end Operations

/-! ### What a switch does -/

theorem terminateCurrentTo_spec {s : Scheduler} {current successor : TaskId} {rest : List TaskId}
    {t t' : TaskControlBlock} (hcur : s.current = some current) (hne : current ≠ successor)
    (hq : s.ready.queue = successor :: rest) (ht : s.task current = some t) (hst : t.state = .running)
    (ht' : s.task successor = some t') (hst' : t'.state = .ready) :
    ∃ s', s.terminateCurrentTo successor = (s', .ok successor) ∧
      s'.task = Function.update (Function.update s.task current none) successor (some { t' with state := .running }) ∧
      s'.ready.queue = rest ∧ s'.current = some successor ∧ SameNames s s' := by
  have hok := terminateCurrentTo_ok hcur hne hq ht hst ht' hst'
  have hnames := s.terminateCurrentTo_sameNames successor
  have hclear : (s.clearSlot current.index.toNat).task successor = some t' := by
    rw [task_clearSlot ht, Function.update_of_ne (Ne.symm hne), ht']
  rw [hok] at hnames
  refine ⟨_, hok, ?_, rfl, rfl, hnames⟩
  show ((s.clearSlot current.index.toNat).setTask { t' with state := .running }).task = _
  rw [task_setTask hclear { t' with state := .running } rfl, task_clearSlot ht]

theorem scheduleNext_idle_spec {s : Scheduler} {id : TaskId} {t : TaskControlBlock} {rest : List TaskId}
    (hcur : s.current = none) (hq : s.ready.queue = id :: rest) (ht : s.task id = some t) (hst : t.state = .ready) :
    ∃ s', s.scheduleNext = (s', ⟨none, some id⟩) ∧
      s'.task = Function.update s.task id (some { t with state := .running }) ∧ s'.ready.queue = rest ∧
      s'.current = some id ∧ SameNames s s' := by
  have hok := scheduleNext_of_idle hcur hq ht hst
  have hnames := s.scheduleNext_keepsNames.sameNames
  rw [hok] at hnames
  exact ⟨_, hok, task_setTask ht { t with state := .running } rfl, rfl, rfl, hnames⟩

theorem scheduleNext_running_spec {s : Scheduler} {current id : TaskId} {t t' : TaskControlBlock} {rest : List TaskId}
    (hcur : s.current = some current) (ht : s.task current = some t) (hst : t.state = .running)
    (hnot : current ∉ s.ready.queue) (hq : s.ready.queue = id :: rest) (ht' : s.task id = some t')
    (hst' : t'.state = .ready) :
    ∃ s', s.scheduleNext = (s', ⟨some current, some id⟩) ∧
      s'.task = Function.update (Function.update s.task current (some { t with state := .ready })) id
        (some { t' with state := .running }) ∧
      s'.ready.queue = rest ++ [current] ∧ s'.current = some id ∧ SameNames s s' := by
  have hok := scheduleNext_of_running hcur ht hst hnot hq ht' hst'
  have hnames := s.scheduleNext_keepsNames.sameNames
  have hne : id ≠ current := by
    rintro rfl
    exact hnot (by rw [hq]; exact List.mem_cons_self)
  have hset : (s.setTask { t with state := .ready }).task id = some t' := by
    rw [task_setTask ht { t with state := .ready } rfl, Function.update_of_ne hne, ht']
  rw [hok] at hnames
  refine ⟨_, hok, ?_, rfl, rfl, hnames⟩
  show ((s.setTask { t with state := .ready }).setTask { t' with state := .running }).task = _
  rw [task_setTask hset { t' with state := .running } rfl, task_setTask ht { t with state := .ready } rfl]

/-! ### Creation -/

/-- Filling a slot under the next generation of its counter issues one name. -/
private theorem issues_of_fill {s : Scheduler} (s' : Scheduler) (t : TaskControlBlock) (hs : s.Numbered)
    (hnext : t.id.generation.toNat = (s.generations.getD t.id.index.toNat 0).toNat + 1)
    (hlength : s'.generations.length = s'.tasks.length)
    (htask : s'.tasks[t.id.index.toNat]? = some (some t))
    (hgeneration : s'.generations[t.id.index.toNat]? = some t.id.generation)
    (hother : ∀ j, j ≠ t.id.index.toNat →
      s'.tasks[j]? = s.tasks[j]? ∧ s'.generations[j]? = s.generations[j]?) :
    t.id ∉ s.issued ∧ s'.issued = insert t.id s.issued ∧ s'.Numbered := by
  refine ⟨fun h => ?_, ?_, hlength, fun i u hu => ?_⟩
  · have := h.2
    omega
  · ext k
    by_cases hk : k.index.toNat = t.id.index.toNat
    · have hname : k = t.id ↔ k.generation.toNat = t.id.generation.toNat := by
        constructor
        · rintro rfl
          rfl
        · intro h
          have h1 := BitVec.toNat_inj.mp hk
          have h2 := BitVec.toNat_inj.mp h
          cases k
          cases hid : t.id
          simp_all
      have hself : s'.generations.getD k.index.toNat 0 = t.id.generation := by
        rw [hk, List.getD_eq_getElem?_getD, hgeneration, Option.getD_some]
      simp only [Set.mem_insert_iff, issued, Set.mem_ofPred_eq, hname, hself]
      rw [hk]
      omega
    · have hne : k ≠ t.id := fun h => hk (by rw [h])
      have hsame : s'.generations.getD k.index.toNat 0 = s.generations.getD k.index.toNat 0 := by
        rw [List.getD_eq_getElem?_getD, (hother _ hk).2, ← List.getD_eq_getElem?_getD]
      simp only [Set.mem_insert_iff, issued, Set.mem_ofPred_eq, hsame, hne, false_or]
  · by_cases hi : i = t.id.index.toNat
    · subst hi
      rw [htask, Option.some.injEq, Option.some.injEq] at hu
      subst hu
      exact ⟨rfl, hgeneration, by omega⟩
    · rw [(hother i hi).1] at hu
      rw [(hother i hi).2]
      exact hs.slot i u hu

/-- Creation issues one name, which was not issued before. -/
theorem createTaskWithKind_issues {s s' : Scheduler} {priority : Priority} {kind : TaskKind} {id : TaskId}
    (hs : s.Numbered) (h : s.createTaskWithKind priority kind = (s', id)) (hslots : s'.tasks.length ≤ 2 ^ 32) :
    id ∉ s.issued ∧ s'.issued = insert id s.issued ∧ s'.Numbered := by
  have hname : ∀ id, (newBlock id priority kind).id = id := fun id => newBlock_id id priority kind
  unfold createTaskWithKind at h
  split at h
  · rename_i index hfree
    obtain ⟨hslot, hmax⟩ := freeSlot_some hfree
    have hlt : index < s.tasks.length := (List.getElem?_eq_some_iff.mp hslot).1
    have hltg : index < s.generations.length := by rwa [hs.length]
    obtain ⟨rfl, rfl⟩ := Prod.mk.inj h
    rw [List.length_set] at hslots
    have hindex : (BitVec.ofNat 32 index).toNat = index := by
      rw [BitVec.toNat_ofNat]
      exact Nat.mod_eq_of_lt (by omega)
    have hnext : (s.generations.getD index 0 + 1).toNat = (s.generations.getD index 0).toNat + 1 := by
      have hbound : (s.generations.getD index 0).toNat ≠ 2 ^ 32 - 1 := fun heq => hmax (BitVec.eq_of_toNat_eq heq)
      have hrange := (s.generations.getD index 0).isLt
      have hone : (1 : U32).toNat = 1 := rfl
      rw [BitVec.toNat_add, hone]
      exact Nat.mod_eq_of_lt (by omega)
    have hfill := issues_of_fill { s with
        generations := s.generations.set index (s.generations.getD index 0 + 1)
        tasks := s.tasks.set index (some (newBlock ⟨BitVec.ofNat 32 index, s.generations.getD index 0 + 1⟩
          priority kind)) } (newBlock ⟨BitVec.ofNat 32 index, s.generations.getD index 0 + 1⟩ priority kind) hs
    simp only [hname, hindex] at hfill
    exact hfill hnext (by simp [hs.length]) (by simp [hlt]) (by simp [hltg])
      (fun j hj => ⟨List.getElem?_set_ne (Ne.symm hj), List.getElem?_set_ne (Ne.symm hj)⟩)
  · obtain ⟨rfl, rfl⟩ := Prod.mk.inj h
    rw [List.length_append, List.length_singleton] at hslots
    have hindex : (BitVec.ofNat 32 s.tasks.length).toNat = s.tasks.length := by
      rw [BitVec.toNat_ofNat]
      exact Nat.mod_eq_of_lt (by omega)
    have hfill := issues_of_fill { s with
        tasks := s.tasks ++ [some (newBlock ⟨BitVec.ofNat 32 s.tasks.length, 1⟩ priority kind)]
        generations := s.generations ++ [1] } (newBlock ⟨BitVec.ofNat 32 s.tasks.length, 1⟩ priority kind) hs
    simp only [hname, hindex] at hfill
    refine hfill ?_ (by simp [hs.length]) (by simp) (by simp [← hs.length]) (fun j hj => ?_)
    · rw [List.getD_eq_getElem?_getD, List.getElem?_eq_none (by rw [hs.length])]
      rfl
    · have happend : ∀ {α : Type} (l : List α) (a : α), l.length = s.tasks.length → (l ++ [a])[j]? = l[j]? := by
        intro α l a hl
        rcases Nat.lt_or_gt_of_ne hj with hj | hj
        · exact List.getElem?_append_left (by omega)
        · rw [List.getElem?_eq_none (by simp; omega), List.getElem?_eq_none (by omega)]
      exact ⟨happend _ _ rfl, happend _ _ hs.length⟩

/-! ### Tasks under construction -/

/-- `s'` is `s` with one more task, which has a new name and its execution handle but is not queued yet. -/
structure Newborn (s s' : Scheduler) (id : TaskId) (kind : TaskKind) : Prop where
  numbered : s'.Numbered
  fresh : id ∉ s.issued
  issued : s'.issued = insert id s.issued
  absent : s.task id = none
  task : ∃ t : TaskControlBlock, t.kind = kind ∧ t.state = .created ∧ t.execution = some (.forTask id) ∧
    s'.task = Function.update s.task id (some t)
  ready : s'.ready = s.ready
  current : s'.current = s.current

/-- Creating a task and attaching its execution. -/
theorem createTaskWithKind_newborn {s s₁ : Scheduler} {priority : Priority} {kind : TaskKind} {id : TaskId}
    (hs : s.Numbered) (hfits : s.tasks.length < 2 ^ 32) (h : s.createTaskWithKind priority kind = (s₁, id)) :
    ∃ s₂, s₁.attachExecution id = (s₂, .ok (.forTask id)) ∧ Newborn s s₂ id kind := by
  have hslots : s₁.tasks.length ≤ 2 ^ 32 := by
    have hgrow : (s.createTaskWithKind priority kind).1.tasks.length ≤ s.tasks.length + 1 := by
      unfold createTaskWithKind
      split <;> simp
    rw [h] at hgrow
    exact hgrow.trans hfits
  obtain ⟨habsent, htask, hready, hcurrent⟩ := createTaskWithKind_spec h hslots
  obtain ⟨hfresh, hissued, hnumbered⟩ := createTaskWithKind_issues hs h hslots
  have hself : s₁.task id = some (newBlock id priority kind) := by rw [htask, Function.update_self]
  rcases s₁.attachExecution_cases id with ⟨e, hattach⟩ | ⟨t, ht, -, hattach⟩
  · -- a new block has no execution yet
    rw [attachExecution, hself] at hattach
    cases kind <;> exact absurd (Prod.mk.inj hattach).2 (by simp)
  · rw [hself, Option.some.injEq] at ht
    have hsame := (s₁.attachExecution_keepsNames id).sameNames
    rw [hattach] at hsame
    refine ⟨_, hattach, ?_⟩
    exact
      { numbered := hsame.numbered hnumbered
        fresh := hfresh
        issued := hsame.issued.trans hissued
        absent := habsent
        task := by
          refine ⟨{ t with execution := some (.forTask id) }, ?_, ?_, rfl, ?_⟩
          · rw [← ht]
            cases kind <;> rfl
          · rw [← ht, newBlock_state]
          · rw [task_setTask hself { t with execution := some (.forTask id) } (by rw [← ht]), htask,
              Function.update_idem]
        ready := hready
        current := hcurrent }

namespace Newborn

variable {s s' : Scheduler} {id : TaskId} {kind : TaskKind}

/-- Giving up a task under construction leaves no trace of it but its name, which stays issued. -/
theorem destroyCreated (h : Newborn s s' id kind) :
    ∃ s'', s'.destroyCreated id = (s'', .ok (.forTask id)) ∧ s''.Numbered ∧ s''.issued = insert id s.issued ∧
      s''.task = s.task ∧ s''.ready = s.ready ∧ s''.current = s.current := by
  obtain ⟨t, -, hstate, hexecution, htask⟩ := h.task
  have ht : s'.task id = some t := by rw [htask, Function.update_self]
  have hdestroy : s'.destroyCreated id = (s'.clearSlot id.index.toNat, .ok (.forTask id)) := by
    obtain ⟨hslot, hid⟩ := task_eq_some.mp ht
    simp [Scheduler.destroyCreated, hslot, hid, hstate, TaskControlBlock.detachExecution, hexecution]
  have hsame := SameNames.clearSlot s' id.index.toNat
  refine ⟨_, hdestroy, hsame.numbered h.numbered, hsame.issued.trans h.issued, ?_, h.ready, h.current⟩
  rw [task_clearSlot ht, htask, Function.update_idem, ← h.absent, Function.update_eq_self]

theorem makeReady (h : Newborn s s' id kind) (hqueue : id ∉ s.ready.queue) :
    ∃ s'' t, s'.makeReady id = (s'', true) ∧ s''.Numbered ∧ s''.issued = insert id s.issued ∧
      t.kind = kind ∧ t.state = .ready ∧ t.execution = some (.forTask id) ∧
      s''.task = Function.update s.task id (some t) ∧ s''.ready.queue = s.ready.queue ++ [id] ∧
      s''.current = s.current := by
  obtain ⟨t, hkind, hstate, hexecution, htask⟩ := h.task
  have ht : s'.task id = some t := by rw [htask, Function.update_self]
  have hsame := (s'.makeReady_keepsNames id).sameNames
  rcases s'.makeReady_cases id with hmake | ⟨t', ht', -, -, hmake⟩
  · have hcontains : s'.ready.contains id = false := by
      simpa [RunQueue.contains, h.ready] using hqueue
    have htransition : t.transition .ready = ({ t with state := .ready }, true) :=
      TaskControlBlock.transition_of (by rw [hstate]; rfl)
    rw [Scheduler.makeReady, hcontains, ht] at hmake
    simp [htransition, h.ready, RunQueue.push_of_notMem hqueue] at hmake
  · rw [ht, Option.some.injEq] at ht'
    subst ht'
    rw [hmake] at hsame
    refine ⟨_, { t with state := .ready }, hmake, hsame.numbered h.numbered, hsame.issued.trans h.issued, hkind, rfl,
      hexecution, ?_, by rw [← h.ready], h.current⟩
    show (s'.setTask { t with state := .ready }).task = _
    rw [task_setTask ht { t with state := .ready } rfl, htask, Function.update_idem]

end Newborn

end Scheduler

end X11Os
