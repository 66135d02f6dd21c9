import X11Os.Lib.Ledger
import X11Os.Scheduler.Invariant

/-!
# Task names over whole runs

An operation keeps the names in the slots, takes one name out, or fills one slot under a new name (`Naming`).  So over
any run that fits the 32-bit index no name is returned twice, a name is live from the call that creates its task to
the call that destroys it or ends it, and from then on every operation refuses it.  A slot whose counter is used up is
passed over by every later creation.
-/

namespace X11Os

open Word

namespace Scheduler

/-! ### The names an operation issues and removes -/

/-- The name that an operation returns for a new task. -/
def created (s : Scheduler) : Op → List TaskId
  | .createTask priority => [(s.createTask priority).2]
  | .createUserTask priority => [(s.createUserTask priority).2]
  | _ => []

/-- The name of the task that an operation destroys or ends. -/
def removed (s : Scheduler) : Op → List TaskId
  | .destroyCreated id =>
    match (s.destroyCreated id).2 with
    | .ok _ => [id]
    | .error _ => []
  | .terminateCurrentTo successor =>
    match (s.terminateCurrentTo successor).2 with
    | .ok _ => s.current.toList
    | .error _ => []
  | .exitCurrent => if s.exitCurrent.2 then s.current.toList else []
  | _ => []

/-- What an operation does to the names in the slots. -/
inductive Naming (s : Scheduler) : Scheduler → List TaskId → List TaskId → Prop where
  | keeps {s' : Scheduler} (h : KeepsNames s s') : Naming s s' [] []
  | clears {s' : Scheduler} {id : TaskId} (hlive : (s.task id).isSome = true) (hsame : SameNames s s')
      (hnames : s'.names = s.names.set id.index.toNat none) : Naming s s' [] [id]
  | creates {s' : Scheduler} {id : TaskId} {priority : Priority} {kind : TaskKind}
      (h : s.createTaskWithKind priority kind = (s', id)) : Naming s s' [id] []

private theorem perform_naming (s : Scheduler) (op : Op) : Naming s (s.perform op) (s.created op) (s.removed op) := by
  cases op with
  | createTask priority => exact .creates rfl
  | createUserTask priority => exact .creates rfl
  | attachExecution id => exact .keeps (s.attachExecution_keepsNames id)
  | destroyCreated id =>
    rcases s.destroyCreated_cases id with ⟨e, h⟩ | ⟨t, handle, ht, -, -, h⟩
    · simpa only [perform, created, removed, h] using .keeps (.refl s)
    · simpa only [perform, created, removed, h] using
        .clears (by rw [ht]; rfl) (.clearSlot s _) (s.names_clearSlot id.index.toNat)
  | makeReady id => exact .keeps (s.makeReady_keepsNames id)
  | terminateCurrentTo successor =>
    rcases s.terminateCurrentTo_cases successor with
      ⟨e, h⟩ | ⟨current, rest, t, t', hcur, hne, -, ht, -, ht', -, h⟩
    · simpa only [perform, created, removed, h] using .keeps (.refl s)
    · have hclear : (s.clearSlot current.index.toNat).task successor = some t' := by
        rw [task_clearSlot ht, Function.update_of_ne (Ne.symm hne), ht']
      have hkeeps := KeepsNames.setTask hclear { t' with state := .running } rfl
      have hsame := s.terminateCurrentTo_sameNames successor
      rw [h] at hsame
      simp only [perform, created, removed, h, hcur, Option.toList_some]
      exact .clears (by rw [ht]; rfl) hsame (hkeeps.names.trans (s.names_clearSlot current.index.toNat))
  | scheduleNext => exact .keeps s.scheduleNext_keepsNames
  | blockCurrentOn waiters => exact .keeps (s.blockCurrentOn_keepsNames waiters)
  | blockCurrent => exact .keeps s.blockCurrent_keepsNames
  | wakeOne waiters => exact .keeps (s.wakeOneLoop_keepsNames waiters.queue)
  | sleepCurrentUntil deadline sleepers => exact .keeps (s.sleepCurrentUntil_keepsNames deadline sleepers)
  | expireSleepers now sleepers => exact .keeps (s.wakeSleepers_keepsNames (sleepers.expireUntil now).2)
  | exitCurrent =>
    rcases s.exitCurrent_cases with h | ⟨id, t, hcur, ht, -, h⟩
    · simpa only [perform, created, removed, h] using .keeps (.refl s)
    · simp only [perform, created, removed, h, hcur, if_true, Option.toList_some]
      exact .clears (by rw [ht]; rfl) ((SameNames.clearSlot s _).trans (.of_eq rfl rfl))
        (s.names_clearSlot id.index.toNat)

/-! ### The accounts of the names -/

private theorem length_createTaskWithKind (s : Scheduler) (priority : Priority) (kind : TaskKind) :
    s.tasks.length ≤ (s.createTaskWithKind priority kind).1.tasks.length := by
  unfold createTaskWithKind
  split <;> simp

/-- The names of live tasks. -/
def liveNames (s : Scheduler) : Set TaskId := { id | (s.task id).isSome = true }

namespace Naming

variable {s s' : Scheduler} {given taken : List TaskId}

private theorem length_le (h : Naming s s' given taken) : s.tasks.length ≤ s'.tasks.length := by
  cases h with
  | keeps h => exact h.sameNames.length.ge
  | clears hlive hsame hnames => exact hsame.length.ge
  | @creates id priority kind h =>
    have hle := s.length_createTaskWithKind priority kind
    rwa [h] at hle

private theorem exchange (h : Naming s s' given taken) (hs : s.Numbered) (hslots : s'.tasks.length ≤ 2 ^ 32) :
    s'.Numbered ∧ Supply.Exchange (fun s => s.issuedᶜ) liveNames s s' given taken := by
  have hdraw : ∀ {s' : Scheduler}, s'.issued = s.issued → Supply.Draw (fun s => s.issuedᶜ) s s' [] := by
    intro s' hissued
    exact .nothing (by rw [hissued])
  cases h with
  | keeps h =>
    refine ⟨h.sameNames.numbered hs, hdraw h.sameNames.issued, by simp, fun id => ?_⟩
    simp [liveNames, h.task_isSome id]
  | @clears id hlive hsame hnames =>
    have hname : s.names[id.index.toNat]? = some (some id) := task_isSome_iff.mp hlive
    refine ⟨hsame.numbered hs, hdraw hsame.issued, fun k hk => ?_, fun k => ?_⟩
    · rw [List.mem_singleton.mp hk]
      exact hlive
    · show (s'.task k).isSome = true ↔ _ ∨ (s.task k).isSome = true ∧ _
      rw [task_isSome_iff, task_isSome_iff, hnames]
      simp only [List.not_mem_nil, false_or, List.mem_singleton]
      by_cases hk : k.index.toNat = id.index.toNat
      · -- the emptied slot had one live name
        rw [hk, List.getElem?_set_self (List.getElem?_eq_some_iff.mp hname).1, hname]
        simp [eq_comm]
      · rw [List.getElem?_set_ne (Ne.symm hk)]
        refine ⟨fun h => ⟨h, ?_⟩, And.left⟩
        rintro rfl
        exact hk rfl
  | @creates id priority kind h =>
    obtain ⟨hfresh, hissued, hnumbered⟩ := createTaskWithKind_issues hs h hslots
    obtain ⟨hnone, htask, -, -⟩ := createTaskWithKind_spec h hslots
    refine ⟨hnumbered, .single hfresh fun k hk => ?_, by simp, fun k => ?_⟩
    · rw [hissued, Set.mem_compl_iff, Set.mem_insert_iff, not_or] at hk
      exact ⟨hk.2, hk.1⟩
    · show (s'.task k).isSome = true ↔ _ ∨ (s.task k).isSome = true ∧ _
      rw [htask]
      by_cases hk : k = id
      · simp [hk]
      · simp [hk]

end Naming

private theorem perform_ledger :
    Supply.Ledger perform created removed (fun s => s.tasks.length < 2 ^ 32) Numbered (fun s => s.issuedᶜ)
      liveNames where
  within s op h := Nat.lt_of_le_of_lt (s.perform_naming op).length_le h
  valid s op hs h := ((s.perform_naming op).exchange hs (Nat.le_of_lt h)).1
  exchange s op hs h := ((s.perform_naming op).exchange hs (Nat.le_of_lt h)).2

/-- The names returned by the operations of a run. -/
def createdIn (ops : List Op) : List TaskId := Supply.Ledger.total perform created new ops

/-- The names of the tasks destroyed or ended by the operations of a run. -/
def removedIn (ops : List Op) : List TaskId := Supply.Ledger.total perform removed new ops

private theorem run_account (ops : List Op) (hslots : (run ops).tasks.length < 2 ^ 32) :
    Supply.Ledger.Account perform created removed Numbered (fun s => s.issuedᶜ) liveNames new ops :=
  perform_ledger.account new_numbered (fun id hid => by simp [liveNames, new, task] at hid) ops hslots

theorem Reached.numbered {s : Scheduler} (h : s.Reached) (hslots : s.tasks.length < 2 ^ 32) : s.Numbered := by
  obtain ⟨ops, rfl⟩ := h
  exact (run_account ops hslots).valid

/-! ### Names of tasks that are gone -/

/-- Every operation that takes a name refuses this one and changes nothing. -/
structure Refuses (s : Scheduler) (id : TaskId) : Prop where
  makeReady : s.makeReady id = (s, false)
  attachExecution : ∃ e, s.attachExecution id = (s, .error e)
  destroyCreated : ∃ e, s.destroyCreated id = (s, .error e)
  state : s.state id = none
  execution : s.execution id = none
  taskKind : s.taskKind id = none

private theorem Refuses.of_not_live {s : Scheduler} {id : TaskId} (h : id ∉ s.liveNames) : s.Refuses id := by
  have hnone : s.task id = none := by
    rw [← Option.not_isSome_iff_eq_none]
    exact h
  constructor
  case makeReady =>
    rcases s.makeReady_cases id with hcase | ⟨t, ht, -⟩
    · exact hcase
    · simp [hnone] at ht
  case attachExecution =>
    rcases s.attachExecution_cases id with hcase | ⟨t, ht, -⟩
    · exact hcase
    · simp [hnone] at ht
  case destroyCreated =>
    rcases s.destroyCreated_cases id with hcase | ⟨t, handle, ht, -⟩
    · exact hcase
    · simp [hnone] at ht
  case state => rw [Scheduler.state, hnone, Option.map_none]
  case execution => rw [Scheduler.execution, hnone, Option.bind_none]
  case taskKind => rw [Scheduler.taskKind, hnone, Option.map_none]

/-! ### Slots whose counter is used up -/

/-- Creation passes over a slot whose counter is used up. -/
private theorem createTaskWithKind_retired {s s' : Scheduler} {priority : Priority} {kind : TaskKind} {id : TaskId}
    {i : Nat}
    (h : s.createTaskWithKind priority kind = (s', id)) (hs : s.Numbered) (hslots : s'.tasks.length ≤ 2 ^ 32)
    (hretired : s.generations[i]? = some u32Max) :
    s'.generations[i]? = some u32Max ∧ s'.tasks[i]? = s.tasks[i]? ∧ id.index.toNat ≠ i := by
  have hi : i < s.tasks.length := by
    rw [← hs.length]
    exact (List.getElem?_eq_some_iff.mp hretired).1
  unfold createTaskWithKind at h
  split at h
  · rename_i index hfree
    obtain ⟨hslot, hmax⟩ := freeSlot_some hfree
    have hlt : index < s.tasks.length := (List.getElem?_eq_some_iff.mp hslot).1
    have hne : index ≠ i := by
      rintro rfl
      rw [List.getD_eq_getElem?_getD, hretired] at hmax
      exact hmax rfl
    obtain ⟨rfl, rfl⟩ := Prod.mk.inj h
    rw [List.length_set] at hslots
    refine ⟨?_, List.getElem?_set_ne hne, ?_⟩
    · rw [List.getElem?_set_ne hne, hretired]
    · rw [BitVec.toNat_ofNat]
      omega
  · obtain ⟨rfl, rfl⟩ := Prod.mk.inj h
    rw [List.length_append, List.length_singleton] at hslots
    refine ⟨?_, List.getElem?_append_left hi, ?_⟩
    · rw [List.getElem?_append_left (by rwa [hs.length]), hretired]
    · rw [BitVec.toNat_ofNat]
      omega

/-- A slot whose counter is used up stays so; when it is empty it stays empty. -/
private theorem Naming.retired {s s' : Scheduler} {given taken : List TaskId} {i : Nat} (h : Naming s s' given taken)
    (hs : s.Numbered) (hslots : s'.tasks.length ≤ 2 ^ 32) (hretired : s.generations[i]? = some u32Max) :
    s'.generations[i]? = some u32Max ∧ (s.tasks[i]? = some none → s'.tasks[i]? = some none) ∧
      ∀ id ∈ given, id.index.toNat ≠ i := by
  have hempty : ∀ {s' : Scheduler}, SameNames s s' → s.tasks[i]? = some none → s'.tasks[i]? = some none := by
    intro s' hsame hslot
    have hlt : i < s'.tasks.length := by
      rw [hsame.length]
      exact (List.getElem?_eq_some_iff.mp hslot).1
    rw [List.getElem?_eq_getElem hlt]
    cases hslot' : s'.tasks[i] with
    | none => rfl
    | some t' =>
      obtain ⟨t, ht, -⟩ := hsame.slot i t' (by rw [List.getElem?_eq_getElem hlt, hslot'])
      rw [hslot] at ht
      cases ht
  cases h with
  | keeps h => exact ⟨by rw [h.generations, hretired], hempty h.sameNames, by simp⟩
  | clears hlive hsame hnames => exact ⟨by rw [hsame.generations, hretired], hempty hsame, by simp⟩
  | creates h =>
    obtain ⟨hgen, htask, hindex⟩ := createTaskWithKind_retired h hs hslots hretired
    exact ⟨hgen, fun hslot => htask.trans hslot, by simpa using hindex⟩

private theorem length_foldl_perform (s : Scheduler) (ops : List Op) :
    s.tasks.length ≤ (ops.foldl perform s).tasks.length := by
  induction ops generalizing s with
  | nil => exact Nat.le_refl _
  | cons op ops ih => exact (s.perform_naming op).length_le.trans (ih (s.perform op))

/-- From the moment its counter is used up, a slot is never given to another task. -/
private theorem retired_never_reused {s : Scheduler} (hs : s.Numbered) {i : Nat}
    (hretired : s.generations[i]? = some u32Max)
    (ops : List Op) (hslots : (ops.foldl perform s).tasks.length < 2 ^ 32) :
    (s.tasks[i]? = some none → (ops.foldl perform s).tasks[i]? = some none) ∧
      ∀ id ∈ Supply.Ledger.total perform created s ops, id.index.toNat ≠ i := by
  induction ops generalizing s with
  | nil => exact ⟨id, fun id hid => absurd hid List.not_mem_nil⟩
  | cons op ops ih =>
    have hwithin : (s.perform op).tasks.length ≤ 2 ^ 32 :=
      ((s.perform op).length_foldl_perform ops).trans (Nat.le_of_lt hslots)
    obtain ⟨hgen, hempty, hcreated⟩ := (s.perform_naming op).retired hs hwithin hretired
    obtain ⟨hnumbered, -⟩ := (s.perform_naming op).exchange hs hwithin
    obtain ⟨hempty', hcreated'⟩ := ih hnumbered hgen hslots
    refine ⟨hempty' ∘ hempty, fun id hid => ?_⟩
    rcases List.mem_append.mp hid with hid | hid
    · exact hcreated id hid
    · exact hcreated' id hid

/-! ### The names of a run -/

/-- Over a run that fits the 32-bit index no name is returned twice, a slot holds the name with its own position and
counter, the live names are those created and not removed since, removed names are refused, and a slot whose counter
is used up is never given to another task. -/
theorem run_names (ops : List Op) (hslots : (run ops).tasks.length < 2 ^ 32) :
    (createdIn ops).Nodup ∧
    (∀ i (t : TaskControlBlock), (run ops).tasks[i]? = some (some t) →
      t.id.index.toNat = i ∧ (run ops).generations[i]? = some t.id.generation) ∧
    (∀ id, ((run ops).task id).isSome = true ↔ id ∈ createdIn ops ∧ id ∉ removedIn ops) ∧
    (∀ id ∈ removedIn ops, (run ops).Refuses id) ∧
    ∀ before after i, ops = before ++ after → (run before).generations[i]? = some u32Max →
      ((run before).tasks[i]? = some none → (run ops).tasks[i]? = some none) ∧
      ∀ id ∈ Supply.Ledger.total perform created (run before) after, id.index.toNat ≠ i := by
  have haccount := run_account ops hslots
  refine ⟨haccount.nodup, fun i t ht => ?_, haccount.held_iff, fun id hid => ?_, ?_⟩
  · obtain ⟨hindex, hgen, -⟩ := haccount.valid.slot i t ht
    exact ⟨hindex, hgen⟩
  · exact .of_not_live fun hlive => ((haccount.held_iff id).mp hlive).2 hid
  · rintro before after i rfl hretired
    rw [run_append] at hslots ⊢
    have hbefore := run_account before (((run before).length_foldl_perform after).trans_lt hslots)
    exact retired_never_reused hbefore.valid hretired after hslots

/-- The first task exits and its slot is given to another one; the name of the first task stays refused. -/
theorem run_names_reused_slot :
    createdIn [.createTask .default, .makeReady ⟨0, 1⟩, .scheduleNext, .exitCurrent, .createTask .default] =
      [⟨0, 1⟩, ⟨0, 2⟩] ∧
    (run [.createTask .default, .makeReady ⟨0, 1⟩, .scheduleNext, .exitCurrent, .createTask .default]).Refuses
      ⟨0, 1⟩ :=
  ⟨by decide, (run_names _ (by decide)).2.2.2.1 _ (by decide)⟩

end Scheduler

end X11Os
