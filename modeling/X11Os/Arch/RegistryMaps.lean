import X11Os.Arch.UserExecution
import X11Os.Lib.SlotTable

/-!
# The execution registries, slot by slot

`ExecutionRegistry` and `UserExecutionRegistry` are tables that cannot hold two bindings of one task.  Here are the
vectors that the code keeps (`arch/x86_64/execution_registry.rs`, `arch/x86_64/user_execution.rs`), with its searches,
its references and its split of a vector, and with nothing assumed about the entries.  On the vector of a registry
every operation does what the registry does (`ofRegistry`), so after any sequence of operations the vector is that of
a registry, and it is a finite map from tasks to bindings.
-/

namespace X11Os

/-! ### Kernel executions -/

namespace ExecutionRegistry

/-- A snapshot is taken exactly when the plan is to return through it. -/
private theorem takeKernelPreemptState_cases (r : ExecutionRegistry) (taskId : TaskId) :
    (∃ b state, r.get taskId = some b ∧ r.preemptionPlan taskId = some (.iretKernel taskId state) ∧
      (r.takeKernelPreemptState taskId).2 = some state ∧ (r.takeKernelPreemptState taskId).1.get =
        Function.update r.get taskId (some { b with interrupted := none })) ∨
    (∀ state, r.preemptionPlan taskId ≠ some (.iretKernel taskId state)) ∧
      r.takeKernelPreemptState taskId = (r, none) := by
  unfold takeKernelPreemptState preemptionPlan
  cases hget : r.get taskId with
  | none => exact .inr ⟨by simp, rfl⟩
  | some b =>
    dsimp only
    cases hstate : b.interrupted with
    | none =>
      refine .inr ⟨fun state h => ?_, rfl⟩
      dsimp only at h
      split_ifs at h
      cases h
    | some state =>
      dsimp only
      cases hiret : state.returnState.kernelIretWords with
      | none =>
        refine .inr ⟨fun state h => ?_, rfl⟩
        simp only [Option.isSome_none, Bool.false_eq_true, if_false] at h
        split_ifs at h
        cases h
      | some words =>
        refine .inl ⟨b, state, rfl, rfl, rfl, ?_⟩
        simp only [Option.isNone_some, Bool.false_eq_true, if_false]
        rw [KeyedSlots.get_modify, hget, Option.map_some]

private theorem takeKernelPreemptState_eq_some_iff {r : ExecutionRegistry} {taskId : TaskId}
    {state : InterruptedState} :
    (r.takeKernelPreemptState taskId).2 = some state ↔ r.preemptionPlan taskId = some (.iretKernel taskId state) := by
  rcases r.takeKernelPreemptState_cases taskId with ⟨b, state', -, hplan, htake, -⟩ | ⟨hplan, htake⟩
  · rw [hplan, htake]
    simp
  · rw [htake]
    exact iff_of_false (by simp) (hplan state)

private theorem get_takeKernelPreemptState_of_some {r : ExecutionRegistry} {taskId : TaskId}
    {state : InterruptedState} (h : (r.takeKernelPreemptState taskId).2 = some state) : ∃ b, r.get taskId = some b ∧
      (r.takeKernelPreemptState taskId).1.get = Function.update r.get taskId
      (some { b with interrupted := none }) := by
  rcases r.takeKernelPreemptState_cases taskId with ⟨b, state', hget, -, -, hget'⟩ | ⟨-, htake⟩
  · exact ⟨b, hget, hget'⟩
  · rw [htake] at h
    cases h

private theorem takeKernelPreemptState_of_none {r : ExecutionRegistry} {taskId : TaskId}
    (h : (r.takeKernelPreemptState taskId).2 = none) : (r.takeKernelPreemptState taskId).1 = r := by
  rcases r.takeKernelPreemptState_cases taskId with ⟨b, state', -, -, htake, -⟩ | ⟨-, htake⟩
  · rw [htake] at h
    cases h
  · rw [htake]

private theorem get_setContext {r : ExecutionRegistry} {taskId : TaskId} {b : X86ExecutionBinding}
    (h : r.get taskId = some b) (context : Context) :
    (r.setContext taskId context).get = Function.update r.get taskId (some { b with context := context }) := by
  rw [setContext, KeyedSlots.get_modify, h, Option.map_some]

private theorem remove_snd (r : ExecutionRegistry) (handle : ExecutionHandle) :
    (r.remove handle).2 = (r.get handle.taskId).isSome := by
  unfold remove
  cases r.get handle.taskId <;> rfl

end ExecutionRegistry

structure ExecutionTable where
  entries : List (Option X86ExecutionBinding)
deriving DecidableEq, Repr

namespace ExecutionTable

def new : ExecutionTable := ⟨[]⟩

def get (t : ExecutionTable) (taskId : TaskId) : Option X86ExecutionBinding :=
  SlotTable.find X86ExecutionBinding.taskId t.entries taskId

def getMut (t : ExecutionTable) (taskId : TaskId) : Option (RefMut ExecutionTable X86ExecutionBinding) :=
  (SlotTable.findEntryMut (fun binding => binding.taskId = taskId) t.entries).map (.within .mk)

def contains (t : ExecutionTable) (handle : ExecutionHandle) : Bool := (t.get handle.taskId).isSome

def indexOf (t : ExecutionTable) (taskId : TaskId) : Option Nat :=
  SlotTable.indexOf X86ExecutionBinding.taskId t.entries taskId

def insert (t : ExecutionTable) (handle : ExecutionHandle) (placement : Option Placement) :
    ExecutionTable × Except RegistryInsertError Unit :=
  if (t.get handle.taskId).isSome then (t, .error .alreadyBound)
  else
    match X86ExecutionBinding.new handle.taskId placement with
    | .error _ => (t, .error .allocation)
    | .ok binding =>
      match t.entries.findMut Option.isNone with
      | some slot => (⟨slot.write (some binding)⟩, .ok ())
      | none => (⟨t.entries ++ [some binding]⟩, .ok ())

def remove (t : ExecutionTable) (handle : ExecutionHandle) : ExecutionTable × Bool :=
  match t.entries.findMut (SlotTable.holds X86ExecutionBinding.taskId handle.taskId) with
  | none => (t, false)
  | some slot => (⟨slot.write none⟩, true)

def preemptionPlan (t : ExecutionTable) (taskId : TaskId) : Option PreemptionPlan :=
  match t.get taskId with
  | none => none
  | some binding =>
    match binding.interrupted with
    | some state =>
      if state.returnState.kernelIretWords.isSome then some (.iretKernel taskId state)
      else if binding.context.isInitialized then some (.returnToContext taskId binding.context)
      else none
    | none => if binding.context.isInitialized then some (.returnToContext taskId binding.context) else none

def takeKernelPreemptState (t : ExecutionTable) (taskId : TaskId) : ExecutionTable × Option InterruptedState :=
  match t.getMut taskId with
  | none => (t, none)
  | some binding =>
    match binding.value.interrupted with
    | none => (t, none)
    | some state =>
      if state.returnState.kernelIretWords.isNone then (t, none)
      else (binding.write { binding.value with interrupted := none }, binding.value.interrupted)

/-- The context of `current` is borrowed mutably from one part of the vector, that of `next` from the other one. -/
def contextPairMut (t : ExecutionTable) (current next : TaskId) :
    OptionT Panics (RefMut ExecutionTable Context × Context) := do
  if current = next then failure
  let currentIndex ← OptionT.mk (pure (t.indexOf current))
  let nextIndex ← OptionT.mk (pure (t.indexOf next))
  if currentIndex < nextIndex then
    let (left, right) ← t.entries.splitAtMut nextIndex
    let currentBinding ← OptionT.mk (left.index currentIndex)
    let nextBinding ← OptionT.mk (right.index 0)
    return (⟨currentBinding.context, fun context =>
      ⟨left.set currentIndex (some { currentBinding with context := context }) ++ right⟩⟩, nextBinding.context)
  else
    let (left, right) ← t.entries.splitAtMut currentIndex
    let nextBinding ← OptionT.mk (left.index nextIndex)
    let currentBinding ← OptionT.mk (right.index 0)
    return (⟨currentBinding.context, fun context =>
      ⟨left ++ right.set 0 (some { currentBinding with context := context })⟩⟩, nextBinding.context)

/-! ### The vector of a registry -/

def ofRegistry (r : ExecutionRegistry) : ExecutionTable := ⟨r.slots⟩

variable {r : ExecutionRegistry}

private theorem getMut_of_none {taskId : TaskId} (h : r.get taskId = none) : (ofRegistry r).getMut taskId = none := by
  rw [getMut, ofRegistry, KeyedSlots.findEntryMut_of_none h, Option.map_none]

private theorem getMut_of_some {taskId : TaskId} {binding : X86ExecutionBinding} (h : r.get taskId = some binding) :
    ∃ write, (ofRegistry r).getMut taskId = some ⟨binding, write⟩ ∧
      ∀ b (hb : b.taskId = taskId), write b = ofRegistry (r.put taskId b hb) := by
  obtain ⟨write, hmut, hwrite⟩ := KeyedSlots.findEntryMut_of_some h
  rw [getMut, ofRegistry, hmut, Option.map_some]
  exact ⟨_, rfl, fun b hb => congrArg ExecutionTable.mk (hwrite b hb)⟩

private theorem insert_of_some {t : ExecutionTable} {handle : ExecutionHandle} {b : X86ExecutionBinding}
    (h : t.get handle.taskId = some b) (placement : Option Placement) :
    t.insert handle placement = (t, .error .alreadyBound) := by
  rw [insert, h]
  rfl

private theorem insert_of_error {t : ExecutionTable} {handle : ExecutionHandle} {placement : Option Placement}
    {e : ExecutionError} (h : t.get handle.taskId = none)
    (hnew : X86ExecutionBinding.new handle.taskId placement = .error e) :
    t.insert handle placement = (t, .error .allocation) := by
  rw [insert, h, hnew]
  rfl

private theorem insert_of_ok {t : ExecutionTable} {handle : ExecutionHandle} {placement : Option Placement}
    {b : X86ExecutionBinding} (h : t.get handle.taskId = none)
    (hnew : X86ExecutionBinding.new handle.taskId placement = .ok b) :
    t.insert handle placement = (⟨KeyedSlots.fillFirst b t.entries⟩, .ok ()) := by
  rw [insert, h, hnew, ← SlotTable.findMut_isNone]
  cases t.entries.findMut Option.isNone <;> rfl

/-- A fresh binding is added to the entries. -/
private theorem get_insert_of_ok {handle : ExecutionHandle} {placement : Option Placement} {b : X86ExecutionBinding}
    (h : r.get handle.taskId = none) (hnew : X86ExecutionBinding.new handle.taskId placement = .ok b) :
    ((ofRegistry r).insert handle placement).1.get = Function.update r.get handle.taskId (some b) := by
  have hkey : b.taskId = handle.taskId := (X86ExecutionBinding.new_fresh hnew).taskId_eq
  have hvacant : r.get b.taskId = none := by rw [hkey, h]
  have hfill := r.get_fill b hvacant
  rw [hkey] at hfill
  rw [insert_of_ok (t := ofRegistry r) h hnew]
  exact hfill

private theorem insert_ofRegistry (r : ExecutionRegistry) (handle : ExecutionHandle) (placement : Option Placement) :
    (ofRegistry r).insert handle placement = Prod.map ofRegistry id (r.insert handle placement) := by
  unfold ExecutionRegistry.insert
  split
  · rename_i hget
    exact insert_of_some (t := ofRegistry r) hget placement
  · rename_i hget
    split
    · rename_i hnew
      exact insert_of_error hget hnew
    · rename_i hnew
      exact insert_of_ok hget hnew

private theorem remove_ofRegistry (r : ExecutionRegistry) (handle : ExecutionHandle) :
    (ofRegistry r).remove handle = Prod.map ofRegistry id (r.remove handle) := by
  rcases KeyedSlots.findMut_cases r handle.taskId with ⟨hget, hmut⟩ | ⟨b, write, hget, hmut, hwrite⟩
  · simp [remove, ExecutionRegistry.remove, ofRegistry, hget, hmut]
  · simp [remove, ExecutionRegistry.remove, ofRegistry, hget, hmut, hwrite]

private theorem takeKernelPreemptState_ofRegistry (r : ExecutionRegistry) (taskId : TaskId) :
    (ofRegistry r).takeKernelPreemptState taskId = Prod.map ofRegistry id (r.takeKernelPreemptState taskId) := by
  unfold takeKernelPreemptState ExecutionRegistry.takeKernelPreemptState
  cases hget : r.get taskId with
  | none =>
    rw [getMut_of_none hget]
    rfl
  | some binding =>
    obtain ⟨write, hmut, hwrite⟩ := getMut_of_some hget
    rw [hmut]
    dsimp only
    cases hstate : binding.interrupted with
    | none => rfl
    | some state =>
      dsimp only
      split_ifs
      · rfl
      · have hkey : binding.taskId = taskId := KeyedSlots.key_of_get hget
        rw [hwrite { binding with interrupted := none } hkey, Prod.map_apply, ofRegistry, ofRegistry,
          KeyedSlots.slots_put _ hget, KeyedSlots.slots_modify _ hget]
        rfl

private theorem preemptionPlan_ofRegistry (r : ExecutionRegistry) (taskId : TaskId) :
    (ofRegistry r).preemptionPlan taskId = r.preemptionPlan taskId := rfl

private theorem indexOf_of_none {taskId : TaskId} (h : r.get taskId = none) : (ofRegistry r).indexOf taskId = none :=
  SlotTable.indexOf_eq_none h

private theorem indexOf_of_some {taskId : TaskId} {binding : X86ExecutionBinding} (h : r.get taskId = some binding) :
    ∃ i, (ofRegistry r).indexOf taskId = some i ∧ r.slots[i]? = some (some binding) ∧
      ∀ x, r.slots.set i x = KeyedSlots.alterFirst X86ExecutionBinding.taskId taskId (fun _ => x) r.slots :=
  SlotTable.indexOf_eq_some h

/-- The two parts of the vector are the one up to the later entry and the one from there on. -/
private theorem contextPairMut_run {t : ExecutionTable} {current next : TaskId} {i j : Nat}
    {a b : X86ExecutionBinding}
    (hne : current ≠ next) (hi : t.indexOf current = some i) (hj : t.indexOf next = some j)
    (ha : t.entries[i]? = some (some a)) (hb : t.entries[j]? = some (some b)) (hij : i ≠ j) :
    (t.contextPairMut current next).run = .returned (some
      (⟨a.context, fun context => ⟨t.entries.set i (some { a with context := context })⟩⟩, b.context)) := by
  have hi' : i < t.entries.length := (List.getElem?_eq_some_iff.mp ha).1
  have hj' : j < t.entries.length := (List.getElem?_eq_some_iff.mp hb).1
  unfold contextPairMut
  rw [if_neg hne, hi, hj]
  change OptionT.run (if i < j then _ else _) = _
  split_ifs with hlt
  · rw [List.splitAtMut_of_getElem? hb]
    change OptionT.run (OptionT.mk ((t.entries.take j).index i) >>= fun _ =>
      OptionT.mk ((t.entries.drop j).index 0) >>= fun _ => _) = _
    rw [List.index_take hlt ha, List.index_drop hb]
    simp only [← List.set_take_append_drop _ hlt (Nat.le_of_lt hj')]
    rfl
  · have hgt : j < i := by omega
    rw [List.splitAtMut_of_getElem? ha]
    change OptionT.run (OptionT.mk ((t.entries.take i).index j) >>= fun _ =>
      OptionT.mk ((t.entries.drop i).index 0) >>= fun _ => _) = _
    rw [List.index_take hgt hb, List.index_drop ha]
    simp only [← List.take_append_set_drop _ (Nat.le_of_lt hi')]
    rfl

private theorem contextPairMut_of_some {current next : TaskId} {a b : X86ExecutionBinding} (hne : current ≠ next)
    (ha : r.get current = some a) (hb : r.get next = some b) :
    ((ofRegistry r).contextPairMut current next).run =
      .returned (some (⟨a.context, fun context => ofRegistry (r.setContext current context)⟩, b.context)) := by
  obtain ⟨i, hi, hslot, hset⟩ := indexOf_of_some ha
  obtain ⟨j, hj, hslot', -⟩ := indexOf_of_some hb
  have hij : i ≠ j := by
    intro hij
    rw [← hij, hslot, Option.some.injEq, Option.some.injEq] at hslot'
    rw [← KeyedSlots.key_of_get ha, ← KeyedSlots.key_of_get hb, hslot'] at hne
    exact hne rfl
  have hwrite : ∀ context, ExecutionTable.mk (r.slots.set i (some { a with context := context })) =
      ofRegistry (r.setContext current context) := by
    intro context
    rw [hset, ofRegistry, ExecutionRegistry.setContext, KeyedSlots.slots_modify _ ha]
  rw [contextPairMut_run hne hi hj hslot hslot' hij]
  simp only [← hwrite]
  rfl

/-- Without two tasks, or without a binding for one of them, there is nothing to refer to. -/
private theorem contextPairMut_of_none {t : ExecutionTable} {current next : TaskId}
    (h : current = next ∨ t.indexOf current = none ∨ t.indexOf next = none) :
    (t.contextPairMut current next).run = .returned none := by
  unfold contextPairMut
  by_cases heq : current = next
  · rw [if_pos heq]
    rfl
  · rw [if_neg heq]
    rcases h with h | h | h
    · exact absurd h heq
    · rw [h]
      rfl
    · rw [h]
      cases t.indexOf current <;> rfl

/-! ### Runs -/

/-- The operations that change a table.  `write` is what a caller does through `get_mut`: it stores a context or a
snapshot, and the task of a binding is a private field that nothing assigns. -/
inductive Op where
  | insert (handle : ExecutionHandle) (placement : Option Placement)
  | remove (handle : ExecutionHandle)
  | write (taskId : TaskId) (f : X86ExecutionBinding → X86ExecutionBinding) (keeps : ∀ b, (f b).taskId = b.taskId)
  | writeContext (current next : TaskId) (context : Context)
  | takeKernelPreemptState (taskId : TaskId)

/-- The task that an operation is about. -/
def Op.taskId : Op → TaskId
  | insert handle _ => handle.taskId
  | remove handle => handle.taskId
  | write taskId _ _ => taskId
  | writeContext current _ _ => current
  | takeKernelPreemptState taskId => taskId

def step (t : ExecutionTable) : Op → Panics ExecutionTable
  | .insert handle placement => .returned (t.insert handle placement).1
  | .remove handle => .returned (t.remove handle).1
  | .write taskId f _ =>
    match t.getMut taskId with
    | none => .returned t
    | some binding => .returned (binding.write (f binding.value))
  | .writeContext current next context =>
    (t.contextPairMut current next).run.bind fun
      | none => .returned t
      | some (currentContext, _) => .returned (currentContext.write context)
  | .takeKernelPreemptState taskId => .returned (t.takeKernelPreemptState taskId).1

def run (ops : List Op) : Panics ExecutionTable := ops.foldlM step new

private theorem step_ofRegistry (r : ExecutionRegistry) (op : Op) :
    ∃ r', (ofRegistry r).step op = .returned (ofRegistry r') ∧ KeyedSlots.SameBut op.taskId r r' := by
  cases op with
  | insert handle placement =>
    refine ⟨(r.insert handle placement).1, by rw [step, insert_ofRegistry]; rfl, ?_⟩
    rcases r.insert_cases handle placement with ⟨e, h⟩ | ⟨r', b, h, -, -, hget⟩
    · rw [h]
      exact .refl _ r
    · rw [h]
      exact KeyedSlots.sameBut_of_update hget
  | remove handle =>
    refine ⟨(r.remove handle).1, by rw [step, remove_ofRegistry]; rfl, ?_⟩
    exact KeyedSlots.sameBut_of_update (r.get_remove handle)
  | write taskId f keeps =>
    cases hget : r.get taskId with
    | none =>
      refine ⟨r, ?_, .refl _ r⟩
      rw [step, getMut_of_none hget]
    | some binding =>
      obtain ⟨write, hmut, hwrite⟩ := getMut_of_some hget
      have hkey : (f binding).taskId = taskId := (keeps binding).trans (KeyedSlots.key_of_get hget)
      refine ⟨r.put taskId (f binding) hkey, ?_, KeyedSlots.sameBut_of_update (KeyedSlots.get_put hkey hget)⟩
      rw [step, hmut, ← hwrite]
  | writeContext current next context =>
    by_cases hnone : current = next ∨ r.get current = none ∨ r.get next = none
    · refine ⟨r, ?_, .refl _ r⟩
      have hindex : current = next ∨ (ofRegistry r).indexOf current = none ∨ (ofRegistry r).indexOf next = none :=
        hnone.imp id (Or.imp indexOf_of_none indexOf_of_none)
      rw [step, contextPairMut_of_none hindex, Panics.bind_returned]
    · simp only [not_or, ← ne_eq, Option.ne_none_iff_exists'] at hnone
      obtain ⟨hne, ⟨a, ha⟩, b, hb⟩ := hnone
      refine ⟨r.setContext current context, ?_, KeyedSlots.sameBut_of_update (KeyedSlots.get_modify r current _ _)⟩
      rw [step, contextPairMut_of_some hne ha hb, Panics.bind_returned]
  | takeKernelPreemptState taskId =>
    refine ⟨(r.takeKernelPreemptState taskId).1, by rw [step, takeKernelPreemptState_ofRegistry]; rfl, ?_⟩
    rcases r.takeKernelPreemptState_cases taskId with ⟨b, state, -, -, -, hget⟩ | ⟨-, htake⟩
    · exact KeyedSlots.sameBut_of_update hget
    · rw [htake]
      exact .refl _ r

/-- Whatever has been done, the vector is that of a registry. -/
private theorem run_ofRegistry (ops : List Op) : ∃ r, run ops = .returned (ofRegistry r) := by
  obtain ⟨t, hrun, r, rfl⟩ :=
    Panics.foldlM_returns (P := fun t => ∃ r, t = ofRegistry r) ops ⟨.new, rfl⟩ fun t op ht => by
    obtain ⟨r, rfl⟩ := ht
    obtain ⟨r', hstep, -⟩ := step_ofRegistry r op
    exact ⟨_, hstep, r', rfl⟩
  exact ⟨r, hrun⟩

/-! ### A finite map -/

/-- What a table does as a map from tasks to bindings. -/
structure IsMap (t : ExecutionTable) : Prop where
  once : ∀ (i j : Nat) (a b : X86ExecutionBinding), t.entries[i]? = some (some a) →
    t.entries[j]? = some (some b) → a.taskId = b.taskId → i = j
  get_taskId : ∀ taskId b, t.get taskId = some b → b.taskId = taskId
  contains : ∀ handle, t.contains handle = (t.get handle.taskId).isSome
  insert_bound : ∀ handle placement, t.get handle.taskId ≠ none →
    t.insert handle placement = (t, .error .alreadyBound)
  insert_failed : ∀ handle placement e, t.get handle.taskId = none →
    X86ExecutionBinding.new handle.taskId placement = .error e → t.insert handle placement = (t, .error .allocation)
  insert_ok : ∀ handle placement b, t.get handle.taskId = none →
    X86ExecutionBinding.new handle.taskId placement = .ok b → ∃ t', t.insert handle placement = (t', .ok ()) ∧
      t'.get = Function.update t.get handle.taskId (some b)
  remove : ∀ handle, (t.remove handle).2 = (t.get handle.taskId).isSome ∧
    (t.remove handle).1.get = Function.update t.get handle.taskId none
  getMut_none : ∀ taskId, t.get taskId = none → t.getMut taskId = none
  getMut_some : ∀ taskId b, t.get taskId = some b → ∃ write, t.getMut taskId = some ⟨b, write⟩ ∧
    ∀ b', b'.taskId = taskId → (write b').get = Function.update t.get taskId (some b')
  contextPairMut_some : ∀ current next a b, current ≠ next → t.get current = some a → t.get next = some b →
    ∃ write, (t.contextPairMut current next).run = .returned (some (⟨a.context, write⟩, b.context)) ∧
      ∀ context, (write context).get = Function.update t.get current (some { a with context := context })
  contextPairMut_none : ∀ current next, current = next ∨ t.get current = none ∨ t.get next = none →
    (t.contextPairMut current next).run = .returned none
  take_iff : ∀ taskId state, (t.takeKernelPreemptState taskId).2 = some state ↔
    t.preemptionPlan taskId = some (.iretKernel taskId state)
  take_some : ∀ taskId state, (t.takeKernelPreemptState taskId).2 = some state → ∃ b, t.get taskId = some b ∧
    (t.takeKernelPreemptState taskId).1.get = Function.update t.get taskId (some { b with interrupted := none })
  take_none : ∀ taskId, (t.takeKernelPreemptState taskId).2 = none → (t.takeKernelPreemptState taskId).1 = t
  others : ∀ op t', t.step op = .returned t' → ∀ taskId, taskId ≠ op.taskId → t'.get taskId = t.get taskId

private theorem isMap_ofRegistry (r : ExecutionRegistry) : (ofRegistry r).IsMap := by
  constructor
  case once => exact fun i j a b hi hj hkey => r.slot_unique hi hj hkey
  case get_taskId => exact fun taskId b h => KeyedSlots.key_of_get h
  case contains => exact fun handle => rfl
  case insert_bound =>
    intro handle placement h
    obtain ⟨b, hb⟩ := Option.ne_none_iff_exists'.mp h
    exact insert_of_some hb placement
  case insert_failed => exact fun handle placement e h hnew => insert_of_error h hnew
  case insert_ok =>
    intro handle placement b h hnew
    have hget := get_insert_of_ok h hnew
    have hok := insert_of_ok h hnew
    rw [hok] at hget
    exact ⟨_, hok, hget⟩
  case remove =>
    intro handle
    rw [remove_ofRegistry]
    exact ⟨r.remove_snd handle, r.get_remove handle⟩
  case getMut_none => exact fun taskId h => getMut_of_none h
  case getMut_some =>
    intro taskId b h
    obtain ⟨write, hmut, hwrite⟩ := getMut_of_some h
    refine ⟨write, hmut, fun b' hb' => ?_⟩
    rw [hwrite b' hb']
    exact KeyedSlots.get_put hb' h
  case contextPairMut_some =>
    intro current next a b hne ha hb
    exact ⟨_, contextPairMut_of_some hne ha hb, fun context => ExecutionRegistry.get_setContext ha context⟩
  case contextPairMut_none =>
    intro current next h
    exact contextPairMut_of_none (h.imp id (Or.imp indexOf_of_none indexOf_of_none))
  case take_iff =>
    intro taskId state
    rw [takeKernelPreemptState_ofRegistry, preemptionPlan_ofRegistry]
    exact ExecutionRegistry.takeKernelPreemptState_eq_some_iff
  case take_some =>
    intro taskId state h
    rw [takeKernelPreemptState_ofRegistry] at h ⊢
    exact ExecutionRegistry.get_takeKernelPreemptState_of_some h
  case take_none =>
    intro taskId h
    rw [takeKernelPreemptState_ofRegistry] at h ⊢
    exact congrArg ofRegistry (ExecutionRegistry.takeKernelPreemptState_of_none h)
  case others =>
    intro op t' h
    obtain ⟨r', hstep, hsame⟩ := step_ofRegistry r op
    rw [hstep, Panics.returned.injEq] at h
    rw [← h]
    exact hsame

end ExecutionTable

/-! ### Userspace executions -/

namespace UserExecutionRegistry

private theorem get_remove (r : UserExecutionRegistry) (task : TaskId) :
    (r.remove task).1.get = Function.update r.get task none := by
  unfold remove
  split
  · rename_i hget
    rw [← hget, Function.update_eq_self]
  · exact r.get_erase task

private theorem get_installResume (r : UserExecutionRegistry) (task : TaskId) (state : InterruptedState) :
    (r.installResume task state).1.get =
      Function.update r.get task ((r.get task).map fun b => (b.installResume state).1) := by
  unfold installResume
  split
  · rename_i hget
    rw [hget, Option.map_none, ← hget, Function.update_eq_self]
  · exact r.get_modify task _ fun b => b.installResume_task state

private theorem get_clearResume (r : UserExecutionRegistry) (task : TaskId) :
    (r.clearResume task).1.get = Function.update r.get task ((r.get task).map fun b => b.clearResume.1) := by
  unfold clearResume
  split
  · rename_i hget
    rw [hget, Option.map_none, ← hget, Function.update_eq_self]
  · exact r.get_modify task _ fun b => b.clearResume_task

end UserExecutionRegistry

structure UserExecutionTable where
  entries : List (Option UserExecutionBinding)
deriving DecidableEq, Repr

namespace UserExecutionTable

def new : UserExecutionTable := ⟨[]⟩

def get (t : UserExecutionTable) (task : TaskId) : Option UserExecutionBinding :=
  SlotTable.find UserExecutionBinding.task t.entries task

def getMut (t : UserExecutionTable) (task : TaskId) : Option (RefMut UserExecutionTable UserExecutionBinding) :=
  (SlotTable.findEntryMut (fun binding => binding.task = task) t.entries).map (.within .mk)

def insert (t : UserExecutionTable) (binding : UserExecutionBinding) :
    UserExecutionTable × Except UserExecutionRegistryError Unit :=
  if (t.get binding.task).isSome then (t, .error .alreadyBound) else (⟨t.entries ++ [some binding]⟩, .ok ())

def remove (t : UserExecutionTable) (task : TaskId) :
    UserExecutionTable × Except UserExecutionRegistryError UserExecutionBinding :=
  match t.entries.findMut (SlotTable.holds UserExecutionBinding.task task) with
  | none => (t, .error .notFound)
  | some slot =>
    -- `take` leaves `None` behind in either case
    match slot.value with
    | none => (⟨slot.write none⟩, .error .notFound)
    | some binding => (⟨slot.write none⟩, .ok binding)

def installResume (t : UserExecutionTable) (task : TaskId) (state : InterruptedState) :
    UserExecutionTable × Except UserExecutionRegistryError Unit :=
  match t.getMut task with
  | none => (t, .error .notFound)
  | some binding =>
    (binding.write (binding.value.installResume state).1, (binding.value.installResume state).2.mapError .binding)

def clearResume (t : UserExecutionTable) (task : TaskId) :
    UserExecutionTable × Except UserExecutionRegistryError (Option InterruptedState) :=
  match t.getMut task with
  | none => (t, .error .notFound)
  | some binding => (binding.write binding.value.clearResume.1, .ok binding.value.clearResume.2)

/-! ### The vector of a registry -/

def ofRegistry (r : UserExecutionRegistry) : UserExecutionTable := ⟨r.slots⟩

variable {r : UserExecutionRegistry}

private theorem get_ofRegistry (r : UserExecutionRegistry) : (ofRegistry r).get = r.get := rfl

private theorem getMut_of_none {task : TaskId} (h : r.get task = none) : (ofRegistry r).getMut task = none := by
  rw [getMut, ofRegistry, KeyedSlots.findEntryMut_of_none h, Option.map_none]

private theorem getMut_of_some {task : TaskId} {binding : UserExecutionBinding} (h : r.get task = some binding) :
    ∃ write, (ofRegistry r).getMut task = some ⟨binding, write⟩ ∧
      ∀ b (hb : b.task = task), write b = ofRegistry (r.put task b hb) := by
  obtain ⟨write, hmut, hwrite⟩ := KeyedSlots.findEntryMut_of_some h
  rw [getMut, ofRegistry, hmut, Option.map_some]
  exact ⟨_, rfl, fun b hb => congrArg UserExecutionTable.mk (hwrite b hb)⟩

private theorem insert_ofRegistry (r : UserExecutionRegistry) (binding : UserExecutionBinding) :
    (ofRegistry r).insert binding = Prod.map ofRegistry id (r.insert binding) := by
  unfold UserExecutionRegistry.insert
  split
  · rename_i hget
    rw [insert, get_ofRegistry, hget]
    rfl
  · rename_i hget
    have hvacant : ¬ (r.get binding.task).isSome = true := by
      rw [hget]
      decide
    rw [insert, get_ofRegistry, if_neg hvacant]
    rfl

private theorem remove_ofRegistry (r : UserExecutionRegistry) (task : TaskId) :
    (ofRegistry r).remove task = Prod.map ofRegistry id (r.remove task) := by
  rcases KeyedSlots.findMut_cases r task with ⟨hget, hmut⟩ | ⟨b, write, hget, hmut, hwrite⟩
  · simp [remove, UserExecutionRegistry.remove, ofRegistry, hget, hmut]
  · simp [remove, UserExecutionRegistry.remove, ofRegistry, hget, hmut, hwrite]

/-- A write through `get_mut` that keeps the task is a change of the registry. -/
private theorem write_ofRegistry {task : TaskId} {b : UserExecutionBinding}
    {f : UserExecutionBinding → UserExecutionBinding}
    (hf : ∀ b, (f b).task = b.task) (h : r.get task = some b) (hb : (f b).task = task) :
    ofRegistry (r.put task (f b) hb) = ofRegistry (r.modify task f hf) := by
  rw [ofRegistry, ofRegistry, KeyedSlots.slots_put hb h, KeyedSlots.slots_modify hf h]

private theorem installResume_ofRegistry (r : UserExecutionRegistry) (task : TaskId) (state : InterruptedState) :
    (ofRegistry r).installResume task state = Prod.map ofRegistry id (r.installResume task state) := by
  unfold installResume UserExecutionRegistry.installResume
  cases hget : r.get task with
  | none =>
    rw [getMut_of_none hget]
    rfl
  | some binding =>
    obtain ⟨write, hmut, hwrite⟩ := getMut_of_some hget
    have hkey : (binding.installResume state).1.task = task :=
      (binding.installResume_task state).trans (KeyedSlots.key_of_get hget)
    rw [hmut]
    dsimp only
    rw [hwrite _ hkey, write_ofRegistry (fun b => b.installResume_task state) hget hkey]
    rfl

private theorem clearResume_ofRegistry (r : UserExecutionRegistry) (task : TaskId) :
    (ofRegistry r).clearResume task = Prod.map ofRegistry id (r.clearResume task) := by
  unfold clearResume UserExecutionRegistry.clearResume
  cases hget : r.get task with
  | none =>
    rw [getMut_of_none hget]
    rfl
  | some binding =>
    obtain ⟨write, hmut, hwrite⟩ := getMut_of_some hget
    have hkey : binding.clearResume.1.task = task := binding.clearResume_task.trans (KeyedSlots.key_of_get hget)
    rw [hmut]
    dsimp only
    rw [hwrite _ hkey, write_ofRegistry (fun b => b.clearResume_task) hget hkey]
    rfl

/-! ### Runs -/

inductive Op where
  | insert (binding : UserExecutionBinding)
  | remove (task : TaskId)
  | installResume (task : TaskId) (state : InterruptedState)
  | clearResume (task : TaskId)
deriving DecidableEq, Repr

def Op.task : Op → TaskId
  | insert binding => binding.task
  | remove task => task
  | installResume task _ => task
  | clearResume task => task

def step (t : UserExecutionTable) : Op → UserExecutionTable
  | .insert binding => (t.insert binding).1
  | .remove task => (t.remove task).1
  | .installResume task state => (t.installResume task state).1
  | .clearResume task => (t.clearResume task).1

def run (ops : List Op) : UserExecutionTable := ops.foldl step new

private theorem step_ofRegistry (r : UserExecutionRegistry) (op : Op) :
    ∃ r', (ofRegistry r).step op = ofRegistry r' ∧ KeyedSlots.SameBut op.task r r' := by
  cases op with
  | insert binding =>
    refine ⟨(r.insert binding).1, by rw [step, insert_ofRegistry]; rfl, ?_⟩
    rcases r.insert_cases binding with ⟨e, h⟩ | ⟨r', h, -, hget⟩
    · rw [h]
      exact .refl _ r
    · rw [h]
      exact KeyedSlots.sameBut_of_update hget
  | remove task =>
    refine ⟨(r.remove task).1, by rw [step, remove_ofRegistry]; rfl, ?_⟩
    exact KeyedSlots.sameBut_of_update (r.get_remove task)
  | installResume task state =>
    refine ⟨(r.installResume task state).1, by rw [step, installResume_ofRegistry]; rfl, ?_⟩
    exact KeyedSlots.sameBut_of_update (r.get_installResume task state)
  | clearResume task =>
    refine ⟨(r.clearResume task).1, by rw [step, clearResume_ofRegistry]; rfl, ?_⟩
    exact KeyedSlots.sameBut_of_update (r.get_clearResume task)

private theorem run_ofRegistry (ops : List Op) : ∃ r, run ops = ofRegistry r := by
  refine List.foldlRecOn ops step (motive := fun t => ∃ r, t = ofRegistry r) ⟨.new, rfl⟩ fun t ht op _ => ?_
  obtain ⟨r, rfl⟩ := ht
  obtain ⟨r', hstep, -⟩ := step_ofRegistry r op
  exact ⟨r', hstep⟩

/-! ### A finite map -/

/-- What a table does as a map from tasks to bindings. -/
structure IsMap (t : UserExecutionTable) : Prop where
  once : ∀ (i j : Nat) (a b : UserExecutionBinding), t.entries[i]? = some (some a) →
    t.entries[j]? = some (some b) → a.task = b.task → i = j
  get_task : ∀ task b, t.get task = some b → b.task = task
  insert_bound : ∀ binding, t.get binding.task ≠ none → t.insert binding = (t, .error .alreadyBound)
  insert_ok : ∀ binding, t.get binding.task = none → ∃ t', t.insert binding = (t', .ok ()) ∧
    t'.get = Function.update t.get binding.task (some binding)
  remove_none : ∀ task, t.get task = none → t.remove task = (t, .error .notFound)
  remove_some : ∀ task b, t.get task = some b → ∃ t', t.remove task = (t', .ok b) ∧
    t'.get = Function.update t.get task none
  getMut_none : ∀ task, t.get task = none → t.getMut task = none
  getMut_some : ∀ task b, t.get task = some b → ∃ write, t.getMut task = some ⟨b, write⟩ ∧
    ∀ b', b'.task = task → (write b').get = Function.update t.get task (some b')
  installResume_none : ∀ task state, t.get task = none → t.installResume task state = (t, .error .notFound)
  installResume_some : ∀ task state b, t.get task = some b → ∃ t',
    t.installResume task state = (t', (b.installResume state).2.mapError .binding) ∧
      t'.get = Function.update t.get task (some (b.installResume state).1)
  clearResume_none : ∀ task, t.get task = none → t.clearResume task = (t, .error .notFound)
  clearResume_some : ∀ task b, t.get task = some b → ∃ t', t.clearResume task = (t', .ok b.resume) ∧
    t'.get = Function.update t.get task (some { b with resume := none })
  others : ∀ op task, task ≠ op.task → (t.step op).get task = t.get task

private theorem isMap_ofRegistry (r : UserExecutionRegistry) : (ofRegistry r).IsMap := by
  constructor
  case once => exact fun i j a b hi hj hkey => r.slot_unique hi hj hkey
  case get_task => exact fun task b h => KeyedSlots.key_of_get h
  case insert_bound =>
    intro binding h
    rw [insert, if_pos (Option.isSome_iff_ne_none.mpr h)]
  case insert_ok =>
    intro binding h
    refine ⟨ofRegistry (r.push binding h), ?_, r.get_push binding h⟩
    rw [insert, h]
    rfl
  case remove_none =>
    intro task h
    have h' : r.get task = none := h
    rw [remove_ofRegistry, UserExecutionRegistry.remove, h']
    rfl
  case remove_some =>
    intro task b h
    obtain ⟨r', hremove, hget⟩ := UserExecutionRegistry.remove_ok h
    refine ⟨ofRegistry r', ?_, hget⟩
    rw [remove_ofRegistry, hremove]
    rfl
  case getMut_none => exact fun task h => getMut_of_none h
  case getMut_some =>
    intro task b h
    obtain ⟨write, hmut, hwrite⟩ := getMut_of_some h
    refine ⟨write, hmut, fun b' hb' => ?_⟩
    rw [hwrite b' hb']
    exact KeyedSlots.get_put hb' h
  case installResume_none =>
    intro task state h
    rw [installResume, getMut_of_none h]
  case installResume_some =>
    intro task state b h
    have h' : r.get task = some b := h
    have hget := r.get_installResume task state
    rw [h', Option.map_some] at hget
    refine ⟨ofRegistry (r.installResume task state).1, ?_, hget⟩
    rw [installResume_ofRegistry, UserExecutionRegistry.installResume, h']
    rfl
  case clearResume_none =>
    intro task h
    rw [clearResume, getMut_of_none h]
  case clearResume_some =>
    intro task b h
    obtain ⟨r', hclear, hget⟩ := UserExecutionRegistry.clearResume_ok h
    refine ⟨ofRegistry r', ?_, hget⟩
    rw [clearResume_ofRegistry, hclear]
    rfl
  case others =>
    intro op task htask
    obtain ⟨r', hstep, hsame⟩ := step_ofRegistry r op
    rw [hstep]
    exact hsame task htask

end UserExecutionTable

/-- Both registries start as the empty map, and after any sequence of operations they are finite maps from tasks to
bindings; no operation panics. -/
theorem executionRegistries_map :
    (ExecutionTable.new.get = fun _ => none) ∧ (∀ ops, ∃ t, ExecutionTable.run ops = .returned t ∧ t.IsMap) ∧
    (UserExecutionTable.new.get = fun _ => none) ∧ (∀ ops, (UserExecutionTable.run ops).IsMap) := by
  refine ⟨rfl, ?_, rfl, ?_⟩
  · intro ops
    obtain ⟨r, hrun⟩ := ExecutionTable.run_ofRegistry ops
    exact ⟨.ofRegistry r, hrun, ExecutionTable.isMap_ofRegistry r⟩
  · intro ops
    obtain ⟨r, hrun⟩ := UserExecutionTable.run_ofRegistry ops
    rw [hrun]
    exact UserExecutionTable.isMap_ofRegistry r

end X11Os
