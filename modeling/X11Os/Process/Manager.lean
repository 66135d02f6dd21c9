import Mathlib.Logic.Function.Basic
import X11Os.Process.LoadPlan
import X11Os.Scheduler.Task

/-!
# The process registry

The bounded registry of `process/manager.rs`: 256 slots with one generation counter a slot, and process identifiers
that name a slot and a generation (`process/identity.rs`).  Every operation returns the new registry and its
result.  What a process name refers to is `slot`; each operation either fails and changes nothing, or is an update
of `slot` at one name.
-/

namespace X11Os

open Word

def maxProcesses : Nat := 256

structure ProcessId where
  index : U32
  generation : U32
deriving DecidableEq, Repr

/-- The execution of a process: a task with its execution handle, and an address space. -/
structure ProcessExecutionBinding where
  process : ProcessId
  task : TaskId
  execution : ExecutionHandle
  addressSpace : AddressSpaceId
  same_task : execution.taskId = task
deriving DecidableEq, Repr

def ProcessExecutionBinding.new (process : ProcessId) (task : TaskId) (execution : ExecutionHandle)
    (addressSpace : AddressSpaceId) : Option ProcessExecutionBinding :=
  if h : execution.taskId = task then some ⟨process, task, execution, addressSpace, h⟩ else none

inductive ProcessState where
  | constructing
  | ready
  | running
  | exited
deriving DecidableEq, Repr

inductive ProcessManagerError where
  | full
  | invalidProcess
  | invalidTransition
  | generationExhausted
  | alreadyBound
  | bindingMismatch
deriving DecidableEq, Repr

structure ProcessSlot where
  generation : U32
  image : Option ProcessImage
  state : Option ProcessState
  binding : Option ProcessExecutionBinding
  exitCode : Option U64
deriving DecidableEq, Repr

/-- An empty slot; only its generation counter is kept. -/
def ProcessSlot.vacant (generation : U32) : ProcessSlot := ⟨generation, none, none, none, none⟩

structure SpawnedProcess where
  id : ProcessId
  binding : ProcessExecutionBinding
deriving DecidableEq, Repr

structure ReapedProcess where
  id : ProcessId
  image : ProcessImage
  binding : Option ProcessExecutionBinding
  exitCode : U64
deriving DecidableEq, Repr

structure ProcessManager where
  slots : Fin maxProcesses → ProcessSlot
  nextHint : Fin maxProcesses

namespace ProcessManager

def new : ProcessManager := ⟨fun _ => .vacant 0, ⟨0, by decide⟩⟩

/-! ### Names and slots -/

def slot (m : ProcessManager) (id : ProcessId) : Except ProcessManagerError ProcessSlot :=
  if h : id.index.toNat < maxProcesses then
    if (m.slots ⟨id.index.toNat, h⟩).generation ≠ id.generation ∨ (m.slots ⟨id.index.toNat, h⟩).state.isNone then
      .error .invalidProcess
    else .ok (m.slots ⟨id.index.toNat, h⟩)
  else .error .invalidProcess

theorem slot_new (id : ProcessId) : new.slot id = .error .invalidProcess := by
  unfold slot
  split_ifs with h hbad
  · rfl
  · exact absurd (.inr rfl) hbad
  · rfl

/-- Writing through the reference that `slot_mut` hands out. -/
def setSlot (m : ProcessManager) (id : ProcessId) (s : ProcessSlot) : ProcessManager :=
  if h : id.index.toNat < maxProcesses then { m with slots := Function.update m.slots ⟨id.index.toNat, h⟩ s } else m

/-- The slot of a name is the next one to be tried. -/
def setHint (m : ProcessManager) (id : ProcessId) : ProcessManager :=
  if h : id.index.toNat < maxProcesses then { m with nextHint := ⟨id.index.toNat, h⟩ } else m

@[simp] theorem slots_setHint (m : ProcessManager) (id : ProcessId) : (m.setHint id).slots = m.slots := by
  unfold setHint
  split_ifs <;> rfl

@[simp] theorem slot_setHint (m : ProcessManager) (id : ProcessId) : (m.setHint id).slot = m.slot := by
  funext id'
  simp only [slot, slots_setHint]

theorem slot_eq_ok {m : ProcessManager} {id : ProcessId} {s : ProcessSlot} :
    m.slot id = .ok s ↔ ∃ h : id.index.toNat < maxProcesses, m.slots ⟨id.index.toNat, h⟩ = s ∧
      s.generation = id.generation ∧ s.state.isSome = true := by
  unfold slot
  by_cases h : id.index.toNat < maxProcesses
  · simp only [h, dite_true, exists_true_left]
    split_ifs with hbad
    · simp only [false_iff, not_and]
      rintro rfl hgen hstate
      rcases hbad with hbad | hbad
      · exact hbad hgen
      · rw [Option.isNone_iff_eq_none] at hbad
        rw [hbad] at hstate
        cases hstate
    · rw [not_or, not_not] at hbad
      rw [Except.ok.injEq]
      constructor
      · rintro rfl
        refine ⟨rfl, hbad.1, ?_⟩
        cases hstate : (m.slots ⟨id.index.toNat, h⟩).state with
        | none => simp [hstate] at hbad
        | some _ => rfl
      · exact And.left
  · simp [h]

/-- A name that refers to nothing is always refused with the same error. -/
private theorem slot_error {m : ProcessManager} {id : ProcessId} {e : ProcessManagerError}
    (h : m.slot id = .error e) :
    m.slot id = .error .invalidProcess := by
  unfold slot at h ⊢
  split_ifs at h ⊢ <;> rfl

/-- Two registries that differ in one slot differ in the names of that slot only. -/
private theorem slot_of_update {m m' : ProcessManager} {i : Fin maxProcesses} {s : ProcessSlot}
    (h : m'.slots = Function.update m.slots i s) {id : ProcessId} (hid : id.index.toNat ≠ i.val) :
    m'.slot id = m.slot id := by
  unfold slot
  by_cases hlt : id.index.toNat < maxProcesses
  · have hne : (⟨id.index.toNat, hlt⟩ : Fin maxProcesses) ≠ i := fun heq => hid (congrArg Fin.val heq)
    simp only [h, Function.update_of_ne hne]
  · simp [hlt]

/-- Writing a slot changes what the name of its new contents refers to, and nothing else. -/
private theorem slot_update {m m' : ProcessManager} {i : Fin maxProcesses} (s : ProcessSlot) (id : ProcessId)
    (h : m'.slots = Function.update m.slots i s) (hindex : id.index.toNat = i.val)
    (hgen : s.generation = id.generation)
    (hothers : ∀ id' : ProcessId, id'.index.toNat = i.val → id' ≠ id → m.slot id' = .error .invalidProcess) :
    m'.slot = Function.update m.slot id (if s.state.isSome then .ok s else .error .invalidProcess) := by
  funext id'
  by_cases hid : id' = id
  · subst hid
    have hlt : id'.index.toNat < maxProcesses := by
      rw [hindex]
      exact i.isLt
    have hi : (⟨id'.index.toNat, hlt⟩ : Fin maxProcesses) = i := Fin.ext hindex
    rw [Function.update_self]
    unfold slot
    simp only [hlt, dite_true, h, hi, Function.update_self, hgen, ne_eq, not_true_eq_false, false_or]
    cases s.state <;> simp
  · rw [Function.update_of_ne hid]
    by_cases hindex' : id'.index.toNat = i.val
    · rw [hothers id' hindex' hid]
      cases hs : m'.slot id' with
      | error e => rw [← hs, slot_error hs]
      | ok s' =>
        obtain ⟨hlt, hslot, hgen', -⟩ := slot_eq_ok.mp hs
        have hi : (⟨id'.index.toNat, hlt⟩ : Fin maxProcesses) = i := Fin.ext hindex'
        rw [h, hi, Function.update_self] at hslot
        subst hslot
        -- same index and same generation: the two names are one
        have hidx : id'.index = id.index := BitVec.toNat_inj.mp (hindex'.trans hindex.symm)
        refine absurd ?_ hid
        cases id'
        cases id
        simp_all
    · exact slot_of_update h hindex'

/-- Every other name of an occupied slot refers to nothing. -/
private theorem slot_of_occupied {m : ProcessManager} {id id' : ProcessId} {s : ProcessSlot} (h : m.slot id = .ok s)
    (hindex : id'.index.toNat = id.index.toNat) (hne : id' ≠ id) : m.slot id' = .error .invalidProcess := by
  cases hs : m.slot id' with
  | error e => rw [← hs, slot_error hs]
  | ok s' =>
    obtain ⟨hlt, hslot, hgen, -⟩ := slot_eq_ok.mp h
    obtain ⟨hlt', hslot', hgen', -⟩ := slot_eq_ok.mp hs
    have hi : (⟨id'.index.toNat, hlt'⟩ : Fin maxProcesses) = ⟨id.index.toNat, hlt⟩ := Fin.ext hindex
    rw [hi, hslot] at hslot'
    have hidx : id'.index = id.index := BitVec.toNat_inj.mp hindex
    refine absurd ?_ hne
    cases id'
    cases id
    simp_all

theorem slot_setSlot {m : ProcessManager} {id : ProcessId} {s : ProcessSlot} (h : m.slot id = .ok s)
    (s' : ProcessSlot) (hgen : s'.generation = s.generation) :
    (m.setSlot id s').slot =
      Function.update m.slot id (if s'.state.isSome then .ok s' else .error .invalidProcess) := by
  obtain ⟨hlt, -, hgen', -⟩ := slot_eq_ok.mp h
  have hslots : (m.setSlot id s').slots = Function.update m.slots ⟨id.index.toNat, hlt⟩ s' := by
    simp [setSlot, hlt]
  exact slot_update s' id hslots rfl (hgen.trans hgen') fun id' hindex hne => slot_of_occupied h hindex hne

def state (m : ProcessManager) (id : ProcessId) : Except ProcessManagerError ProcessState :=
  match m.slot id with
  | .error e => .error e
  | .ok s =>
    match s.state with
    | none => .error .invalidProcess
    | some state => .ok state

def image (m : ProcessManager) (id : ProcessId) : Except ProcessManagerError ProcessImage :=
  match m.slot id with
  | .error e => .error e
  | .ok s =>
    match s.image with
    | none => .error .invalidProcess
    | some image => .ok image

def binding (m : ProcessManager) (id : ProcessId) : Except ProcessManagerError (Option ProcessExecutionBinding) :=
  (m.slot id).map ProcessSlot.binding

def exitCode (m : ProcessManager) (id : ProcessId) : Except ProcessManagerError (Option U64) :=
  (m.slot id).map ProcessSlot.exitCode

theorem state_eq_ok {m : ProcessManager} {id : ProcessId} {st : ProcessState} :
    m.state id = .ok st ↔ ∃ s, m.slot id = .ok s ∧ s.state = some st := by
  unfold state
  cases m.slot id with
  | error e => simp
  | ok s => cases hs : s.state <;> simp [hs]

theorem state_error {m : ProcessManager} {id : ProcessId} {e : ProcessManagerError} (h : m.state id = .error e) :
    e = .invalidProcess := by
  unfold state at h
  cases hs : m.slot id with
  | error e' =>
    have hinvalid := slot_error hs
    rw [hs] at h hinvalid
    exact (Except.error.inj h).symm.trans (Except.error.inj hinvalid)
  | ok s =>
    cases hstate : s.state with
    | none =>
      simp only [hs, hstate] at h
      exact (Except.error.inj h).symm
    | some st => simp [hs, hstate] at h

theorem image_eq_ok {m : ProcessManager} {id : ProcessId} {image : ProcessImage} :
    m.image id = .ok image ↔ ∃ s, m.slot id = .ok s ∧ s.image = some image := by
  unfold ProcessManager.image
  cases m.slot id with
  | error e => simp
  | ok s => cases hs : s.image <;> simp [hs]

theorem binding_eq_ok {m : ProcessManager} {id : ProcessId} {b : Option ProcessExecutionBinding} :
    m.binding id = .ok b ↔ ∃ s, m.slot id = .ok s ∧ s.binding = b := by
  unfold binding
  cases m.slot id <;> simp [Except.map]

def contains (m : ProcessManager) (id : ProcessId) : Bool := (m.slot id).isOk

theorem contains_eq_true {m : ProcessManager} {id : ProcessId} : m.contains id = true ↔ ∃ s, m.slot id = .ok s := by
  unfold contains
  cases m.slot id <;> simp [Except.isOk, Except.toBool]

/-- A name that is not registered is refused wherever it is looked up. -/
theorem slot_of_not_contains {m : ProcessManager} {id : ProcessId} (h : m.contains id = false) :
    m.slot id = .error .invalidProcess := by
  cases hs : m.slot id with
  | error e => rw [← hs, slot_error hs]
  | ok s =>
    rw [contains_eq_true.mpr ⟨s, hs⟩] at h
    cases h

/-! ### Registration -/

/-- The slot of a process that has just been registered. -/
def registered (generation : U32) (image : ProcessImage) : ProcessSlot :=
  ⟨generation, some image, some .ready, none, none⟩

/-- Taking a free slot. -/
def registerAt (m : ProcessManager) (image : ProcessImage) (index : Fin maxProcesses) :
    ProcessManager × Except ProcessManagerError ProcessId :=
  match checkedAdd (m.slots index).generation 1 with
  | none => (m, .error .generationExhausted)
  | some generation =>
    ({ slots := Function.update m.slots index (registered generation image)
       nextHint := ⟨(index.val + 1) % maxProcesses, Nat.mod_lt _ (by decide)⟩ },
      .ok ⟨BitVec.ofNat 32 index.val, generation⟩)

/-- The loop over the slots, from the hint on; the offsets still to try are a list.  The first free slot ends the
search, also when its generation counter is used up. -/
def registerLoop (m : ProcessManager) (image : ProcessImage) :
    List Nat → ProcessManager × Except ProcessManagerError ProcessId
  | [] => (m, .error .full)
  | offset :: rest =>
    let index : Fin maxProcesses := ⟨(m.nextHint.val + offset) % maxProcesses, Nat.mod_lt _ (by decide)⟩
    if (m.slots index).state.isSome then m.registerLoop image rest else m.registerAt image index

def registerReady (m : ProcessManager) (image : ProcessImage) :
    ProcessManager × Except ProcessManagerError ProcessId :=
  m.registerLoop image (List.range maxProcesses)

/-- The slot that the search looks at after `offset` others. -/
def probe (m : ProcessManager) (offset : Nat) : Fin maxProcesses :=
  ⟨(m.nextHint.val + offset) % maxProcesses, Nat.mod_lt _ (by decide)⟩

/-- Which slot is taken depends on which slots are free, not on their generation counters. -/
theorem registerLoop_eq (m : ProcessManager) (image : ProcessImage) (offsets : List Nat) :
    m.registerLoop image offsets =
      match offsets.find? (fun offset => (m.slots (m.probe offset)).state.isNone) with
      | none => (m, .error .full)
      | some offset => m.registerAt image (m.probe offset) := by
  induction offsets with
  | nil => rfl
  | cons offset rest ih =>
    have hstep : m.registerLoop image (offset :: rest) =
        if (m.slots (m.probe offset)).state.isSome then m.registerLoop image rest
        else m.registerAt image (m.probe offset) := rfl
    rw [hstep]
    cases hstate : (m.slots (m.probe offset)).state with
    | none => simp [hstate]
    | some st => simp [hstate, ih]

/-- Taking a free slot issues a name that referred to nothing. -/
private theorem registerAt_cases {m : ProcessManager} (image : ProcessImage) {index : Fin maxProcesses}
    (hfree : ¬ (m.slots index).state.isSome = true) :
    (∃ e, m.registerAt image index = (m, .error e)) ∨
    ∃ m' id, m.registerAt image index = (m', .ok id) ∧ m.slot id = .error .invalidProcess ∧
      m'.slot = Function.update m.slot id (.ok (registered id.generation image)) := by
  unfold registerAt
  split
  · exact .inl ⟨_, rfl⟩
  · rename_i generation hgen
    have hindex : (BitVec.ofNat 32 index.val).toNat = index.val := by
      have hlt : index.val < 256 := index.isLt
      rw [BitVec.toNat_ofNat]
      omega
    have hvacant : ∀ id : ProcessId, id.index.toNat = index.val → m.slot id = .error .invalidProcess := by
      intro id hid
      cases hs : m.slot id with
      | error e => rw [← hs, slot_error hs]
      | ok s =>
        obtain ⟨hlt, hslot, -, hstate⟩ := slot_eq_ok.mp hs
        have hi : (⟨id.index.toNat, hlt⟩ : Fin maxProcesses) = index := Fin.ext hid
        rw [hi] at hslot
        rw [hslot] at hfree
        exact absurd hstate hfree
    refine .inr ⟨_, _, rfl, hvacant _ hindex, ?_⟩
    exact slot_update (registered generation image) ⟨BitVec.ofNat 32 index.val, generation⟩ rfl hindex rfl
      fun id' hid' _ => hvacant id' hid'

private theorem registerLoop_cases (m : ProcessManager) (image : ProcessImage) (offsets : List Nat) :
    (∃ e, m.registerLoop image offsets = (m, .error e)) ∨
    ∃ m' id, m.registerLoop image offsets = (m', .ok id) ∧ m.slot id = .error .invalidProcess ∧
      m'.slot = Function.update m.slot id (.ok (registered id.generation image)) := by
  rw [registerLoop_eq]
  cases hfind : offsets.find? (fun offset => (m.slots (m.probe offset)).state.isNone) with
  | none => exact .inl ⟨_, rfl⟩
  | some offset =>
    have hfree := List.find?_some hfind
    exact registerAt_cases image (by simpa using hfree)

/-- Registration fails and changes nothing, or issues a name that referred to nothing. -/
private theorem registerReady_cases (m : ProcessManager) (image : ProcessImage) :
    (∃ e, m.registerReady image = (m, .error e)) ∨
    ∃ m' id, m.registerReady image = (m', .ok id) ∧ m.slot id = .error .invalidProcess ∧
      m'.slot = Function.update m.slot id (.ok (registered id.generation image)) :=
  m.registerLoop_cases image _

def removeRegistered (m : ProcessManager) (id : ProcessId) : ProcessManager × Except ProcessManagerError Unit :=
  match m.slot id with
  | .error e => (m, .error e)
  | .ok s => (m.setSlot id (.vacant s.generation), .ok ())

def attachExecution (m : ProcessManager) (id : ProcessId) (task : TaskId) (execution : ExecutionHandle)
    (addressSpace : AddressSpaceId) : ProcessManager × Except ProcessManagerError ProcessExecutionBinding :=
  match m.slot id with
  | .error e => (m, .error e)
  | .ok s =>
    if s.binding.isSome then (m, .error .alreadyBound)
    else
      match s.image with
      | none => (m, .error .invalidProcess)
      | some image =>
        if image.addressSpace.id ≠ addressSpace then (m, .error .bindingMismatch)
        else
          match ProcessExecutionBinding.new id task execution addressSpace with
          | none => (m, .error .bindingMismatch)
          | some binding => (m.setSlot id { s with binding := some binding }, .ok binding)

def spawnReady (m : ProcessManager) (image : ProcessImage) (task : TaskId) (execution : ExecutionHandle)
    (addressSpace : AddressSpaceId) : ProcessManager × Except ProcessManagerError SpawnedProcess :=
  match m.registerReady image with
  | (m, .error e) => (m, .error e)
  | (m, .ok id) =>
    match m.attachExecution id task execution addressSpace with
    | (m, .ok binding) => (m, .ok ⟨id, binding⟩)
    | (m, .error e) => ((m.removeRegistered id).1, .error e)

private theorem removeRegistered_cases (m : ProcessManager) (id : ProcessId) :
    (∃ e, m.slot id = .error e ∧ m.removeRegistered id = (m, .error e)) ∨
    ∃ m' s, m.slot id = .ok s ∧ m.removeRegistered id = (m', .ok ()) ∧
      m'.slot = Function.update m.slot id (.error .invalidProcess) := by
  unfold removeRegistered
  cases hs : m.slot id with
  | error e => exact .inl ⟨e, rfl, rfl⟩
  | ok s => exact .inr ⟨_, s, rfl, rfl, slot_setSlot hs _ rfl⟩

/-- An execution is attached to a process without one, in the address space of the image. -/
theorem attachExecution_writes (m : ProcessManager) (id : ProcessId) (task : TaskId) (execution : ExecutionHandle)
    (addressSpace : AddressSpaceId) :
    (∃ e, m.attachExecution id task execution addressSpace = (m, .error e)) ∨
    ∃ s image b, m.slot id = .ok s ∧ s.image = some image ∧ image.addressSpace.id = addressSpace ∧
      ProcessExecutionBinding.new id task execution addressSpace = some b ∧
      m.attachExecution id task execution addressSpace = (m.setSlot id { s with binding := some b }, .ok b) := by
  unfold attachExecution
  cases hs : m.slot id with
  | error e => exact .inl ⟨e, rfl⟩
  | ok s =>
    dsimp only
    split_ifs with hbound
    · exact .inl ⟨_, rfl⟩
    · split
      · exact .inl ⟨_, rfl⟩
      · rename_i image himage
        split_ifs with hspace
        · exact .inl ⟨_, rfl⟩
        · split
          · exact .inl ⟨_, rfl⟩
          · rename_i b hb
            exact .inr ⟨s, image, b, rfl, himage, not_not.mp hspace, hb, rfl⟩

private theorem attachExecution_cases (m : ProcessManager) (id : ProcessId) (task : TaskId)
    (execution : ExecutionHandle) (addressSpace : AddressSpaceId) :
    (∃ e, m.attachExecution id task execution addressSpace = (m, .error e)) ∨
    ∃ m' s b, m.attachExecution id task execution addressSpace = (m', .ok b) ∧ m.slot id = .ok s ∧
      ProcessExecutionBinding.new id task execution addressSpace = some b ∧
      m'.slot = Function.update m.slot id (.ok { s with binding := some b }) := by
  rcases m.attachExecution_writes id task execution addressSpace with ⟨e, h⟩ | ⟨s, image, b, hs, -, -, hb, h⟩
  · exact .inl ⟨e, h⟩
  · have hstate := (slot_eq_ok.mp hs).2.2.2
    refine .inr ⟨_, s, b, h, hs, hb, ?_⟩
    rw [slot_setSlot hs { s with binding := some b } rfl, if_pos hstate]

/-- A failed spawn leaves every name as it was; a successful one registers a bound process under a new name. -/
theorem spawnReady_cases (m : ProcessManager) (image : ProcessImage) (task : TaskId) (execution : ExecutionHandle)
    (addressSpace : AddressSpaceId) :
    (∃ m' e, m.spawnReady image task execution addressSpace = (m', .error e) ∧ m'.slot = m.slot) ∨
    ∃ m' id b, m.spawnReady image task execution addressSpace = (m', .ok ⟨id, b⟩) ∧
      m.slot id = .error .invalidProcess ∧ ProcessExecutionBinding.new id task execution addressSpace = some b ∧
      m'.slot = Function.update m.slot id (.ok { registered id.generation image with binding := some b }) := by
  unfold spawnReady
  rcases m.registerReady_cases image with ⟨e, h⟩ | ⟨m₁, id, h, hfresh, hslot⟩
  · exact .inl ⟨m, e, by rw [h], rfl⟩
  · rw [h]
    rcases m₁.attachExecution_cases id task execution addressSpace with
      ⟨e, h₁⟩ | ⟨m₂, s, b, h₁, hs, hb, hslot₁⟩
    · -- the registration is taken back, and its name again refers to nothing
      refine .inl ⟨(m₁.removeRegistered id).1, e, by simp only [h₁], ?_⟩
      rcases m₁.removeRegistered_cases id with ⟨e', hs, -⟩ | ⟨m₂, s, -, h₂, hslot₂⟩
      · rw [hslot, Function.update_self] at hs
        cases hs
      · rw [h₂, hslot₂, hslot, Function.update_idem, ← hfresh, Function.update_eq_self]
    · refine .inr ⟨m₂, id, b, by simp only [h₁], hfresh, hb, ?_⟩
      rw [hslot, Function.update_self, Except.ok.injEq] at hs
      rw [hslot₁, hslot, Function.update_idem, ← hs]

/-! ### Lifecycle -/

def start (m : ProcessManager) (id : ProcessId) : ProcessManager × Except ProcessManagerError Unit :=
  match m.slot id with
  | .error e => (m, .error e)
  | .ok s =>
    if s.state ≠ some .ready then (m, .error .invalidTransition)
    else if s.binding.isNone then (m, .error .bindingMismatch)
    else (m.setSlot id { s with state := some .running }, .ok ())

theorem start_writes (m : ProcessManager) (id : ProcessId) :
    (∃ e, m.start id = (m, .error e)) ∨
    ∃ s, m.slot id = .ok s ∧ s.state = some .ready ∧ s.binding.isSome = true ∧
      m.start id = (m.setSlot id { s with state := some .running }, .ok ()) := by
  unfold start
  cases hs : m.slot id with
  | error e => exact .inl ⟨e, rfl⟩
  | ok s =>
    dsimp only
    split_ifs with hstate hbound
    · exact .inl ⟨_, rfl⟩
    · exact .inl ⟨_, rfl⟩
    · rw [ne_eq, not_not] at hstate
      rw [Option.isNone_iff_eq_none, ← ne_eq, Option.ne_none_iff_isSome] at hbound
      exact .inr ⟨s, rfl, hstate, hbound, rfl⟩

theorem start_ok {m : ProcessManager} {id : ProcessId} {s : ProcessSlot} (hs : m.slot id = .ok s)
    (hstate : s.state = some .ready) (hbound : s.binding.isSome = true) :
    ∃ m', m.start id = (m', .ok ()) ∧
    m'.slot = Function.update m.slot id (.ok { s with state := some .running }) := by
  have hnone : s.binding.isNone = false := by
    rw [← Option.not_isSome, hbound]
    rfl
  refine ⟨m.setSlot id { s with state := some .running }, ?_, slot_setSlot hs _ rfl⟩
  simp [start, hs, hstate, hnone]

def requestExit (m : ProcessManager) (id : ProcessId) (code : U64) :
    ProcessManager × Except ProcessManagerError Unit :=
  match m.slot id with
  | .error e => (m, .error e)
  | .ok s =>
    if s.state ≠ some .ready ∧ s.state ≠ some .running then (m, .error .invalidTransition)
    else (m.setSlot id { s with state := some .exited, exitCode := some code }, .ok ())

/-- The helper for callers without an exit code. -/
def exit (m : ProcessManager) (id : ProcessId) : ProcessManager × Except ProcessManagerError Unit :=
  m.requestExit id 0

theorem requestExit_writes (m : ProcessManager) (id : ProcessId) (code : U64) :
    (∃ e, m.requestExit id code = (m, .error e)) ∨
    ∃ s, m.slot id = .ok s ∧ (s.state = some .ready ∨ s.state = some .running) ∧
      m.requestExit id code = (m.setSlot id { s with state := some .exited, exitCode := some code }, .ok ()) := by
  unfold requestExit
  cases hs : m.slot id with
  | error e => exact .inl ⟨e, rfl⟩
  | ok s =>
    dsimp only
    split_ifs with hstate
    · exact .inl ⟨_, rfl⟩
    · refine .inr ⟨s, rfl, ?_, rfl⟩
      by_contra hnot
      exact hstate (not_or.mp hnot)

theorem requestExit_ok {m : ProcessManager} {id : ProcessId} {s : ProcessSlot} (hs : m.slot id = .ok s)
    (hstate : s.state = some .ready ∨ s.state = some .running) (code : U64) :
    ∃ m', m.requestExit id code = (m', .ok ()) ∧
      m'.slot = Function.update m.slot id (.ok { s with state := some .exited, exitCode := some code }) := by
  refine ⟨m.setSlot id { s with state := some .exited, exitCode := some code }, ?_, slot_setSlot hs _ rfl⟩
  unfold requestExit
  rw [hs]
  exact if_neg fun hnot => hstate.elim hnot.1 hnot.2

/-- Reading the state of a slot by index; the index has been checked before. -/
def stateAt (m : ProcessManager) (id : ProcessId) : Option ProcessState :=
  if h : id.index.toNat < maxProcesses then (m.slots ⟨id.index.toNat, h⟩).state else none

/-- Writing the state of a slot by index. -/
def setStateAt (m : ProcessManager) (id : ProcessId) (state : ProcessState) : ProcessManager :=
  if h : id.index.toNat < maxProcesses then
    m.setSlot id { m.slots ⟨id.index.toNat, h⟩ with state := some state }
  else m

private theorem stateAt_of_slot {m : ProcessManager} {id : ProcessId} {s : ProcessSlot} (h : m.slot id = .ok s) :
    m.stateAt id = s.state := by
  obtain ⟨hlt, rfl, -⟩ := slot_eq_ok.mp h
  simp [stateAt, hlt]

private theorem setStateAt_of_slot {m : ProcessManager} {id : ProcessId} {s : ProcessSlot} (h : m.slot id = .ok s)
    (state : ProcessState) : m.setStateAt id state = m.setSlot id { s with state := some state } := by
  obtain ⟨hlt, rfl, -⟩ := slot_eq_ok.mp h
  rw [setStateAt, dif_pos hlt]

private theorem slot_setState {m : ProcessManager} {id : ProcessId} {s : ProcessSlot} (h : m.slot id = .ok s)
    (state : ProcessState) :
    (m.setSlot id { s with state := some state }).slot =
      Function.update m.slot id (.ok { s with state := some state }) :=
  slot_setSlot h { s with state := some state } rfl

def yieldTo (m : ProcessManager) (current successor : ProcessId) : ProcessManager × Except ProcessManagerError Unit :=
  if current = successor then (m, .error .invalidTransition)
  else
    match m.state current with
    | .error e => (m, .error e)
    | .ok currentState =>
      match m.state successor with
      | .error e => (m, .error e)
      | .ok successorState =>
        if currentState ≠ .running ∨ successorState ≠ .ready then (m, .error .invalidTransition)
        else
          match m.binding current with
          | .error e => (m, .error e)
          | .ok none => (m, .error .bindingMismatch)
          | .ok (some _) =>
            match m.binding successor with
            | .error e => (m, .error e)
            | .ok none => (m, .error .bindingMismatch)
            | .ok (some _) =>
              let m := m.setStateAt current .ready
              if m.stateAt successor ≠ some .ready then
                (m.setStateAt current .running, .error .invalidTransition)
              else (m.setStateAt successor .running, .ok ())

/-- With both processes bound, a running and a ready one, the two states are exchanged; the branch that undoes the
first write is never taken. -/
theorem yieldTo_eq {m : ProcessManager} {current successor : ProcessId} {c s : ProcessSlot}
    (hne : current ≠ successor) (hc : m.slot current = .ok c) (hs : m.slot successor = .ok s)
    (hcstate : c.state = some .running) (hsstate : s.state = some .ready) (hcbound : c.binding.isSome = true)
    (hsbound : s.binding.isSome = true) :
    (m.setSlot current { c with state := some .ready }).slot successor = .ok s ∧
    m.yieldTo current successor =
      ((m.setSlot current { c with state := some .ready }).setSlot successor { s with state := some .running },
        .ok ()) := by
  obtain ⟨bc, hbc⟩ := Option.isSome_iff_exists.mp hcbound
  obtain ⟨bs, hbs⟩ := Option.isSome_iff_exists.mp hsbound
  have hs' : (m.setSlot current { c with state := some .ready }).slot successor = .ok s := by
    rw [slot_setState hc, Function.update_of_ne hne.symm, hs]
  refine ⟨hs', ?_⟩
  rw [← setStateAt_of_slot hs' .running]
  unfold yieldTo
  simp only [hne, if_false, state_eq_ok.mpr ⟨c, hc, hcstate⟩, state_eq_ok.mpr ⟨s, hs, hsstate⟩, ne_eq,
    not_true_eq_false, or_self, binding_eq_ok.mpr ⟨c, hc, hbc⟩, binding_eq_ok.mpr ⟨s, hs, hbs⟩,
    setStateAt_of_slot hc .ready, stateAt_of_slot hs', hsstate]

theorem yieldTo_ok {m : ProcessManager} {current successor : ProcessId} {c s : ProcessSlot}
    (hne : current ≠ successor) (hc : m.slot current = .ok c) (hs : m.slot successor = .ok s)
    (hcstate : c.state = some .running) (hsstate : s.state = some .ready) (hcbound : c.binding.isSome = true)
    (hsbound : s.binding.isSome = true) :
    ∃ m', m.yieldTo current successor = (m', .ok ()) ∧
      m'.slot = Function.update (Function.update m.slot current (.ok { c with state := some .ready })) successor
        (.ok { s with state := some .running }) := by
  obtain ⟨hs', h⟩ := yieldTo_eq hne hc hs hcstate hsstate hcbound hsbound
  refine ⟨_, h, ?_⟩
  rw [slot_setState hs', slot_setState hc]

theorem yieldTo_checks (m : ProcessManager) (current successor : ProcessId) :
    (∃ e, m.yieldTo current successor = (m, .error e)) ∨
    ∃ c s, current ≠ successor ∧ m.slot current = .ok c ∧ m.slot successor = .ok s ∧ c.state = some .running ∧
      s.state = some .ready ∧ c.binding.isSome = true ∧ s.binding.isSome = true := by
  by_cases hne : current = successor
  · exact .inl ⟨.invalidTransition, by rw [yieldTo, if_pos hne]⟩
  · cases hcstate : m.state current with
    | error e => exact .inl ⟨e, by simp [yieldTo, hne, hcstate]⟩
    | ok cst =>
      cases hsstate : m.state successor with
      | error e => exact .inl ⟨e, by simp [yieldTo, hne, hcstate, hsstate]⟩
      | ok sst =>
        obtain ⟨c, hc, hcst⟩ := state_eq_ok.mp hcstate
        obtain ⟨s, hs, hsst⟩ := state_eq_ok.mp hsstate
        by_cases hstates : cst ≠ .running ∨ sst ≠ .ready
        · exact .inl ⟨.invalidTransition, by simp only [yieldTo, hne, hcstate, hsstate, hstates, if_true, if_false]⟩
        · have hbc := binding_eq_ok.mpr ⟨c, hc, rfl⟩
          have hbs := binding_eq_ok.mpr ⟨s, hs, rfl⟩
          cases hcb : c.binding with
          | none =>
            rw [hcb] at hbc
            exact .inl ⟨.bindingMismatch, by simp only [yieldTo, hne, hcstate, hsstate, hstates, hbc, if_false]⟩
          | some bc =>
            cases hsb : s.binding with
            | none =>
              rw [hcb] at hbc
              rw [hsb] at hbs
              exact .inl ⟨.bindingMismatch, by
                simp only [yieldTo, hne, hcstate, hsstate, hstates, hbc, hbs, if_false]⟩
            | some bs =>
              rw [not_or, not_not, not_not] at hstates
              rw [hstates.1] at hcst
              rw [hstates.2] at hsst
              exact .inr ⟨c, s, hne, hc, hs, hcst, hsst, by rw [hcb]; rfl, by rw [hsb]; rfl⟩

/-- The slot of an exited process is emptied and is the next one to be tried. -/
def reap (m : ProcessManager) (id : ProcessId) : ProcessManager × Except ProcessManagerError ReapedProcess :=
  match m.slot id with
  | .error e => (m, .error e)
  | .ok s =>
    if s.state ≠ some .exited then (m, .error .invalidTransition)
    else
      match s.image with
      | none => (m, .error .invalidProcess)
      | some image =>
        match s.exitCode with
        | none => (m, .error .invalidProcess)
        | some exitCode =>
          ((m.setSlot id (.vacant s.generation)).setHint id, .ok ⟨id, image, s.binding, exitCode⟩)

theorem reap_writes (m : ProcessManager) (id : ProcessId) :
    (∃ e, m.reap id = (m, .error e)) ∨
    ∃ s image exitCode, m.slot id = .ok s ∧ s.state = some .exited ∧ s.image = some image ∧
      s.exitCode = some exitCode ∧
      m.reap id = ((m.setSlot id (.vacant s.generation)).setHint id, .ok ⟨id, image, s.binding, exitCode⟩) := by
  unfold reap
  cases hs : m.slot id with
  | error e => exact .inl ⟨e, rfl⟩
  | ok s =>
    dsimp only
    split_ifs with hstate
    · exact .inl ⟨_, rfl⟩
    · split
      · exact .inl ⟨_, rfl⟩
      · rename_i image himage
        split
        · exact .inl ⟨_, rfl⟩
        · rename_i exitCode hcode
          exact .inr ⟨s, image, exitCode, rfl, not_not.mp hstate, himage, hcode, rfl⟩

theorem reap_cases (m : ProcessManager) (id : ProcessId) :
    (∃ e, m.reap id = (m, .error e)) ∨
    ∃ m' s image exitCode, m.reap id = (m', .ok ⟨id, image, s.binding, exitCode⟩) ∧ m.slot id = .ok s ∧
      s.state = some .exited ∧ s.image = some image ∧ s.exitCode = some exitCode ∧
      m'.slot = Function.update m.slot id (.error .invalidProcess) := by
  rcases m.reap_writes id with ⟨e, h⟩ | ⟨s, image, exitCode, hs, hstate, himage, hcode, h⟩
  · exact .inl ⟨e, h⟩
  · exact .inr ⟨_, s, image, exitCode, h, hs, hstate, himage, hcode,
      (slot_setHint _ id).trans (slot_setSlot hs _ rfl)⟩

def abortReady (m : ProcessManager) (id : ProcessId) : ProcessManager × Except ProcessManagerError Unit :=
  match m.slot id with
  | .error e => (m, .error e)
  | .ok s => if s.state ≠ some .ready then (m, .error .invalidTransition) else m.removeRegistered id

theorem abortReady_writes (m : ProcessManager) (id : ProcessId) :
    (∃ e, m.abortReady id = (m, .error e)) ∨
    ∃ s, m.slot id = .ok s ∧ s.state = some .ready ∧
      m.abortReady id = (m.setSlot id (.vacant s.generation), .ok ()) := by
  unfold abortReady removeRegistered
  cases hs : m.slot id with
  | error e => exact .inl ⟨e, rfl⟩
  | ok s =>
    dsimp only
    split_ifs with hstate
    · exact .inl ⟨_, rfl⟩
    · exact .inr ⟨s, rfl, not_not.mp hstate, rfl⟩

/-- Aborting a process that has been registered. -/
theorem slot_abortReady_added {m m' : ProcessManager} {id : ProcessId} {s : ProcessSlot}
    (habsent : m.slot id = .error .invalidProcess) (h : m'.slot = Function.update m.slot id (.ok s))
    (hstate : s.state = some .ready) : (m'.abortReady id).1.slot = m.slot := by
  have hs : m'.slot id = .ok s := by rw [h, Function.update_self]
  rcases m'.abortReady_writes id with ⟨e, habort⟩ | ⟨s', hs', -, habort⟩
  · simp [abortReady, removeRegistered, hs, hstate] at habort
  · have hvacant : (m'.setSlot id (.vacant s'.generation)).slot =
      Function.update m'.slot id (.error .invalidProcess) :=
      slot_setSlot hs' _ rfl
    rw [habort, hvacant, h]
    exact (Function.update_idem ..).trans (Function.update_eq_self_iff.mpr habsent.symm)

end ProcessManager

end X11Os
