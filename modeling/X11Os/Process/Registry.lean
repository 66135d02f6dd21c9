import X11Os.Lib.Ledger
import X11Os.Process.Manager

/-!
# Runs of the process registry

Every operation of the registry rewrites occupied slots under their names, takes a free slot, or empties an
occupied one.  What each of these does to the slots, to the names that have been handed out and to the names that
are registered is an `Effect`; a run keeps the accounts of the names.  So every slot of a reachable registry is
well formed, no name is handed out twice, and a name is registered from the call that returns it to the call that
aborts or reaps it.
-/

namespace X11Os

open Word

/-- What the fields of slot `i` say about each other. -/
structure ProcessSlot.WellFormed (i : Fin maxProcesses) (s : ProcessSlot) : Prop where
  image : s.image.isSome = true ↔ s.state.isSome = true
  exitCode : s.exitCode.isSome = true ↔ s.state = some .exited
  running : s.state = some .running → s.binding.isSome = true
  binding : ∀ b, s.binding = some b → b.process = ⟨BitVec.ofNat 32 i.val, s.generation⟩ ∧
    b.execution.taskId = b.task ∧ ∃ image, s.image = some image ∧ b.addressSpace = image.addressSpace.id

private theorem ProcessSlot.vacant_wellFormed (i : Fin maxProcesses) (generation : U32) :
    (vacant generation).WellFormed i := by
  constructor <;> simp [vacant]

namespace ProcessManager

private theorem registered_wellFormed (i : Fin maxProcesses) (generation : U32) (image : ProcessImage) :
    (registered generation image).WellFormed i := by
  constructor <;> simp [registered]

/-! ### Names of slots -/

def nameOf (i : Fin maxProcesses) (generation : U32) : ProcessId := ⟨BitVec.ofNat 32 i.val, generation⟩

private theorem index_nameOf (i : Fin maxProcesses) (generation : U32) :
    (nameOf i generation).index.toNat = i.val := by
  have hlt : i.val < 256 := i.isLt
  show (BitVec.ofNat 32 i.val).toNat = i.val
  rw [BitVec.toNat_ofNat]
  omega

theorem nameOf_inj {i j : Fin maxProcesses} {g g' : U32} : nameOf i g = nameOf j g' ↔ i = j ∧ g = g' := by
  constructor
  · intro h
    have hindex := congrArg (fun id : ProcessId => id.index.toNat) h
    simp only [index_nameOf] at hindex
    exact ⟨Fin.ext hindex, congrArg ProcessId.generation h⟩
  · rintro ⟨rfl, rfl⟩
    rfl

/-- A name that refers to a slot is the name of that slot, with the generation in the slot. -/
theorem slot_eq_ok_iff {m : ProcessManager} {id : ProcessId} {s : ProcessSlot} :
    m.slot id = .ok s ↔ ∃ i, m.slots i = s ∧ s.state.isSome = true ∧ id = nameOf i s.generation := by
  rw [slot_eq_ok]
  constructor
  · rintro ⟨hlt, hslot, hgen, hstate⟩
    refine ⟨_, hslot, hstate, ?_⟩
    cases id
    simp [nameOf, hgen]
  · rintro ⟨i, hslot, hstate, rfl⟩
    have hi := index_nameOf i s.generation
    have hlt : (nameOf i s.generation).index.toNat < maxProcesses := by
      rw [hi]
      exact i.isLt
    refine ⟨hlt, ?_, rfl, hstate⟩
    rw [show (⟨(nameOf i s.generation).index.toNat, hlt⟩ : Fin maxProcesses) = i from Fin.ext hi, hslot]

private theorem contains_iff {m : ProcessManager} {id : ProcessId} :
    m.contains id = true ↔ ∃ i, (m.slots i).state.isSome = true ∧ id = nameOf i (m.slots i).generation := by
  rw [contains_eq_true]
  constructor
  · rintro ⟨s, hs⟩
    obtain ⟨i, rfl, hstate, hid⟩ := slot_eq_ok_iff.mp hs
    exact ⟨i, hstate, hid⟩
  · rintro ⟨i, hstate, hid⟩
    exact ⟨_, slot_eq_ok_iff.mpr ⟨i, rfl, hstate, hid⟩⟩

theorem slots_setSlot (m : ProcessManager) (i : Fin maxProcesses) (generation : U32) (s : ProcessSlot) :
    (m.setSlot (nameOf i generation) s).slots = Function.update m.slots i s := by
  have hi := index_nameOf i generation
  have hlt : (nameOf i generation).index.toNat < maxProcesses := by
    rw [hi]
    exact i.isLt
  rw [setSlot, dif_pos hlt]
  rw [show (⟨(nameOf i generation).index.toNat, hlt⟩ : Fin maxProcesses) = i from Fin.ext hi]

/-- The names that the counters of the slots have gone through. -/
def issued (m : ProcessManager) : Set ProcessId :=
  { id | ∃ i g, id = nameOf i g ∧ 1 ≤ g.toNat ∧ g.toNat ≤ (m.slots i).generation.toNat }

private theorem nameOf_mem_issued {m : ProcessManager} {i : Fin maxProcesses} {g : U32} :
    nameOf i g ∈ m.issued ↔ 1 ≤ g.toNat ∧ g.toNat ≤ (m.slots i).generation.toNat := by
  constructor
  · rintro ⟨j, g', hname, h⟩
    obtain ⟨rfl, rfl⟩ := nameOf_inj.mp hname
    exact h
  · exact fun h => ⟨i, g, rfl, h⟩

/-! ### Effects -/

def WellFormed (m : ProcessManager) : Prop := ∀ i, (m.slots i).WellFormed i

/-- The names that are registered. -/
def registeredNames (m : ProcessManager) : Set ProcessId := { id | m.contains id = true }

private theorem mem_registeredNames {m : ProcessManager} {id : ProcessId} :
    id ∈ m.registeredNames ↔ ∃ i, (m.slots i).state.isSome = true ∧ id = nameOf i (m.slots i).generation :=
  contains_iff

private theorem issued_congr {m m' : ProcessManager} (h : ∀ i, (m'.slots i).generation = (m.slots i).generation) :
    m'.issued = m.issued := by
  unfold issued
  simp only [h]

section Written

variable {m m' : ProcessManager} {i : Fin maxProcesses} {s : ProcessSlot}

private theorem WellFormed.update (hm : m.WellFormed) (hslots : m'.slots = Function.update m.slots i s)
    (hs : s.WellFormed i) :
    m'.WellFormed := by
  intro j
  rw [hslots]
  by_cases hj : j = i
  · rw [hj, Function.update_self]
    exact hs
  · rw [Function.update_of_ne hj]
    exact hm j

/-- The names that are registered after a slot has been written: the one of the slot, and those of the other slots. -/
private theorem mem_registeredNames_update (hslots : m'.slots = Function.update m.slots i s) {id : ProcessId} :
    id ∈ m'.registeredNames ↔
      s.state.isSome = true ∧ id = nameOf i s.generation ∨ id ∈ m.registeredNames ∧ ∀ g, id ≠ nameOf i g := by
  simp only [mem_registeredNames, hslots]
  constructor
  · rintro ⟨j, hstate, rfl⟩
    by_cases hj : j = i
    · subst hj
      rw [Function.update_self] at hstate ⊢
      exact .inl ⟨hstate, rfl⟩
    · rw [Function.update_of_ne hj] at hstate ⊢
      exact .inr ⟨⟨j, hstate, rfl⟩, fun g hname => hj (nameOf_inj.mp hname).1⟩
  · rintro (⟨hstate, rfl⟩ | ⟨⟨j, hstate, rfl⟩, hother⟩)
    · refine ⟨i, ?_, ?_⟩ <;> rw [Function.update_self]
      exact hstate
    · have hj : j ≠ i := by
        rintro rfl
        exact hother _ rfl
      refine ⟨j, ?_, ?_⟩ <;> rw [Function.update_of_ne hj]
      exact hstate

/-- A name of a free slot is not registered. -/
private theorem not_registered_of_free (hfree : (m.slots i).state = none) (generation : U32) :
    nameOf i generation ∉ m.registeredNames := by
  rw [mem_registeredNames]
  rintro ⟨j, hstate, hname⟩
  obtain ⟨rfl, -⟩ := nameOf_inj.mp hname
  rw [hfree] at hstate
  cases hstate

end Written

/-- What a call does that returns the names `given` and takes the names `taken` out of the registry. -/
structure Effect (m m' : ProcessManager) (given taken : List ProcessId) : Prop extends
    Supply.Exchange (fun m => m.issuedᶜ) registeredNames m m' given taken where
  wellFormed : m.WellFormed → m'.WellFormed

namespace Effect

variable {m m' m'' : ProcessManager}

/-- Slots are rewritten under their names. -/
private theorem of_rewritten (hgen : ∀ i, (m'.slots i).generation = (m.slots i).generation)
    (hstate : ∀ i, (m'.slots i).state.isSome = (m.slots i).state.isSome) (hwf : m.WellFormed → m'.WellFormed) :
    Effect m m' [] [] := by
  refine ⟨⟨.nothing (by rw [issued_congr hgen]), by simp, fun id => ?_⟩, hwf⟩
  simp [mem_registeredNames, hgen, hstate]

protected theorem refl (m : ProcessManager) : Effect m m [] [] := of_rewritten (fun _ => rfl) (fun _ => rfl) id

/-- A slot is rewritten under its name. -/
private theorem setSlot {id : ProcessId} {s : ProcessSlot} (h : m.slot id = .ok s) (s' : ProcessSlot)
    (hgen : s'.generation = s.generation) (hstate : s'.state.isSome = true)
    (hwf : ∀ i, id = nameOf i s.generation → s.WellFormed i → s'.WellFormed i) :
    Effect m (m.setSlot id s') [] [] := by
  obtain ⟨i, rfl, hocc, rfl⟩ := slot_eq_ok_iff.mp h
  have hslots := slots_setSlot m i (m.slots i).generation s'
  refine of_rewritten (fun j => ?_) (fun j => ?_) fun hm => hm.update hslots (hwf i rfl (hm i))
  all_goals
    rw [hslots]
    by_cases hj : j = i
  · rw [hj, Function.update_self, hgen]
  · rw [Function.update_of_ne hj]
  · rw [hj, Function.update_self, hstate, hocc]
  · rw [Function.update_of_ne hj]

/-- A free slot is taken. -/
private theorem claim {i : Fin maxProcesses} {generation : U32} {image : ProcessImage}
    (hfree : (m.slots i).state = none) (hgen : checkedAdd (m.slots i).generation 1 = some generation)
    (hslots : m'.slots = Function.update m.slots i (registered generation image)) :
    Effect m m' [nameOf i generation] [] := by
  have hnat : generation.toNat = (m.slots i).generation.toNat + 1 := checkedAdd_eq_some.mp hgen
  have hfresh : nameOf i generation ∉ m.issued := by
    intro hmem
    have hle := (nameOf_mem_issued.mp hmem).2
    omega
  refine ⟨⟨.single hfresh fun id hid => ⟨?_, ?_⟩, by simp, fun id => ?_⟩,
    fun hm => hm.update hslots (registered_wellFormed i generation image)⟩
  · -- the counter has moved past the new name only
    rintro ⟨j, g, rfl, hpos, hle⟩
    refine hid (nameOf_mem_issued.mpr ⟨hpos, ?_⟩)
    rw [hslots]
    by_cases hj : j = i
    · subst hj
      rw [Function.update_self]
      show g.toNat ≤ generation.toNat
      omega
    · rwa [Function.update_of_ne hj]
  · rintro rfl
    refine hid (nameOf_mem_issued.mpr ⟨by omega, ?_⟩)
    rw [hslots, Function.update_self]
    exact Nat.le_refl _
  · rw [mem_registeredNames_update hslots, List.mem_singleton]
    constructor
    · rintro (⟨-, hid⟩ | ⟨hid, -⟩)
      · exact .inl hid
      · exact .inr ⟨hid, List.not_mem_nil⟩
    · rintro (hid | ⟨hid, -⟩)
      · exact .inl ⟨rfl, hid⟩
      · refine .inr ⟨hid, ?_⟩
        rintro g rfl
        exact not_registered_of_free hfree g hid

/-- An occupied slot is emptied. -/
private theorem retire {id : ProcessId} {s : ProcessSlot} (h : m.slot id = .ok s)
    (hslots : m'.slots = (m.setSlot id (.vacant s.generation)).slots) : Effect m m' [] [id] := by
  obtain ⟨i, rfl, hocc, rfl⟩ := slot_eq_ok_iff.mp h
  rw [slots_setSlot] at hslots
  have hgen : ∀ j, (m'.slots j).generation = (m.slots j).generation := by
    intro j
    rw [hslots]
    by_cases hj : j = i
    · rw [hj, Function.update_self]
      rfl
    · rw [Function.update_of_ne hj]
  have hname : nameOf i (m.slots i).generation ∈ m.registeredNames := mem_registeredNames.mpr ⟨i, hocc, rfl⟩
  refine ⟨⟨.nothing (by rw [issued_congr hgen]), fun id hid => ?_, fun id => ?_⟩,
    fun hm => hm.update hslots (ProcessSlot.vacant_wellFormed i _)⟩
  · rw [List.mem_singleton.mp hid]
    exact hname
  · rw [mem_registeredNames_update hslots, List.mem_singleton]
    constructor
    · rintro (⟨hstate, -⟩ | ⟨hid, hother⟩)
      · cases hstate
      · exact .inr ⟨hid, hother _⟩
    · rintro (hid | ⟨hid, hne⟩)
      · cases hid
      · refine .inr ⟨hid, ?_⟩
        rintro g rfl
        obtain ⟨j, -, hj⟩ := mem_registeredNames.mp hid
        obtain ⟨rfl, rfl⟩ := nameOf_inj.mp hj
        exact hne rfl

/-- A call that goes on to rewrite slots. -/
private theorem trans_rewritten {given taken : List ProcessId} (h : Effect m m' given taken)
    (h' : Effect m' m'' [] []) :
    Effect m m'' given taken :=
  ⟨h.toExchange.trans_nil h'.toExchange, h'.wellFormed ∘ h.wellFormed⟩

/-- A name that is given up before the call returns leaves the registered names as they were. -/
private theorem claim_retire {id : ProcessId} (h : Effect m m' [id] []) (hfresh : id ∉ m.registeredNames)
    (h' : Effect m' m'' [] [id]) : Effect m m'' [] [] :=
  ⟨h.toExchange.give_up hfresh h'.toExchange, h'.wellFormed ∘ h.wellFormed⟩

end Effect

/-! ### The effect of each operation -/

/-- Registration fails and changes nothing, or takes a free slot whose counter can still move. -/
private theorem registerReady_writes (m : ProcessManager) (image : ProcessImage) :
    (∃ e, m.registerReady image = (m, .error e)) ∨
    ∃ m' i generation, (m.slots i).state = none ∧ checkedAdd (m.slots i).generation 1 = some generation ∧
      m'.slots = Function.update m.slots i (registered generation image) ∧
      m.registerReady image = (m', .ok (nameOf i generation)) := by
  rw [registerReady, registerLoop_eq]
  split
  · exact .inl ⟨_, rfl⟩
  · rename_i offset hfind
    have hfree : (m.slots (m.probe offset)).state = none := by
      simpa using List.find?_some hfind
    unfold registerAt
    split
    · exact .inl ⟨_, rfl⟩
    · rename_i generation hgen
      exact .inr ⟨_, m.probe offset, generation, hfree, hgen, rfl, rfl⟩

private theorem attachExecution_effect (m : ProcessManager) (id : ProcessId) (task : TaskId)
    (execution : ExecutionHandle)
    (addressSpace : AddressSpaceId) : Effect m (m.attachExecution id task execution addressSpace).1 [] [] := by
  rcases m.attachExecution_writes id task execution addressSpace with ⟨e, h⟩ |
    ⟨s, image, b, hs, himage, hspace, hb, h⟩
  · rw [h]
    exact .refl m
  · rw [h]
    refine Effect.setSlot hs _ rfl (slot_eq_ok.mp hs).2.2.2 fun i hid hwf => ?_
    refine ⟨hwf.image, hwf.exitCode, fun _ => rfl, ?_⟩
    intro b' hb'
    obtain rfl := Option.some.inj hb'
    unfold ProcessExecutionBinding.new at hb
    split_ifs at hb with htask
    obtain rfl := Option.some.inj hb
    exact ⟨hid, htask, image, himage, hspace.symm⟩

private theorem start_effect (m : ProcessManager) (id : ProcessId) : Effect m (m.start id).1 [] [] := by
  rcases m.start_writes id with ⟨e, h⟩ | ⟨s, hs, hstate, hbound, h⟩
  · rw [h]
    exact .refl m
  · rw [h]
    refine Effect.setSlot hs _ rfl rfl fun i hid hwf => ⟨?_, ?_, fun _ => hbound, hwf.binding⟩
    · have himage := hwf.image
      simpa [hstate] using himage
    · have hcode := hwf.exitCode
      simpa [hstate] using hcode

private theorem requestExit_effect (m : ProcessManager) (id : ProcessId) (code : U64) :
    Effect m (m.requestExit id code).1 [] [] := by
  rcases m.requestExit_writes id code with ⟨e, h⟩ | ⟨s, hs, hstate, h⟩
  · rw [h]
    exact .refl m
  · rw [h]
    refine Effect.setSlot hs _ rfl rfl fun i hid hwf => ⟨?_, by simp, by simp, hwf.binding⟩
    have hsome : s.state.isSome = true := (slot_eq_ok.mp hs).2.2.2
    simpa using hwf.image.mpr hsome

private theorem yieldTo_effect (m : ProcessManager) (current successor : ProcessId) :
    Effect m (m.yieldTo current successor).1 [] [] := by
  rcases m.yieldTo_checks current successor with ⟨e, h⟩ | ⟨c, s, hne, hc, hs, hcst, hsst, hcb, hsb⟩
  · rw [h]
    exact .refl m
  · obtain ⟨hs', h⟩ := yieldTo_eq hne hc hs hcst hsst hcb hsb
    rw [h]
    refine Effect.trans_rewritten (Effect.setSlot hc { c with state := some .ready } rfl rfl fun i hid hwf => ?_)
      (Effect.setSlot hs' { s with state := some .running } rfl rfl fun i hid hwf => ?_)
    · have himage := hwf.image
      have hcode := hwf.exitCode
      exact ⟨by simpa [hcst] using himage, by simpa [hcst] using hcode, by simp, hwf.binding⟩
    · have himage := hwf.image
      have hcode := hwf.exitCode
      exact ⟨by simpa [hsst] using himage, by simpa [hsst] using hcode, fun _ => hsb, hwf.binding⟩

/-- A spawn returns the name it registers, or gives it up again. -/
private theorem spawnReady_effect (m : ProcessManager) (image : ProcessImage) (task : TaskId)
    (execution : ExecutionHandle) (addressSpace : AddressSpaceId) :
    (∃ m' e, m.spawnReady image task execution addressSpace = (m', .error e) ∧ Effect m m' [] []) ∨
    ∃ m' id b, m.spawnReady image task execution addressSpace = (m', .ok ⟨id, b⟩) ∧ Effect m m' [id] [] := by
  unfold spawnReady
  rcases m.registerReady_writes image with ⟨e, h⟩ | ⟨m₁, i, generation, hfree, hgen, hslots, h⟩
  · exact .inl ⟨m, e, by rw [h], .refl m⟩
  · rw [h]
    have hclaim : Effect m m₁ [nameOf i generation] [] := .claim hfree hgen hslots
    have hslot : m₁.slot (nameOf i generation) = .ok (registered generation image) :=
      slot_eq_ok_iff.mpr ⟨i, by rw [hslots, Function.update_self], rfl, rfl⟩
    have hattach := m₁.attachExecution_effect (nameOf i generation) task execution addressSpace
    rcases m₁.attachExecution_writes (nameOf i generation) task execution addressSpace with
      ⟨e, h₁⟩ | ⟨s, image', b, -, -, -, -, h₁⟩
    · refine .inl ⟨m₁.setSlot (nameOf i generation) (.vacant generation), e, ?_, ?_⟩
      · simp only [h₁, removeRegistered, hslot]
        rfl
      · exact hclaim.claim_retire (not_registered_of_free hfree generation) (.retire hslot rfl)
    · rw [h₁] at hattach
      exact .inr ⟨_, nameOf i generation, b, by simp only [h₁], hclaim.trans_rewritten hattach⟩

/-! ### Runs -/

inductive Op where
  | registerReady (image : ProcessImage)
  | spawnReady (image : ProcessImage) (task : TaskId) (execution : ExecutionHandle) (addressSpace : AddressSpaceId)
  | attachExecution (id : ProcessId) (task : TaskId) (execution : ExecutionHandle) (addressSpace : AddressSpaceId)
  | start (id : ProcessId)
  | yieldTo (current successor : ProcessId)
  | requestExit (id : ProcessId) (code : U64)
  | exit (id : ProcessId)
  | reap (id : ProcessId)
  | abortReady (id : ProcessId)
deriving DecidableEq, Repr

/-- The names that an operation is given. -/
def Op.names : Op → List ProcessId
  | .registerReady _ => []
  | .spawnReady .. => []
  | .attachExecution id .. => [id]
  | .start id => [id]
  | .yieldTo current successor => [current, successor]
  | .requestExit id _ => [id]
  | .exit id => [id]
  | .reap id => [id]
  | .abortReady id => [id]

/-- An operation on the registry; of its result, the name it returns is kept. -/
def perform (m : ProcessManager) : Op → ProcessManager × Except ProcessManagerError (Option ProcessId)
  | .registerReady image => Prod.map id (Except.map some) (m.registerReady image)
  | .spawnReady image task execution addressSpace =>
    Prod.map id (Except.map fun spawned => some spawned.id) (m.spawnReady image task execution addressSpace)
  | .attachExecution process task execution addressSpace =>
    Prod.map id (Except.map fun _ => none) (m.attachExecution process task execution addressSpace)
  | .start process => Prod.map id (Except.map fun _ => none) (m.start process)
  | .yieldTo current successor => Prod.map id (Except.map fun _ => none) (m.yieldTo current successor)
  | .requestExit process code => Prod.map id (Except.map fun _ => none) (m.requestExit process code)
  | .exit process => Prod.map id (Except.map fun _ => none) (m.exit process)
  | .reap process => Prod.map id (Except.map fun _ => none) (m.reap process)
  | .abortReady process => Prod.map id (Except.map fun _ => none) (m.abortReady process)

def run (ops : List Op) : ProcessManager := ops.foldl (fun m op => (m.perform op).1) new

/-- The name in a result. -/
def nameIn : Except ProcessManagerError (Option ProcessId) → List ProcessId
  | .ok (some id) => [id]
  | _ => []

@[simp] theorem nameIn_map_none {α : Type} (r : Except ProcessManagerError α) :
    nameIn (Except.map (fun _ => none) r) = [] := by
  cases r <;> rfl

/-- The name that an operation returns. -/
def returned (m : ProcessManager) (op : Op) : List ProcessId := nameIn (m.perform op).2

/-- The name that an operation aborts or reaps. -/
def removed (m : ProcessManager) (op : Op) : List ProcessId :=
  match op, (m.perform op).2 with
  | .reap id, .ok _ => [id]
  | .abortReady id, .ok _ => [id]
  | _, _ => []

private theorem perform_effect (m : ProcessManager) (op : Op) :
    Effect m (m.perform op).1 (m.returned op) (m.removed op) := by
  cases op with
  | registerReady image =>
    rcases m.registerReady_writes image with ⟨e, h⟩ | ⟨m', i, generation, hfree, hgen, hslots, h⟩
    · simpa [perform, returned, removed, nameIn, h, Except.map] using Effect.refl m
    · simpa [perform, returned, removed, nameIn, h, Except.map] using Effect.claim hfree hgen hslots
  | spawnReady image task execution addressSpace =>
    rcases m.spawnReady_effect image task execution addressSpace with ⟨m', e, h, heffect⟩ | ⟨m', id, b, h, heffect⟩
    · simpa [perform, returned, removed, nameIn, h, Except.map] using heffect
    · simpa [perform, returned, removed, nameIn, h, Except.map] using heffect
  | attachExecution id task execution addressSpace =>
    simpa [perform, returned, removed] using m.attachExecution_effect id task execution addressSpace
  | start id => simpa [perform, returned, removed] using m.start_effect id
  | yieldTo current successor => simpa [perform, returned, removed] using m.yieldTo_effect current successor
  | requestExit id code => simpa [perform, returned, removed] using m.requestExit_effect id code
  | exit id => simpa [perform, returned, removed, exit] using m.requestExit_effect id 0
  | reap id =>
    rcases m.reap_writes id with ⟨e, h⟩ | ⟨s, image, exitCode, hs, -, -, -, h⟩
    · simpa [perform, returned, removed, h, Except.map, nameIn] using Effect.refl m
    · simp only [perform, returned, removed, h, Prod.map, Except.map, nameIn]
      exact .retire hs (slots_setHint _ id)
  | abortReady id =>
    rcases m.abortReady_writes id with ⟨e, h⟩ | ⟨s, hs, -, h⟩
    · simpa [perform, returned, removed, h, Except.map, nameIn] using Effect.refl m
    · simpa [perform, returned, removed, h, Except.map, nameIn] using Effect.retire hs rfl

private theorem new_wellFormed : new.WellFormed := fun i => ProcessSlot.vacant_wellFormed i 0

/-- The names returned by the operations of a run. -/
def returnedIn (ops : List Op) : List ProcessId := Supply.Ledger.total (fun m op => (perform m op).1) returned new ops

/-- The names aborted or reaped by the operations of a run. -/
def removedIn (ops : List Op) : List ProcessId := Supply.Ledger.total (fun m op => (perform m op).1) removed new ops

/-- The names come from the counters of the slots, which only move up. -/
private theorem perform_ledger :
    Supply.Ledger (fun m op => (perform m op).1) returned removed (fun _ => True) WellFormed (fun m => m.issuedᶜ)
      registeredNames where
  within _ _ h := h
  valid m op hm _ := (m.perform_effect op).wellFormed hm
  exchange m op _ _ := (m.perform_effect op).toExchange

theorem run_account (ops : List Op) :
    Supply.Ledger.Account (fun m op => (perform m op).1) returned removed WellFormed (fun m => m.issuedᶜ)
      registeredNames
      new ops := by
  refine perform_ledger.account new_wellFormed (fun id hid => ?_) ops trivial
  obtain ⟨s, hs⟩ := contains_eq_true.mp hid
  rw [slot_new] at hs
  cases hs

/-! ### Names that are not registered -/

/-- A yield between two different names looks up both. -/
private theorem yieldTo_of_absent {m : ProcessManager} {current successor id : ProcessId} (hne : current ≠ successor)
    (hid : id = current ∨ id = successor) (hslot : m.slot id = .error .invalidProcess) :
    m.yieldTo current successor = (m, .error .invalidProcess) := by
  have hstate : m.state id = .error .invalidProcess := by rw [state, hslot]
  cases hcurrent : m.state current with
  | error e =>
    rw [state_error hcurrent] at hcurrent
    simp [yieldTo, hne, hcurrent]
  | ok st =>
    -- the first name is registered, so the second one is not
    have hsuccessor : id = successor := by
      rcases hid with rfl | hid
      · rw [hstate] at hcurrent
        cases hcurrent
      · exact hid
    subst hsuccessor
    simp [yieldTo, hne, hcurrent, hstate]

/-- Every operation looks up each name it is given before it writes anything; only `yield_to` compares its two names
first. -/
private theorem perform_of_not_contains {m : ProcessManager} {op : Op} {id : ProcessId} (hid : id ∈ op.names)
    (h : m.contains id = false) :
    m.perform op = (m, .error (if op = .yieldTo id id then .invalidTransition else .invalidProcess)) := by
  have hslot := slot_of_not_contains h
  cases op with
  | registerReady image => cases hid
  | spawnReady image task execution addressSpace => cases hid
  | attachExecution id' task execution addressSpace =>
    obtain rfl := List.mem_singleton.mp hid
    simp [perform, attachExecution, hslot, Except.map]
  | start id' =>
    obtain rfl := List.mem_singleton.mp hid
    simp [perform, start, hslot, Except.map]
  | yieldTo current successor =>
    by_cases heq : current = successor
    · subst heq
      obtain rfl : id = current := by simpa [Op.names] using hid
      simp [perform, yieldTo, Except.map]
    · have hop : Op.yieldTo current successor ≠ .yieldTo id id := by
        rintro hop
        injection hop with hc hs
        exact heq (hc.trans hs.symm)
      have hrefused : m.yieldTo current successor = (m, .error .invalidProcess) :=
        yieldTo_of_absent heq (by simpa [Op.names] using hid) hslot
      rw [if_neg hop, perform, hrefused]
      rfl
  | requestExit id' code =>
    obtain rfl := List.mem_singleton.mp hid
    simp [perform, requestExit, hslot, Except.map]
  | exit id' =>
    obtain rfl := List.mem_singleton.mp hid
    simp [perform, exit, requestExit, hslot, Except.map]
  | reap id' =>
    obtain rfl := List.mem_singleton.mp hid
    simp [perform, reap, hslot, Except.map]
  | abortReady id' =>
    obtain rfl := List.mem_singleton.mp hid
    simp [perform, abortReady, hslot, Except.map]

/-- An exited process has an image and an exit code, which is all that reaping asks for. -/
private theorem WellFormed.reap_ok {m : ProcessManager} (hm : m.WellFormed) {id : ProcessId}
    (h : m.state id = .ok .exited) : ∃ m' reaped, m.reap id = (m', .ok reaped) := by
  obtain ⟨s, hs, hstate⟩ := state_eq_ok.mp h
  obtain ⟨i, rfl, hocc, -⟩ := slot_eq_ok_iff.mp hs
  obtain ⟨image, himage⟩ := Option.isSome_iff_exists.mp ((hm i).image.mpr hocc)
  obtain ⟨code, hcode⟩ := Option.isSome_iff_exists.mp ((hm i).exitCode.mpr hstate)
  unfold reap
  rw [hs]
  simp only [hstate, ne_eq, not_true_eq_false, if_false, himage, hcode]
  exact ⟨_, _, rfl⟩

/-- The registry after any run: its slots are well formed, no name is returned twice, the registered names are those
returned and not yet aborted or reaped, any other name is refused without a change, and exited processes can be
reaped. -/
theorem run_registry (ops : List Op) :
    (∀ i, ((run ops).slots i).WellFormed i) ∧ (run ops).nextHint.val < 256 ∧ (returnedIn ops).Nodup ∧
    (∀ id, (run ops).contains id = true ↔ id ∈ returnedIn ops ∧ id ∉ removedIn ops) ∧
    (∀ op id, id ∈ op.names → (run ops).contains id = false → (run ops).perform op =
      (run ops, .error (if op = .yieldTo id id then .invalidTransition else .invalidProcess))) ∧
    ∀ id, (run ops).state id = .ok .exited → ∃ m' reaped, (run ops).reap id = (m', .ok reaped) :=
  ⟨(run_account ops).valid, (run ops).nextHint.isLt, (run_account ops).nodup, (run_account ops).held_iff,
    fun _ _ hid h => perform_of_not_contains hid h, fun _ h => (run_account ops).valid.reap_ok h⟩

/-- A name that was never issued, given to `yield_to` twice, is refused as a transition and not as a process. -/
theorem not_every_refusal_is_invalidProcess :
    ¬ ∀ (ops : List Op) (op : Op) (id : ProcessId), id ∈ op.names → (run ops).contains id = false →
      (run ops).perform op = (run ops, .error .invalidProcess) := by
  intro h
  have hresult := congrArg Prod.snd (h [] (.yieldTo ⟨0, 1⟩ ⟨0, 1⟩) ⟨0, 1⟩ (by decide) (by decide))
  simp [perform, yieldTo, Except.map] at hresult

/-! ### When registration fails -/

/-- Slot `i` is the first free one in the order of the search. -/
def FirstFree (m : ProcessManager) (i : Fin maxProcesses) : Prop :=
  (m.slots i).state = none ∧ ∃ k < maxProcesses, m.probe k = i ∧ ∀ j < k, (m.slots (m.probe j)).state ≠ none

theorem registerReady_of_firstFree {m : ProcessManager} {i : Fin maxProcesses} (h : m.FirstFree i)
    (image : ProcessImage) : m.registerReady image = m.registerAt image i := by
  obtain ⟨hfree, k, hk, rfl, hbefore⟩ := h
  have hfind : (List.range maxProcesses).find? (fun offset => (m.slots (m.probe offset)).state.isNone) = some k := by
    refine List.find?_range_eq_some.mpr ⟨by simp [hfree], List.mem_range.mpr hk, fun j hj => ?_⟩
    simpa [Option.ne_none_iff_isSome] using hbefore j hj
  rw [registerReady, registerLoop_eq, hfind]

/-- The search comes to every slot, so it finds a free one if there is any. -/
theorem exists_firstFree {m : ProcessManager} {i : Fin maxProcesses} (h : (m.slots i).state = none) :
    ∃ j, m.FirstFree j := by
  cases hfind : (List.range maxProcesses).find? (fun offset => (m.slots (m.probe offset)).state.isNone) with
  | none =>
    have hi : i.val < 256 := i.isLt
    have hhint : m.nextHint.val < 256 := m.nextHint.isLt
    have hprobe : m.probe ((i.val + 256 - m.nextHint.val) % 256) = i := by
      refine Fin.ext ?_
      show (m.nextHint.val + (i.val + 256 - m.nextHint.val) % 256) % 256 = i.val
      omega
    have hoccupied := List.find?_range_eq_none.mp hfind ((i.val + 256 - m.nextHint.val) % 256)
      (Nat.mod_lt _ (by decide))
    rw [hprobe, h] at hoccupied
    cases hoccupied
  | some k =>
    obtain ⟨hfree, hk, hbefore⟩ := List.find?_range_eq_some.mp hfind
    refine ⟨m.probe k, by simpa using hfree, k, List.mem_range.mp hk, rfl, fun j hj => ?_⟩
    simpa [Option.ne_none_iff_isSome] using hbefore j hj

private theorem registerAt_eq_ok {m : ProcessManager} {i : Fin maxProcesses} (h : (m.slots i).generation ≠ u32Max)
    (image : ProcessImage) :
    ∃ m' generation, m.registerAt image i = (m', .ok (nameOf i generation)) ∧
      m'.slots = Function.update m.slots i (registered generation image) := by
  unfold registerAt
  cases hgen : checkedAdd (m.slots i).generation 1 with
  | none =>
    have hlt := (m.slots i).generation.isLt
    rw [checkedAdd_eq_none] at hgen
    refine absurd (BitVec.eq_of_toNat_eq ?_) h
    show (m.slots i).generation.toNat = 2 ^ 32 - 1
    change 2 ^ 32 ≤ (m.slots i).generation.toNat + 1 at hgen
    omega
  | some generation => exact ⟨_, generation, rfl, rfl⟩

private theorem registerAt_eq_error {m : ProcessManager} {i : Fin maxProcesses} (h : (m.slots i).generation = u32Max)
    (image : ProcessImage) : m.registerAt image i = (m, .error .generationExhausted) := by
  unfold registerAt
  rw [h]
  rfl

/-- Registration is refused only when every slot is occupied or used up, and otherwise takes a slot
that is neither. -/
structure RegistersIfPossible (m : ProcessManager) (image : ProcessImage) : Prop where
  refused : ∀ m' e, m.registerReady image = (m', .error e) →
    ∀ i, (m.slots i).state ≠ none ∨ (m.slots i).generation = u32Max
  registers : (∃ i, (m.slots i).state = none ∧ (m.slots i).generation ≠ u32Max) →
    ∃ m' i generation, m.registerReady image = (m', .ok (nameOf i generation)) ∧
      m'.slots = Function.update m.slots i (registered generation image) ∧
      (m.slots i).state = none ∧ (m.slots i).generation ≠ u32Max

/-- The search stops at the first free slot, so registration works as it should exactly when that slot is not used up
or no other slot could have been taken. -/
theorem run_registersIfPossible_iff (ops : List Op) (image : ProcessImage) :
    (run ops).RegistersIfPossible image ↔
      ((∃ i, ((run ops).slots i).state = none ∧ ((run ops).slots i).generation ≠ u32Max) →
        ∀ i, (run ops).FirstFree i → ((run ops).slots i).generation ≠ u32Max) := by
  generalize run ops = m
  constructor
  · intro h husable i hfirst hused
    obtain ⟨m', j, generation, hok, -⟩ := h.registers husable
    rw [registerReady_of_firstFree hfirst, registerAt_eq_error hused] at hok
    cases hok
  · intro hcond
    have hregisters : (∃ i, (m.slots i).state = none ∧ (m.slots i).generation ≠ u32Max) →
        ∃ m' i generation, m.registerReady image = (m', .ok (nameOf i generation)) ∧
          m'.slots = Function.update m.slots i (registered generation image) ∧
          (m.slots i).state = none ∧ (m.slots i).generation ≠ u32Max := by
      rintro ⟨j, hfree, hnotused⟩
      obtain ⟨i, hfirst⟩ := exists_firstFree hfree
      have hunused := hcond ⟨j, hfree, hnotused⟩ i hfirst
      obtain ⟨m', generation, hok, hslots⟩ := registerAt_eq_ok hunused image
      exact ⟨m', i, generation, (registerReady_of_firstFree hfirst image).trans hok, hslots, hfirst.1, hunused⟩
    refine ⟨fun m' e herror i => ?_, hregisters⟩
    by_contra hnot
    rw [not_or, not_not] at hnot
    obtain ⟨m'', j, generation, hok, -⟩ := hregisters ⟨i, hnot⟩
    rw [hok] at herror
    cases herror

/-! ### A slot that is used up -/

/-- Reaping points the search at the slot that has just become free. -/
private theorem nextHint_reap {m m' : ProcessManager} {id : ProcessId} {reaped : ReapedProcess}
    (h : m.reap id = (m', .ok reaped)) : m'.nextHint.val = id.index.toNat := by
  rcases m.reap_writes id with ⟨e, herror⟩ | ⟨s, image, exitCode, hs, -, -, -, hok⟩
  · rw [herror] at h
    cases h
  · rw [hok] at h
    obtain ⟨hlt, -⟩ := slot_eq_ok.mp hs
    rw [← (Prod.mk.inj h).1, setHint, dif_pos hlt]

/-- A process that is registered, exits and is reaped leaves its slot free, first in the search, and one generation
older. -/
private theorem register_exit_reap {m : ProcessManager} {generation : U32} (image : ProcessImage)
    (hfree : (m.slots m.nextHint).state = none)
    (hgen : checkedAdd (m.slots m.nextHint).generation 1 = some generation) :
    [Op.registerReady image, .requestExit (nameOf m.nextHint generation) 0,
      .reap (nameOf m.nextHint generation)].foldl
      (fun m op => (m.perform op).1) m = ⟨Function.update m.slots m.nextHint (.vacant generation), m.nextHint⟩ := by
  have hprobe : m.probe 0 = m.nextHint := Fin.ext (Nat.mod_eq_of_lt m.nextHint.isLt)
  have hfirst : m.FirstFree m.nextHint := ⟨hfree, 0, by decide, hprobe, fun j hj => absurd hj (Nat.not_lt_zero j)⟩
  set i := m.nextHint
  obtain ⟨m₁, hregister, hslots₁⟩ : ∃ m₁, m.registerReady image = (m₁, .ok (nameOf i generation)) ∧
      m₁.slots = Function.update m.slots i (registered generation image) := by
    rw [registerReady_of_firstFree hfirst, registerAt, hgen]
    exact ⟨_, rfl, rfl⟩
  have hslot₁ : m₁.slot (nameOf i generation) = .ok (registered generation image) :=
    slot_eq_ok_iff.mpr ⟨i, by rw [hslots₁, Function.update_self], rfl, rfl⟩
  let exited : ProcessSlot := ⟨generation, some image, some .exited, none, some 0⟩
  obtain ⟨m₂, hexit, hslots₂⟩ : ∃ m₂, m₁.requestExit (nameOf i generation) 0 = (m₂, .ok ()) ∧
      m₂.slots = Function.update m₁.slots i exited := by
    refine ⟨m₁.setSlot (nameOf i generation) exited, ?_, slots_setSlot ..⟩
    rw [requestExit, hslot₁]
    rfl
  have hslot₂ : m₂.slot (nameOf i generation) = .ok exited :=
    slot_eq_ok_iff.mpr ⟨i, by rw [hslots₂, Function.update_self], rfl, rfl⟩
  obtain ⟨m₃, reaped, hreap, hslots₃⟩ : ∃ m₃ reaped, m₂.reap (nameOf i generation) = (m₃, .ok reaped) ∧
      m₃.slots = Function.update m₂.slots i (.vacant generation) := by
    rw [← slots_setSlot m₂ i generation (.vacant generation), reap, hslot₂]
    exact ⟨_, _, rfl, slots_setHint ..⟩
  have hhint : m₃.nextHint = i := Fin.ext ((nextHint_reap hreap).trans (index_nameOf ..))
  have hrun : [Op.registerReady image, .requestExit (nameOf i generation) 0, .reap (nameOf i generation)].foldl
      (fun m op => (m.perform op).1) m = m₃ := by
    simp only [List.foldl_cons, List.foldl_nil, perform, hregister, Prod.map_apply, hexit, hreap, id]
  rw [hrun, show m₃ = ⟨m₃.slots, m₃.nextHint⟩ from rfl, hslots₃, hslots₂, hslots₁, Function.update_idem,
    Function.update_idem, hhint]

namespace UsedUpSlot

def image : ProcessImage := MinimalElf.image ⟨1, by decide⟩

/-- One process after another is registered, exits and is reaped; each of them has slot 0. -/
def ops (n : Nat) : List Op :=
  (List.range n).flatMap fun k =>
    [.registerReady image, .requestExit (nameOf new.nextHint (BitVec.ofNat 32 (k + 1))) 0,
      .reap (nameOf new.nextHint (BitVec.ofNat 32 (k + 1)))]

def worn (n : Nat) : ProcessManager :=
  ⟨Function.update new.slots new.nextHint (.vacant (BitVec.ofNat 32 n)), new.nextHint⟩

private theorem worn_slot (n : Nat) : (worn n).slots (worn n).nextHint = .vacant (BitVec.ofNat 32 n) := by
  simp only [worn, Function.update_self]

private theorem worn_slot_of_ne (n : Nat) {i : Fin maxProcesses} (hi : i ≠ new.nextHint) :
    (worn n).slots i = .vacant 0 := by
  simp only [worn, Function.update_of_ne hi]
  rfl

private theorem run_ops {n : Nat} (hn : n < 2 ^ 32) : run (ops n) = worn n := by
  induction n with
  | zero =>
    rw [worn, show ProcessSlot.vacant (BitVec.ofNat 32 0) = new.slots new.nextHint from rfl, Function.update_eq_self]
    rfl
  | succ n ih =>
    have hn' : n < 2 ^ 32 := by omega
    have hgen : checkedAdd (BitVec.ofNat 32 n) 1 = some (BitVec.ofNat 32 (n + 1)) := by
      rw [checkedAdd_eq_some, BitVec.toNat_ofNat, BitVec.toNat_ofNat, Nat.mod_eq_of_lt hn, Nat.mod_eq_of_lt hn']
      rfl
    have hcycle := register_exit_reap (m := worn n) image (by rw [worn_slot]; rfl) (by rw [worn_slot]; exact hgen)
    have hslots : Function.update (worn n).slots (worn n).nextHint (.vacant (BitVec.ofNat 32 (n + 1))) =
        (worn (n + 1)).slots := Function.update_idem ..
    rw [hslots] at hcycle
    rw [ops, List.range_succ, List.flatMap_append, ← ops, run, List.foldl_append, ← run, ih hn']
    exact hcycle

/-- After 2^32 - 1 processes slot 0 is used up, and registration fails although no process is left and the other slots
have never been used. -/
theorem registration_refused : ¬ (run (ops (2 ^ 32 - 1))).RegistersIfPossible image := by
  rw [run_ops (by decide)]
  intro h
  have hprobe : (worn (2 ^ 32 - 1)).probe 0 = (worn (2 ^ 32 - 1)).nextHint := rfl
  have hfirst : (worn (2 ^ 32 - 1)).FirstFree (worn (2 ^ 32 - 1)).nextHint :=
    ⟨by rw [worn_slot]; rfl, 0, by decide, hprobe, fun j hj => absurd hj (Nat.not_lt_zero j)⟩
  have hother : (worn (2 ^ 32 - 1)).slots ⟨1, by decide⟩ = .vacant 0 := worn_slot_of_ne _ (by decide)
  obtain ⟨m', i, generation, hok, -⟩ := h.registers ⟨⟨1, by decide⟩, by rw [hother]; rfl, by rw [hother]; decide⟩
  rw [registerReady_of_firstFree hfirst, registerAt_eq_error (by rw [worn_slot]; rfl)] at hok
  cases hok

end UsedUpSlot

end ProcessManager

end X11Os
