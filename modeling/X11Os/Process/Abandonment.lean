import X11Os.Process.Registry

/-!
# Registrations that are given up

A registration is given up by `abort_ready`, or by `spawn_ready` when no execution can be attached.  Both empty the
slot through `remove_registered`, which leaves the hint where the registration has put it: one past the slot.  `reap`
empties a slot as well and points the hint back at it.  So after a registration that is given up the search comes to
its slot last, and the slot is taken next only when there is no other free one.
-/

namespace X11Os

open Word

namespace ProcessManager

/-- A registration that issues `id` is given up, which leaves the registry `m'`. -/
inductive Abandons (m : ProcessManager) (id : ProcessId) (m' : ProcessManager) : Prop where
  | aborted (image : ProcessImage) (m₁ : ProcessManager) (hregister : m.registerReady image = (m₁, .ok id))
      (habort : m₁.abortReady id = (m', .ok ()))
  | rolledBack (image : ProcessImage) (task : TaskId) (execution : ExecutionHandle) (addressSpace : AddressSpaceId)
      (m₁ : ProcessManager) (e : ProcessManagerError) (hregister : m.registerReady image = (m₁, .ok id))
      (hspawn : m.spawnReady image task execution addressSpace = (m', .error e))

/-- The next registration takes the slot of `id` again, with the generation after that of `id`. -/
def Reissues (m : ProcessManager) (id : ProcessId) (image : ProcessImage) : Prop :=
  ∃ m', m.registerReady image = (m', .ok ⟨id.index, id.generation + 1⟩)

/-- There is one free slot, whose counter can still move twice. -/
def OneSlotLeft (m : ProcessManager) : Prop :=
  ∃ i, (∀ j, (m.slots j).state = none ↔ j = i) ∧ (m.slots i).generation.toNat + 2 < 2 ^ 32

/-! ### What a registration and its end write -/

/-- A registration takes a free slot and leaves the hint one past it. -/
private theorem registerReady_eq_ok {m m' : ProcessManager} {image : ProcessImage} {id : ProcessId}
    (h : m.registerReady image = (m', .ok id)) :
    ∃ i generation, (m.slots i).state = none ∧ checkedAdd (m.slots i).generation 1 = some generation ∧
      id = nameOf i generation ∧ m'.slots = Function.update m.slots i (registered generation image) ∧
      m'.nextHint.val = (i.val + 1) % maxProcesses := by
  rw [registerReady, registerLoop_eq] at h
  split at h
  · cases h
  · rename_i offset hfind
    have hfree : (m.slots (m.probe offset)).state = none := by
      simpa using List.find?_some hfind
    unfold registerAt at h
    split at h
    · cases h
    · rename_i generation hgen
      cases h
      exact ⟨m.probe offset, generation, hfree, hgen, rfl, rfl, rfl⟩

private theorem nextHint_setSlot (m : ProcessManager) (id : ProcessId) (s : ProcessSlot) :
    (m.setSlot id s).nextHint = m.nextHint := by
  unfold setSlot
  split_ifs <;> rfl

/-- Either way of giving up a registration removes it from its slot. -/
private theorem Abandons.removes {m m' : ProcessManager} {id : ProcessId} (h : m.Abandons id m') :
    ∃ image m₁, m.registerReady image = (m₁, .ok id) ∧ m₁.removeRegistered id = (m', .ok ()) := by
  cases h with
  | aborted image m₁ hregister habort =>
    refine ⟨image, m₁, hregister, ?_⟩
    unfold abortReady at habort
    split at habort
    · cases habort
    · split_ifs at habort with hstate
      · cases habort
      · exact habort
  | rolledBack image task execution addressSpace m₁ e hregister hspawn =>
    refine ⟨image, m₁, hregister, ?_⟩
    obtain ⟨i, generation, -, -, rfl, hslots, -⟩ := registerReady_eq_ok hregister
    have hslot : m₁.slot (nameOf i generation) = .ok (registered generation image) :=
      slot_eq_ok_iff.mpr ⟨i, by rw [hslots, Function.update_self], rfl, rfl⟩
    rw [spawnReady, hregister] at hspawn
    rcases m₁.attachExecution_writes (nameOf i generation) task execution addressSpace with
      ⟨e', hattach⟩ | ⟨s, image', b, -, -, -, -, hattach⟩
    · -- a failed attachment has changed nothing, so the slot that is emptied is the registered one
      simp only [hattach, Prod.mk.injEq] at hspawn
      rw [← hspawn.1]
      simp only [removeRegistered, hslot]
    · simp only [hattach, Prod.mk.injEq, reduceCtorEq, and_false] at hspawn

/-- A registration that is given up leaves its slot free and one generation older, and the hint one past it. -/
private theorem Abandons.writes {m m' : ProcessManager} {id : ProcessId} (h : m.Abandons id m') :
    ∃ i generation, (m.slots i).state = none ∧ checkedAdd (m.slots i).generation 1 = some generation ∧
      id = nameOf i generation ∧ m'.slots = Function.update m.slots i (.vacant generation) ∧
      m'.nextHint.val = (i.val + 1) % maxProcesses := by
  obtain ⟨image, m₁, hregister, hremove⟩ := h.removes
  obtain ⟨i, generation, hfree, hgen, rfl, hslots, hhint⟩ := registerReady_eq_ok hregister
  have hslot : m₁.slot (nameOf i generation) = .ok (registered generation image) :=
    slot_eq_ok_iff.mpr ⟨i, by rw [hslots, Function.update_self], rfl, rfl⟩
  simp only [removeRegistered, hslot, Prod.mk.injEq, and_true] at hremove
  subst hremove
  refine ⟨i, generation, hfree, hgen, rfl, ?_, ?_⟩
  · rw [slots_setSlot, hslots, Function.update_idem]
    rfl
  · rw [nextHint_setSlot, hhint]

/-! ### The slot that the search comes to last -/

/-- With the hint one past a free slot, that slot is taken exactly when no other one is free. -/
private theorem firstFree_iff_of_nextHint {m : ProcessManager} {i : Fin maxProcesses}
    (hhint : m.nextHint.val = (i.val + 1) % maxProcesses) (hfree : (m.slots i).state = none) :
    m.FirstFree i ↔ ∀ j, (m.slots j).state = none → j = i := by
  have hi : i.val < 256 := i.isLt
  have hhint' : m.nextHint.val = (i.val + 1) % 256 := hhint
  constructor
  · rintro ⟨-, k, hk, hprobe, hbefore⟩ j hj
    have hk' : k < 256 := hk
    have hprobe' : (m.nextHint.val + k) % 256 = i.val := congrArg Fin.val hprobe
    have hlast : k = 255 := by omega
    by_contra hne
    have hjlt : j.val < 256 := j.isLt
    have hvalne : j.val ≠ i.val := fun heq => hne (Fin.ext heq)
    -- every other slot is tried before `i`
    have hearlier : m.probe ((j.val + 255 - i.val) % 256) = j := by
      refine Fin.ext ?_
      show (m.nextHint.val + (j.val + 255 - i.val) % 256) % 256 = j.val
      omega
    refine hbefore ((j.val + 255 - i.val) % 256) (by omega) ?_
    rw [hearlier]
    exact hj
  · intro honly
    obtain ⟨j, hfirst⟩ := exists_firstFree hfree
    rwa [honly j hfirst.1] at hfirst

/-- What registration returns when slot `i` is the first free one. -/
private theorem reissues_nameOf_iff {m : ProcessManager} {i j : Fin maxProcesses} (hfirst : m.FirstFree j)
    (image : ProcessImage) {generation : U32} (hgen : (m.slots i).generation = generation) :
    m.Reissues (nameOf i generation) image ↔ j = i ∧ generation.toNat + 1 < 2 ^ 32 := by
  unfold Reissues
  rw [registerReady_of_firstFree hfirst, registerAt]
  cases hadd : checkedAdd (m.slots j).generation 1 with
  | none =>
    simp only [Prod.mk.injEq, reduceCtorEq, and_false, exists_false, false_iff, not_and, not_lt]
    rintro rfl
    rw [hgen, checkedAdd_eq_none] at hadd
    exact hadd
  | some next =>
    rw [checkedAdd_eq_some] at hadd
    have hnext := next.isLt
    constructor
    · rintro ⟨m', h⟩
      have hname : nameOf j next = nameOf i (generation + 1) := Except.ok.inj (Prod.mk.inj h).2
      obtain ⟨rfl, -⟩ := nameOf_inj.mp hname
      rw [hgen] at hadd
      exact ⟨rfl, hadd ▸ hnext⟩
    · rintro ⟨rfl, hlt⟩
      rw [hgen] at hadd
      have hsucc : next = generation + 1 := by
        refine BitVec.eq_of_toNat_eq ?_
        rw [hadd, BitVec.toNat_add]
        exact (Nat.mod_eq_of_lt hlt).symm
      subst hsucc
      exact ⟨_, rfl⟩

/-- A registration that is given up has its slot taken again by the next one exactly when that slot was the only free
one, and its counter can move once more. -/
theorem run_reissues_iff (ops : List Op) {id : ProcessId} {m' : ProcessManager} (h : (run ops).Abandons id m')
    (image : ProcessImage) : m'.Reissues id image ↔ (run ops).OneSlotLeft := by
  generalize run ops = m at h
  obtain ⟨i, generation, hfree, hgen, rfl, hslots, hhint⟩ := h.writes
  have hnat : generation.toNat = (m.slots i).generation.toNat + 1 := checkedAdd_eq_some.mp hgen
  have hslot : m'.slots i = .vacant generation := by rw [hslots, Function.update_self]
  have hfree' : (m'.slots i).state = none := by rw [hslot]; rfl
  have hsame : ∀ j, (m'.slots j).state = none ↔ (m.slots j).state = none := by
    intro j
    by_cases hj : j = i
    · subst hj
      rw [hfree, hfree']
    · rw [hslots, Function.update_of_ne hj]
  obtain ⟨j, hfirst⟩ := exists_firstFree hfree'
  rw [reissues_nameOf_iff hfirst image (by rw [hslot]; rfl)]
  constructor
  · rintro ⟨rfl, hroom⟩
    have honly := (firstFree_iff_of_nextHint hhint hfree').mp hfirst
    refine ⟨j, fun k => ⟨fun hk => honly k ((hsame k).mpr hk), ?_⟩, by omega⟩
    rintro rfl
    exact hfree
  · rintro ⟨k, honly, hroom⟩
    obtain rfl := (honly i).mp hfree
    refine ⟨?_, by omega⟩
    exact (honly j).mp ((hsame j).mp hfirst.1)

namespace Filled

/-- The registry after `n` registrations. -/
def filled (n : Nat) : ProcessManager :=
  ⟨fun i => if i.val < n then registered 1 UsedUpSlot.image else .vacant 0,
    ⟨n % maxProcesses, Nat.mod_lt _ (by decide)⟩⟩

private theorem run_filled {n : Nat} (hn : n ≤ maxProcesses) :
    run (List.replicate n (.registerReady UsedUpSlot.image)) = filled n := by
  induction n with
  | zero => rfl
  | succ n ih =>
    have hlt : n < maxProcesses := hn
    have hmod : n % maxProcesses = n := Nat.mod_eq_of_lt hlt
    have hprobe : (filled n).probe 0 = ⟨n, hlt⟩ := Fin.ext (by simp [probe, filled, hmod])
    have hslot : (filled n).slots ⟨n, hlt⟩ = .vacant 0 := if_neg (Nat.lt_irrefl n)
    have hfirst : (filled n).FirstFree ⟨n, hlt⟩ :=
      ⟨by rw [hslot]; rfl, 0, by decide, hprobe, fun j hj => absurd hj (Nat.not_lt_zero j)⟩
    have hslots : Function.update (filled n).slots ⟨n, hlt⟩ (registered 1 UsedUpSlot.image) =
      (filled (n + 1)).slots := by
      funext j
      by_cases hj : j = ⟨n, hlt⟩
      · subst hj
        rw [Function.update_self]
        exact (if_pos (Nat.lt_succ_self n)).symm
      · have hne : j.val ≠ n := fun heq => hj (Fin.ext heq)
        have hiff : j.val < n ↔ j.val < n + 1 := by omega
        rw [Function.update_of_ne hj]
        simp only [filled, hiff]
    have hgen : checkedAdd (0 : U32) 1 = some 1 := by decide
    rw [List.replicate_succ', run, List.foldl_append, ← run, ih (Nat.le_of_lt hlt)]
    simp only [List.foldl_cons, List.foldl_nil, perform, registerReady_of_firstFree hfirst, registerAt, hslot,
      ProcessSlot.vacant, hgen, Prod.map_apply, id_eq, hslots]
    rfl

/-- With one slot left, a registration that is aborted gets its slot again. -/
theorem last_slot_reissued :
    ∃ m', (run (List.replicate 255 (.registerReady UsedUpSlot.image))).Abandons ⟨255, 1⟩ m' ∧
      m'.Reissues ⟨255, 1⟩ UsedUpSlot.image := by
  obtain ⟨m₁, hregister⟩ : ∃ m₁, (filled 255).registerReady UsedUpSlot.image = (m₁, .ok ⟨255, 1⟩) := ⟨_, rfl⟩
  obtain ⟨m', habort⟩ : ∃ m', m₁.abortReady ⟨255, 1⟩ = (m', .ok ()) := by
    cases hregister
    exact ⟨_, rfl⟩
  have habandons : (run (List.replicate 255 (.registerReady UsedUpSlot.image))).Abandons ⟨255, 1⟩ m' := by
    rw [run_filled (by decide)]
    exact .aborted UsedUpSlot.image m₁ hregister habort
  refine ⟨m', habandons, (run_reissues_iff _ habandons UsedUpSlot.image).mpr ?_⟩
  rw [run_filled (by decide)]
  refine ⟨⟨255, by decide⟩, fun j => ?_, by decide⟩
  have hj : j.val < 256 := j.isLt
  by_cases hlt : j.val < 255
  · simp [filled, hlt, registered, Fin.ext_iff]
    omega
  · simp [filled, hlt, ProcessSlot.vacant, Fin.ext_iff]
    omega

/-- A registration in an empty registry that is aborted: the next one takes slot 1, which has never been used. -/
theorem aborted_slot_passed_over :
    ¬ ∀ ops : List Op, (∃ i, ((run ops).slots i).state = none ∧ ((run ops).slots i).generation ≠ u32Max) →
      ∀ id m' image, (run ops).Abandons id m' → m'.Reissues id image := by
  intro h
  have habandons : (run []).Abandons ⟨0, 1⟩ ((new.registerReady UsedUpSlot.image).1.abortReady ⟨0, 1⟩).1 :=
    .aborted UsedUpSlot.image _ rfl rfl
  obtain ⟨m', hnext⟩ := h [] ⟨⟨0, by decide⟩, rfl, by decide⟩ _ _ UsedUpSlot.image habandons
  have hresult : (((new.registerReady UsedUpSlot.image).1.abortReady ⟨0, 1⟩).1.registerReady UsedUpSlot.image).2 =
      .ok ⟨0, 2⟩ :=
    congrArg Prod.snd hnext
  exact absurd hresult (by decide)

end Filled

end ProcessManager

end X11Os
