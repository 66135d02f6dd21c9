import X11Os.Arch.AddressSpaces

/-!
# The root of a user address space

`AddressSpaceRoot::new_user_root` (`arch/x86_64/address_space.rs`): a frame is cleared through the direct map, and
gets the kernel half of the active root.  It is an address space of its own that maps nothing, and the others are as
they were (`Working.newUserRoot`).
-/

namespace X11Os

open Word Amd64 Exec TableTree MappedMemory

inductive AddressSpaceRootError where
  | unaligned
  | allocationFailed
  | physicalAddressOverflow
deriving DecidableEq, Repr

/-- `root_table[index] = active_table[index].clone()`, for the indexes of a list. -/
def copyEntries (activeVirtual rootVirtual : U64) : List (Fin 512) → Exec KernelMemory AddressSpaceRootError Unit
  | [] => pure ()
  | index :: rest => do
    let entry ← kernelLoad (entryAddress activeVirtual index) 8
    kernelStore (entryAddress rootVirtual index) entry
    copyEntries activeVirtual rootVirtual rest

/-- The indexes of the kernel half. -/
def kernelIndexes : List (Fin 512) := (List.finRange 512).filter fun i => kernelP4Start ≤ i.val ∧ i.val < kernelP4End

def newUserRoot (physicalMemoryOffset : U64) : Exec KernelMemory AddressSpaceRootError U64 := do
  let raw ← okOr (← modifyGet KernelMemory.allocateFrame) .allocationFailed
  let frame ← PhysFrame.fromStartAddress raw .allocationFailed
  let rootVirtual ← okOr (checkedAdd frame physicalMemoryOffset) .physicalAddressOverflow
  let active := (← get).cr3
  let activeVirtual ← okOr (checkedAdd active physicalMemoryOffset) .physicalAddressOverflow
  kernelStore rootVirtual (List.replicate 4096 0)
  copyEntries activeVirtual rootVirtual kernelIndexes
  return frame

variable {d : DirectMap} {roots : List U64} {s₀ s s' : KernelMemory} {src dst : U64}

private theorem mem_kernelIndexes {i : Fin 512} : i ∈ kernelIndexes ↔ kernelP4Start ≤ i.val := by
  have hi := i.isLt
  simp only [kernelIndexes, List.mem_filter, List.mem_finRange, true_and, decide_eq_true_eq]
  exact ⟨fun h => h.1, fun h => ⟨h, hi⟩⟩

/-! ### The copy of an entry -/

/-- The memory after a copy of an entry. -/
private def copyEntry (m : Memory) (src dst : U64) (i : Fin 512) : Memory :=
  copyBytes m (entryAddress dst i) ((List.range 8).map fun k => m (entryAddress src i + BitVec.ofNat 64 k))

private theorem copyEntry_outside {m : Memory} {i : Fin 512} {x : U64} (hx : ¬ Within (entryAddress dst i) 8 x) :
    copyEntry m src dst i x = m x := by
  have hfar : ¬ (x - entryAddress dst i).toNat < 8 := hx
  rw [copyEntry, copyBytes, List.getElem?_eq_none, Option.getD_none]
  rw [List.length_map, List.length_range]
  omega

private theorem readTable_copyEntry {m : Memory} {i : Fin 512} (hdst : IsFrame dst) {c : U64} (hc : IsFrame c)
    (j : Fin 512) : readTable (copyEntry m src dst i) c j =
      if c = dst ∧ j = i then readTable m src i else readTable m c j := by
  refine readTable_of_write hdst hc (fun x hx => copyEntry_outside hx) ?_
  refine congrArg PageTableEntry.mk (read64_eq fun k hk => ?_)
  have hdistance : (entryAddress dst i + k - entryAddress dst i).toNat = k.toNat := by
    rw [BitVec.add_comm, BitVec.add_sub_cancel]
  rw [copyEntry, copyBytes, hdistance, List.getElem?_map, List.getElem?_range hk]
  show m (entryAddress src i + BitVec.ofNat 64 k.toNat) = _
  rw [BitVec.ofNat_toNat, BitVec.setWidth_eq]

/-- The loop copies the entries of the list to another table, through the direct map. -/
private theorem copyEntries_runs (hsrc : IsFrame src) (hsrcReached : src.toNat < d.limit) (hdst : IsFrame dst)
    (hdstReached : dst.toNat < d.limit) (hne : src ≠ dst) (l : List (Fin 512))
    (hstable : d.StableOn s (Within dst 4096)) :
    ∃ memory, Runs (copyEntries (d.offset + src) (d.offset + dst) l) s () { s with memory } ∧
      (∀ x, ¬ Within dst 4096 x → memory x = s.memory x) ∧
      ∀ c, IsFrame c → ∀ j, (c = dst → j ∈ l → readTable memory c j = readTable s.memory src j) ∧
        (¬ (c = dst ∧ j ∈ l) → readTable memory c j = readTable s.memory c j) := by
  induction l generalizing s with
  | nil =>
    exact ⟨s.memory, .pure, fun _ _ => rfl, fun c _ j => ⟨fun _ hj => absurd hj List.not_mem_nil, fun _ => rfl⟩⟩
  | cons i l ih =>
    have hi := i.isLt
    have hload := DirectMap.frame_load_runs (ε := AddressSpaceRootError) (k := 8 * i.val) hsrc hsrcReached
      hstable.shownBy (n := 8) (by omega)
    have hfit : 8 * i.val + ((List.range 8).map fun k =>
        s.memory (src + BitVec.ofNat 64 (8 * i.val) + BitVec.ofNat 64 k)).length ≤ 4096 := by
      rw [List.length_map, List.length_range]
      omega
    have hstore := DirectMap.frame_store_runs (ε := AddressSpaceRootError) hdst hdstReached hstable hfit
    have hout : ∀ x, ¬ Within dst 4096 x → copyEntry s.memory src dst i x = s.memory x :=
      fun x hx => copyEntry_outside fun hin => hx (within_frame_of_entry hin)
    obtain ⟨memory, hruns, houtside, htables⟩ := ih (s := { s with memory := copyEntry s.memory src dst i })
      (hstable.written hout)
    refine ⟨memory, ?_, fun x hx => (houtside x hx).trans (hout x hx), fun c hc j => ?_⟩
    · exact .bind hload (.bind hstore hruns)
    · obtain ⟨hin, hkept⟩ := htables c hc j
      have hsource : readTable (copyEntry s.memory src dst i) src j = readTable s.memory src j := by
        rw [readTable_copyEntry hdst hsrc, if_neg fun h => hne h.1]
      refine ⟨fun heq hj => ?_, fun hnot => ?_⟩
      · by_cases hl : j ∈ l
        · exact (hin heq hl).trans hsource
        · obtain rfl := (List.mem_cons.mp hj).resolve_right hl
          rw [hkept fun h => hl h.2]
          exact (readTable_copyEntry hdst hc j).trans (if_pos ⟨heq, rfl⟩)
      · rw [hkept fun h => hnot ⟨h.1, List.mem_cons_of_mem _ h.2⟩]
        exact (readTable_copyEntry hdst hc j).trans (if_neg fun hlast : c = dst ∧ j = i =>
          hnot ⟨hlast.1, hlast.2 ▸ List.mem_cons_self⟩)

/-! ### A new root -/

/-- The new root is a frame of its own, with an empty user half and the kernel half of the active root. -/
private structure Fresh (d : DirectMap) (s : KernelMemory) (root : U64) (s' : KernelMemory) : Prop where
  takes : Takes d s root s'
  cr3 : s'.cr3 = s.cr3
  outside : ∀ x, ¬ Within root 4096 x → s'.memory x = s.memory x
  user : ∀ i : Fin 512, i.val < kernelP4Start → readTable s'.memory root i = .unused
  kernel : ∀ i : Fin 512, kernelP4Start ≤ i.val → readTable s'.memory root i = readTable s.memory s.cr3 i

private theorem Fresh.readTable_eq {root c : U64} (hfresh : Fresh d s root s') (hc : IsFrame c) (hne : c ≠ root) :
    readTable s'.memory c = readTable s.memory c :=
  readTable_congr fun x hx => hfresh.outside x (frames_apart hc hfresh.takes.isFrame hne x hx)

/-- The new root maps nothing. -/
private theorem Fresh.mappingIn_eq {root : U64} (hfresh : Fresh d s root s') (page : Page4K) :
    mappingIn (readTable s'.memory) root page = none := by
  by_cases hlow : page.startAddress.toNat < 2 ^ 47
  · rw [mappingIn, if_pos hlow]
    cases ht : tableAt (readTable s'.memory) root (pathFrom page.startAddress 3) with
    | none => rfl
    | some t =>
      have hnil := (UserTrees.tableAt_of_empty hfresh.user ht).1
      rw [pathFrom] at hnil
      cases hnil
  · rw [mappingIn, if_neg hlow]

section Others

variable {root a : U64} (hfresh : Fresh d s root s') (h : Spaces d roots s)
include hfresh h

private theorem Fresh.unused : ¬ InUse (readTable s.memory) roots root :=
  fun hin => h.taken root hin hfresh.takes.wasFree

/-- The tables of the other roots are as they were. -/
private theorem Fresh.tables (ha : InUse (readTable s.memory) roots a) :
    readTable s'.memory a = readTable s.memory a :=
  hfresh.readTable_eq (h.trees.isFrame_of_inUse ha) fun heq => hfresh.unused h (heq ▸ ha)

private theorem Fresh.tableAt_eq {r : U64} (hr : r ∈ roots) (path : List (Fin 512)) :
    tableAt (readTable s'.memory) r path = tableAt (readTable s.memory) r path :=
  UserTrees.tableAt_congr hr (fun _ ha => hfresh.tables h ha) path

private theorem Fresh.inUse_iff : InUse (readTable s'.memory) roots a ↔ InUse (readTable s.memory) roots a :=
  Occupied.congr fun _ hr path => hfresh.tableAt_eq h hr path

/-- The only new table is the root. -/
private theorem Fresh.inUse_cases (ha : InUse (readTable s'.memory) (root :: roots) a) :
    a = root ∨ InUse (readTable s.memory) roots a := by
  obtain ⟨r, hr, path, hpath⟩ := ha
  rcases List.mem_cons.mp hr with rfl | hold
  · exact .inl (UserTrees.tableAt_of_empty hfresh.user hpath).2
  · exact .inr ((hfresh.inUse_iff h).mp ⟨r, hold, path, hpath⟩)

private theorem Fresh.spaces (hspaces : Spaces d roots { s with allocator := s'.allocator }) :
    Spaces d (root :: roots) s' := by
  refine ⟨hspaces.allocator, hspaces.low, ?_, fun a ha => ?_, fun a ha => ?_⟩
  · exact (h.trees.congr fun _ ha => hfresh.tables h ha).cons hfresh.takes.isFrame
      (fun hin => hfresh.unused h ((hfresh.inUse_iff h).mp hin)) hfresh.user
  · rcases hfresh.inUse_cases h ha with rfl | hold
    · exact hfresh.takes.reached
    · exact h.reached a hold
  · rcases hfresh.inUse_cases h ha with rfl | hold
    · exact hfresh.takes.gone
    · exact hspaces.taken a hold

private theorem Fresh.evolves (hfree : s'.allocator.free ⊆ s.allocator.free) : Evolves roots s s' := by
  refine ⟨hfree, fun r hr path a ha => (hfresh.tableAt_eq h hr path).trans ha,
    fun a ha => .inl ((hfresh.inUse_iff h).mp ha), fun x hx => ?_, hfresh.cr3⟩
  exact hfresh.outside x fun hin => hx (.inl ⟨root, hfresh.takes.isFrame, hfresh.takes.wasFree, hin⟩)

end Others

/-- All roots still have the kernel half of the first one. -/
private theorem Fresh.half {root : U64} (hfresh : Fresh d s root s') (h : Working d s₀ roots s) {c : U64}
    (hc : c ∈ s₀.cr3 :: root :: roots) {i : Fin 512} (hi : kernelP4Start ≤ i.val) :
    readTable s'.memory c i = readTable s₀.memory s₀.cr3 i := by
  by_cases heq : c = root
  · rw [heq, hfresh.kernel i hi]
    exact h.half s.cr3 h.active i hi
  · have hold : c ∈ s₀.cr3 :: roots := by
      rcases List.mem_cons.mp hc with hb | hr
      · exact List.mem_cons.mpr (.inl hb)
      · exact List.mem_cons_of_mem _ ((List.mem_cons.mp hr).resolve_left heq)
    have hframe : IsFrame c := by
      rcases List.mem_cons.mp hold with hb | hr
      · exact hb ▸ h.base.isFrame
      · exact h.spaces.trees.frames c hr
    rw [hfresh.readTable_eq hframe heq]
    exact h.half c hold i hi

/-- What the kernel has made since `s₀`, with the new root. -/
private theorem Fresh.working {root : U64} (hfresh : Fresh d s root s') (h : Working d s₀ roots s)
    (hspaces : Spaces d (root :: roots) s') (hfree : s'.allocator.free ⊆ s.allocator.free) :
    Working d s₀ (root :: roots) s' := by
  have htakes := hfresh.takes
  refine ⟨h.base, hspaces, hfree.trans h.free, fun x hx => ?_, fun a ha => ?_,
    fun c hc i hi => hfresh.half h hc hi, ?_⟩
  · rw [← h.bytes x hx]
    exact hfresh.outside x fun hin => hx ⟨root, htakes.isFrame, h.free htakes.wasFree, hin⟩
  · rcases hfresh.inUse_cases h.spaces ha with rfl | hold
    · exact h.free htakes.wasFree
    · exact h.built a hold
  · rw [hfresh.cr3]
    rcases List.mem_cons.mp h.active with hb | hr
    · exact List.mem_cons.mpr (.inl hb)
    · exact List.mem_cons_of_mem _ (List.mem_cons_of_mem _ hr)

/-! ### The call -/

private theorem checkedAdd_offset {p : U64} (hp : p.toNat < d.limit) :
    checkedAdd p d.offset = some (d.offset + p) := by
  have hfits := d.fits
  rw [checkedAdd_of_lt (by omega), BitVec.add_comm]

private theorem allocateFrame_runs {result : Option U64} (h : s.allocateFrame = (result, s')) :
    Runs (modifyGet KernelMemory.allocateFrame : Exec KernelMemory AddressSpaceRootError (Option U64)) s
      result s' := by
  show Panics.returned (Except.ok s.allocateFrame.1, s.allocateFrame.2) = _
  rw [h]

private theorem fromStartAddress_runs {frame : U64} (h : IsFrame frame) (error : AddressSpaceRootError) :
    Runs (PhysFrame.fromStartAddress frame error) s frame s := by
  rcases PhysFrame.fromStartAddress_cases frame error s with ⟨hhigh, -⟩ | ⟨-, hunaligned, -⟩ | ⟨-, -, hok⟩
  · exact absurd h.2 (Nat.not_lt.mpr hhigh)
  · exact absurd (aligned_iff.mpr h.1) hunaligned
  · exact hok

/-- The frame is cleared through the direct map, and is a table without entries then. -/
private theorem clear_runs {root : U64} (hroot : IsFrame root) (hreached : root.toNat < d.limit)
    (hstable : d.StableOn s (Within root 4096)) :
    ∃ memory, Runs (kernelStore (d.offset + root) (List.replicate 4096 0) : Exec KernelMemory AddressSpaceRootError _)
        s () { s with memory } ∧
      (∀ x, ¬ Within root 4096 x → memory x = s.memory x) ∧
      ∀ c, IsFrame c → ∀ j, readTable memory c j = if c = root then .unused else readTable s.memory c j := by
  have hfit : 0 + (List.replicate 4096 (0 : U8)).length ≤ 4096 := by rw [List.length_replicate]
  have hclear := DirectMap.frame_store_runs (ε := AddressSpaceRootError) hroot hreached hstable hfit
  have hcleared : ∀ x, Within root 4096 x →
      copyBytes s.memory (root + BitVec.ofNat 64 0) (List.replicate 4096 0) x = 0 := by
    intro x hx
    have hnear : (x - root).toNat < 4096 := hx
    rw [copyBytes_apply hfit, if_pos (Nat.zero_le _), Nat.sub_zero, List.getElem?_replicate, if_pos hnear,
      Option.getD_some]
  have hkept : ∀ x, ¬ Within root 4096 x →
      copyBytes s.memory (root + BitVec.ofNat 64 0) (List.replicate 4096 0) x = s.memory x :=
    fun x hx => copyBytes_outside hfit hx
  rw [BitVec.add_zero] at hclear
  exact ⟨_, hclear, hkept, fun c hc j => readTable_of_clear hroot hc hkept hcleared⟩

private theorem newUserRoot_cases (hbase : Grounded d s) (h : Spaces d roots s) :
    ∃ alloc, Spaces d roots { s with allocator := alloc } ∧ Evolves roots s { s with allocator := alloc } ∧
      ((Fails (newUserRoot d.offset) s .allocationFailed { s with allocator := alloc } ∧ s.left = 0 ∧
          alloc.pending.length = 0) ∨
        ∃ root memory, Runs (newUserRoot d.offset) s root { s with memory, allocator := alloc } ∧
          Fresh d s root { s with memory, allocator := alloc }) := by
  obtain ⟨alloc, hspaces, hevolves, hcases⟩ := h.allocateFrame_cases
  refine ⟨alloc, hspaces, hevolves, ?_⟩
  rcases hcases with ⟨hnone, hleft, hleft'⟩ | ⟨root, hsome, htakes⟩
  · exact .inl ⟨.after (allocateFrame_runs hnone) (.first (.okOr rfl)), hleft, hleft'⟩
  · have hwindow : d.StableOn { s with allocator := alloc } (Within root 4096) :=
      hbase.stable.mono fun x hx => ⟨root, htakes.isFrame, htakes.wasFree, hx⟩
    have hne : s.cr3 ≠ root := fun heq => hbase.taken (heq ▸ htakes.wasFree)
    obtain ⟨cleared, hclear, hkept, hzero⟩ := clear_runs htakes.isFrame htakes.reached hwindow
    obtain ⟨memory, hcopy, houtside, htables⟩ :=
      copyEntries_runs (s := { s with allocator := alloc, memory := cleared }) hbase.isFrame hbase.reached
        htakes.isFrame htakes.reached hne kernelIndexes (hwindow.written hkept)
    refine .inr ⟨root, memory, ?_, ⟨htakes.isFrame, htakes.reached, htakes.wasFree, htakes.gone, htakes.cost⟩, rfl,
      fun x hx => (houtside x hx).trans (hkept x hx), fun i hi => ?_, fun i hi => ?_⟩
    · refine .bind (allocateFrame_runs hsome) (.bind (.okOr rfl) (.bind (fromStartAddress_runs htakes.isFrame _) ?_))
      refine .bind (.okOr (checkedAdd_offset htakes.reached)) (.bind .get ?_)
      exact .bind (.okOr (checkedAdd_offset hbase.reached)) (.bind hclear (.bind hcopy .pure))
    · rw [(htables root htakes.isFrame i).2 fun hin => Nat.not_le.mpr hi (mem_kernelIndexes.mp hin.2)]
      exact (hzero root htakes.isFrame i).trans (if_pos rfl)
    · rw [(htables root htakes.isFrame i).1 rfl (mem_kernelIndexes.mpr hi)]
      exact (hzero s.cr3 hbase.isFrame i).trans (if_neg hne)

/-- `new_user_root` fails for want of a frame and takes nothing, or makes an address space of its own: it maps
nothing, has the kernel half of the active root, and the other address spaces are as before. -/
theorem Working.newUserRoot (h : Working d s₀ roots s) :
    (∃ s', Fails (X11Os.newUserRoot d.offset) s .allocationFailed s' ∧ Working d s₀ roots s' ∧ Evolves roots s s' ∧
      SameMappings roots s s' ∧ s.left = 0 ∧ s'.left = 0) ∨
    ∃ root s', Runs (X11Os.newUserRoot d.offset) s root s' ∧ Takes d s root s' ∧ Working d s₀ (root :: roots) s' ∧
      Evolves roots s s' ∧ SameMappings roots s s' ∧
      (∀ a, InUse (readTable s'.memory) (root :: roots) a → a = root ∨ InUse (readTable s.memory) roots a) ∧
      ∀ page, mappingIn (readTable s'.memory) root page = none := by
  obtain ⟨alloc, hspaces, hevolves, hcases⟩ := newUserRoot_cases h.grounded h.spaces
  rcases hcases with ⟨hfails, hleft, hleft'⟩ | ⟨root, memory, hruns, hfresh⟩
  · exact .inl ⟨_, hfails, h.evolve hspaces hevolves, hevolves, fun _ _ => rfl, hleft, hleft'⟩
  · exact .inr ⟨root, _, hruns, hfresh.takes, hfresh.working h (hfresh.spaces h.spaces hspaces) hevolves.free,
      hfresh.evolves h.spaces hevolves.free,
      fun r hr => UserTrees.mappingIn_congr hr fun _ ha => hfresh.tables h.spaces ha,
      fun _ ha => hfresh.inUse_cases h.spaces ha, hfresh.mappingIn_eq⟩

end X11Os
