import X11Os.Arch.KernelAccess
import X11Os.Arch.UserTrees
import X11Os.Memory.FrameOrder

/-!
# User address spaces in memory

`Spaces` says that the tables of all roots form user trees, in frames that the direct map reaches and that have been
taken from the allocator.  `Evolves` says what no operation on the tables does: it moves no table, touches no kernel
half, and writes only to tables and to frames that were free.

An operation on the tables of one root leaves the pages of the other roots as they are (`Spaces.lift`): their tables
are neither free nor tables of that root.  It also leaves the direct map in place, through which it is performed
(`Working.stableOn`).
-/

namespace X11Os

open Word Amd64 TableTree EarlyFrameAllocator

/-- The permissions that the flags of an entry stand for. -/
def PageTableFlags.mappingFlags (f : PageTableFlags) : MappingFlags :=
  if f.writable then .readWrite else if f.noExecute then .readOnly else .readExecute

/-- The roots are roots of user address spaces, in memory that the direct map reaches and the allocator does not hand
out. -/
structure Spaces (d : DirectMap) (roots : List U64) (s : KernelMemory) : Prop where
  allocator : s.allocator.Valid
  low : ∀ p ∈ s.allocator.free, p < d.limit
  trees : UserTrees (readTable s.memory) roots
  reached : ∀ a, InUse (readTable s.memory) roots a → a.toNat < d.limit
  taken : ∀ a, InUse (readTable s.memory) roots a → a.toNat ∉ s.allocator.free

/-- The bytes of free frames. -/
def FreeByte (s : KernelMemory) (x : U64) : Prop := ∃ a, IsFrame a ∧ a.toNat ∈ s.allocator.free ∧ Within a 4096 x

/-- Where operations on the tables may write: to free frames and to tables, and of the roots only to the user half. -/
def Workspace (roots : List U64) (s : KernelMemory) (x : U64) : Prop :=
  FreeByte s x ∨ ∃ a, InUse (readTable s.memory) roots a ∧ Within a 4096 x ∧ (a ∈ roots → Within a 2048 x)

/-- What every operation on the tables keeps. -/
structure Evolves (roots : List U64) (s s' : KernelMemory) : Prop where
  free : s'.allocator.free ⊆ s.allocator.free
  stay : ∀ r ∈ roots, ∀ p a, tableAt (readTable s.memory) r p = some a → tableAt (readTable s'.memory) r p = some a
  tables : ∀ a, InUse (readTable s'.memory) roots a →
    InUse (readTable s.memory) roots a ∨ a.toNat ∈ s.allocator.free
  bytes : ∀ x, ¬ Workspace roots s x → s'.memory x = s.memory x
  cr3 : s'.cr3 = s.cr3

/-- Every root maps the same pages. -/
def SameMappings (roots : List U64) (s s' : KernelMemory) : Prop :=
  ∀ r ∈ roots, mappingIn (readTable s'.memory) r = mappingIn (readTable s.memory) r

/-- A frame that is neither free nor a table of an address space. -/
structure PrivateFrame (roots : List U64) (s : KernelMemory) (frame : U64) : Prop where
  isFrame : IsFrame frame
  taken : frame.toNat ∉ s.allocator.free
  noTable : ¬ InUse (readTable s.memory) roots frame

variable {d : DirectMap} {roots : List U64} {s₀ s s₁ s' : KernelMemory} {r a f x : U64}

theorem SameMappings.trans (h : SameMappings roots s s₁) (h' : SameMappings roots s₁ s') : SameMappings roots s s' :=
  fun r hr => (h' r hr).trans (h r hr)

private theorem not_inUse_nil {T : U64 → PageTable} : ¬ InUse T [] a := by
  intro huse
  obtain ⟨r, hr, -⟩ := huse
  exact List.not_mem_nil hr

/-! ### Frames -/

/-- A byte of a frame that is not free. -/
theorem not_freeByte (hf : IsFrame f) (htaken : f.toNat ∉ s.allocator.free) (hx : Within f 4096 x) :
    ¬ FreeByte s x := by
  rintro ⟨a, ha, hfree, hin⟩
  exact frames_apart hf ha (fun heq => htaken (heq ▸ hfree)) x hx hin

private theorem FreeByte.mono (hfree : s'.allocator.free ⊆ s.allocator.free) (hx : FreeByte s' x) : FreeByte s x := by
  obtain ⟨a, ha, hin, hx⟩ := hx
  exact ⟨a, ha, hfree hin, hx⟩

namespace PrivateFrame

private theorem not_workspace (h : PrivateFrame roots s f) (htrees : UserTrees (readTable s.memory) roots)
    (hx : Within f 4096 x) : ¬ Workspace roots s x := by
  rintro (hfree | ⟨a, huse, hin, -⟩)
  · exact not_freeByte h.isFrame h.taken hx hfree
  · exact frames_apart h.isFrame (htrees.isFrame_of_inUse huse) (fun heq => h.noTable (heq ▸ huse)) x hx hin

/-- An operation on the tables leaves a private frame private, with its contents. -/
theorem evolve (h : PrivateFrame roots s f) (htrees : UserTrees (readTable s.memory) roots)
    (hevolves : Evolves roots s s') :
    PrivateFrame roots s' f ∧ ∀ x, Within f 4096 x → s'.memory x = s.memory x := by
  refine ⟨⟨h.isFrame, fun hfree => h.taken (hevolves.free hfree), fun huse => ?_⟩, fun x hx => ?_⟩
  · exact (hevolves.tables f huse).elim h.noTable h.taken
  · exact hevolves.bytes x (h.not_workspace htrees hx)

end PrivateFrame

namespace Evolves

theorem refl (s : KernelMemory) : Evolves roots s s :=
  ⟨subset_rfl, fun _ _ _ _ h => h, fun _ h => .inl h, fun _ _ => rfl, rfl⟩

theorem trans (h : Evolves roots s s₁) (h' : Evolves roots s₁ s') (htrees : UserTrees (readTable s₁.memory) roots) :
    Evolves roots s s' := by
  refine ⟨h'.free.trans h.free, ?_, ?_, ?_, h'.cr3.trans h.cr3⟩
  · intro r hr p a ha
    exact h'.stay r hr p a (h.stay r hr p a ha)
  · intro a ha
    rcases h'.tables a ha with ha | ha
    · exact h.tables a ha
    · exact .inr (h.free ha)
  · intro x hx
    rw [h'.bytes x fun hx' => hx ?_, h.bytes x hx]
    rcases hx' with hfree | ⟨a, huse, hin, hhalf⟩
    · exact .inl (hfree.mono h.free)
    · rcases h.tables a huse with hold | hfree
      · exact .inr ⟨a, hold, hin, hhalf⟩
      · exact .inl ⟨a, htrees.isFrame_of_inUse huse, hfree, hin⟩

end Evolves

/-! ### What operations cost -/

/-- The number of frames that are left. -/
def KernelMemory.left (s : KernelMemory) : Nat := s.allocator.pending.length

/-- A call to the allocator. -/
def KernelMemory.allocateFrame (s : KernelMemory) : Option U64 × KernelMemory :=
  (s.allocator.allocateFrame.2.map Frame.startAddress, { s with allocator := s.allocator.allocateFrame.1 })

/-- The frames after an operation that may take up to `cost` of them. -/
structure Spends (cost : Nat) (s s' : KernelMemory) : Prop where
  less : s'.left ≤ s.left
  bounded : s.left ≤ s'.left + cost

/-- The last page of a span that begins in free memory of less than `2 ^ 52` bytes ends in it. -/
private theorem stop_le_of_low {next stop : Nat} (haligned : next % 4096 = 0) (hlt : next < stop)
    (hlow : ∀ p, p % 4096 = 0 → next ≤ p → p < stop → p < 2 ^ 52) : stop + 4096 ≤ 2 ^ 64 := by
  have hlast := hlow (next + (stop - 1 - next) / 4096 * 4096) (by omega) (by omega) (by omega)
  omega

private theorem ready_of_low {a : EarlyFrameAllocator} (ha : a.Valid) (hlow : ∀ p ∈ a.free, p < 2 ^ 52) :
    a.Ready := by
  have hspan : ∀ span ∈ a.spans, span.next.toNat % 4096 = 0 ∧
      ∀ p, p % 4096 = 0 → span.next.toNat ≤ p → p < span.stop.toNat → p ∈ a.free := by
    intro span hspan
    rcases List.mem_append.mp hspan with hcursor | hregion
    · obtain ⟨hnext, hstop⟩ := FrameSpan.new_eq_some (Option.mem_toList.mp hcursor)
      rw [hnext, hstop]
      exact ⟨ha.aligned, fun p hmod hle hlt => ⟨hmod, .inl ⟨hle, hlt⟩⟩⟩
    · obtain ⟨region, hmem, hsome⟩ := List.mem_filterMap.mp hregion
      obtain ⟨start, hstart, hnew⟩ := Option.bind_eq_some_iff.mp hsome
      obtain ⟨hnext, hstop⟩ := FrameSpan.new_eq_some hnew
      obtain ⟨hkind, haligned, hcontains⟩ := MemoryRegion.usableStart_eq_some hstart
      rw [hnext, hstop]
      refine ⟨haligned, fun p hmod hle hlt => ⟨hmod, .inr ⟨region, hmem, hkind, ?_, hlt⟩⟩⟩
      exact Nat.le_trans hcontains.1 hle
  refine ⟨fun span hmem => (hspan span hmem).1, fun span hmem => ?_⟩
  obtain ⟨haligned, hfree⟩ := hspan span hmem
  exact stop_le_of_low haligned (BitVec.lt_def.mp span.nonempty) fun p hmod hle hlt => hlow p (hfree p hmod hle hlt)

/-- One of the free frames is taken. -/
structure Takes (d : DirectMap) (s : KernelMemory) (frame : U64) (s' : KernelMemory) : Prop where
  isFrame : IsFrame frame
  reached : frame.toNat < d.limit
  wasFree : frame.toNat ∈ s.allocator.free
  gone : frame.toNat ∉ s'.allocator.free
  cost : s.left = s'.left + 1

namespace Spaces

private theorem ready (h : Spaces d roots s) : s.allocator.Ready :=
  ready_of_low h.allocator fun p hp => Nat.lt_trans (h.low p hp) (Nat.lt_trans d.limit_lt (by decide))

/-- Before the first address space. -/
private theorem of_nil (hvalid : s.allocator.Valid) (hlow : ∀ p ∈ s.allocator.free, p < d.limit) : Spaces d [] s := by
  refine ⟨hvalid, hlow, ⟨?_, ?_, ?_, ?_, ?_⟩, fun a ha => absurd ha not_inUse_nil,
    fun a ha => absurd ha not_inUse_nil⟩
  all_goals exact fun r hr => absurd hr List.not_mem_nil

/-- Some of the roots. -/
private theorem mono (h : Spaces d roots s) {roots' : List U64} (hsub : ∀ r ∈ roots', r ∈ roots) :
    Spaces d roots' s where
  allocator := h.allocator
  low := h.low
  trees := h.trees.mono hsub
  reached := fun a ⟨r, hr, hp⟩ => h.reached a ⟨r, hsub r hr, hp⟩
  taken := fun a ⟨r, hr, hp⟩ => h.taken a ⟨r, hsub r hr, hp⟩

theorem single (h : Spaces d roots s) (hr : r ∈ roots) : Spaces d [r] s :=
  h.mono fun _ hr' => List.mem_singleton.mp hr' ▸ hr

/-- Frames that are taken, or given up, are no longer free. -/
private theorem allocate (h : Spaces d roots s) {alloc : EarlyFrameAllocator} (hvalid : alloc.Valid)
    (hfree : alloc.free ⊆ s.allocator.free) :
    Spaces d roots { s with allocator := alloc } ∧ Evolves roots s { s with allocator := alloc } :=
  ⟨⟨hvalid, fun p hp => h.low p (hfree hp), h.trees, h.reached, fun t ht hin => h.taken t ht (hfree hin)⟩,
    ⟨hfree, fun _ _ _ _ ht => ht, fun _ ht => .inl ht, fun _ _ => rfl, rfl⟩⟩

/-- A change of the memory that leaves the tables as they are. -/
theorem of_tables (h : Spaces d roots s) {memory : Memory}
    (htables : ∀ a, InUse (readTable s.memory) roots a → readTable memory a = readTable s.memory a) :
    Spaces d roots { s with memory } ∧ SameMappings roots s { s with memory } ∧
      ∀ a, InUse (readTable memory) roots a ↔ InUse (readTable s.memory) roots a := by
  have huse : ∀ a, InUse (readTable memory) roots a ↔ InUse (readTable s.memory) roots a :=
    fun a => Occupied.congr fun r hr q => UserTrees.tableAt_congr hr htables q
  exact ⟨⟨h.allocator, h.low, h.trees.congr htables, fun a ha => h.reached a ((huse a).mp ha),
    fun a ha => h.taken a ((huse a).mp ha)⟩, fun r hr => UserTrees.mappingIn_congr hr htables, huse⟩

/-- A request for a frame is refused when none is left, and otherwise answered with one that was free and
is no longer. -/
theorem allocateFrame_cases (h : Spaces d roots s) :
    ∃ alloc, Spaces d roots { s with allocator := alloc } ∧ Evolves roots s { s with allocator := alloc } ∧
      ((s.allocateFrame = (none, { s with allocator := alloc }) ∧ s.left = 0 ∧ alloc.pending.length = 0) ∨
        ∃ frame, s.allocateFrame = (some frame, { s with allocator := alloc }) ∧
          Takes d s frame { s with allocator := alloc }) := by
  have hvalid' := perform_draws.valid s.allocator .allocateFrame h.allocator
  have hdraw := perform_draws.draw s.allocator .allocateFrame h.allocator
  have hpending := allocateFrame_pending h.ready
  obtain ⟨hspaces, hevolves⟩ := h.allocate hvalid' fun p hp => (hdraw.remains p hp).1
  refine ⟨_, hspaces, hevolves, ?_⟩
  rcases hpending with ⟨hempty, hresult, hafter⟩ | ⟨frame, hresult, hpending⟩
  · refine .inl ⟨by rw [KernelMemory.allocateFrame, hresult]; rfl, by rw [KernelMemory.left, hempty]; rfl, ?_⟩
    exact congrArg List.length hafter
  · have hmem : frame.startAddress.toNat ∈ grantedFrames ((s.allocator.allocateFrame.2).map Grant.frame) := by
      rw [hresult]
      exact mem_runFrames.mpr ⟨0, by decide, by simp⟩
    have hfree := hdraw.wasFree _ hmem
    have hlow := h.low _ hfree
    refine .inr ⟨frame.startAddress, by rw [KernelMemory.allocateFrame, hresult]; rfl, ⟨hfree.1, ?_⟩, hlow, hfree,
      fun hstill => (hdraw.remains _ hstill).2 hmem, ?_⟩
    · exact Nat.lt_trans hlow (Nat.lt_trans d.limit_lt (by decide))
    · rw [KernelMemory.left, hpending, List.length_cons]
      rfl

/-! ### One root among others -/

/-- The tables of the other roots are as they were, and the tables of `r` are none of them. -/
private theorem join (h : Spaces d roots s) (h' : Spaces d [r] s') (hfree : s'.allocator.free ⊆ s.allocator.free)
    (hkept : ∀ r' ∈ roots, r' ≠ r → ∀ a, InUse (readTable s.memory) [r'] a →
      readTable s'.memory a = readTable s.memory a ∧ ¬ InUse (readTable s'.memory) [r] a)
    {roots' : List U64} (hroots : ∀ r' ∈ roots', r' = r ∨ r' ∈ roots) :
    Spaces d roots' s' ∧ ∀ r' ∈ roots, r' ≠ r →
      (∀ q, tableAt (readTable s'.memory) r' q = tableAt (readTable s.memory) r' q) ∧
      mappingIn (readTable s'.memory) r' = mappingIn (readTable s.memory) r' := by
  have hself : ∀ c : U64, c ∈ [c] := List.mem_singleton_self
  have hnode : ∀ r' ∈ roots, r' ≠ r → ∀ q,
      tableAt (readTable s'.memory) r' q = tableAt (readTable s.memory) r' q :=
    fun r' hr' hne q => UserTrees.tableAt_congr (hself r') (fun a ha => (hkept r' hr' hne a ha).1) q
  have hold : ∀ r' ∈ roots, r' ≠ r → ∀ a,
      (InUse (readTable s'.memory) [r'] a ↔ InUse (readTable s.memory) [r'] a) := by
    intro r' hr' hne a
    refine Occupied.congr fun c hc q => ?_
    rw [List.mem_singleton.mp hc]
    exact hnode r' hr' hne q
  have htrees : UserTrees (readTable s'.memory) roots' := by
    refine .of_each (fun r' hr' => ?_) fun r₁ hr₁ r₂ hr₂ hne a ha ha' => ?_
    · by_cases heq : r' = r
      · exact heq ▸ h'.trees
      · have hin := (hroots r' hr').resolve_left heq
        exact (h.trees.single hin).congr fun a ha => (hkept r' hin heq a ha).1
    · by_cases heq₁ : r₁ = r
      · have hne₂ : r₂ ≠ r := fun heq => hne (heq₁.trans heq.symm)
        have hin₂ := (hroots r₂ hr₂).resolve_left hne₂
        exact (hkept r₂ hin₂ hne₂ a ((hold r₂ hin₂ hne₂ a).mp ha')).2 (heq₁ ▸ ha)
      · have hin₁ := (hroots r₁ hr₁).resolve_left heq₁
        have ha₁ := (hold r₁ hin₁ heq₁ a).mp ha
        by_cases heq₂ : r₂ = r
        · exact (hkept r₁ hin₁ heq₁ a ha₁).2 (heq₂ ▸ ha')
        · have hin₂ := (hroots r₂ hr₂).resolve_left heq₂
          exact h.trees.apart hin₁ hin₂ hne ha₁ ((hold r₂ hin₂ heq₂ a).mp ha')
  have hcases : ∀ a, InUse (readTable s'.memory) roots' a →
      InUse (readTable s'.memory) [r] a ∨ InUse (readTable s.memory) roots a := by
    intro a ha
    obtain ⟨r', hr', ha⟩ := UserTrees.inUse_iff.mp ha
    by_cases heq : r' = r
    · exact .inl (heq ▸ ha)
    · have hin := (hroots r' hr').resolve_left heq
      exact .inr (UserTrees.inUse_iff.mpr ⟨r', hin, (hold r' hin heq a).mp ha⟩)
  refine ⟨⟨h'.allocator, h'.low, htrees, fun a ha => ?_, fun a ha => ?_⟩, fun r' hr' hne => ⟨hnode r' hr' hne, ?_⟩⟩
  · exact (hcases a ha).elim (h'.reached a) (h.reached a)
  · exact (hcases a ha).elim (h'.taken a) fun ha hin => h.taken a ha (hfree hin)
  · exact UserTrees.mappingIn_congr (hself r') fun a ha => (hkept r' hr' hne a ha).1

/-- An operation on the tables of one root is one on all address spaces, and leaves the pages of the others alone. -/
theorem lift (h : Spaces d roots s) (hr : r ∈ roots) (h' : Spaces d [r] s') (hevolves : Evolves [r] s s') :
    Spaces d roots s' ∧ Evolves roots s s' ∧
      ∀ r' ∈ roots, r' ≠ r → mappingIn (readTable s'.memory) r' = mappingIn (readTable s.memory) r' := by
  have hkept : ∀ r' ∈ roots, r' ≠ r → ∀ a, InUse (readTable s.memory) [r'] a →
      readTable s'.memory a = readTable s.memory a ∧ ¬ InUse (readTable s'.memory) [r] a := by
    intro r' hr' hne a ha
    have huse : InUse (readTable s.memory) roots a := UserTrees.inUse_iff.mpr ⟨r', hr', ha⟩
    have hprivate : PrivateFrame [r] s a :=
      ⟨h.trees.isFrame_of_inUse huse, h.taken a huse, h.trees.apart hr' hr hne ha⟩
    obtain ⟨hstill, hbytes⟩ := hprivate.evolve (h.trees.single hr) hevolves
    exact ⟨readTable_congr hbytes, hstill.noTable⟩
  obtain ⟨hspaces, hothers⟩ := h.join h' hevolves.free hkept fun r' hr' => .inr hr'
  refine ⟨hspaces, ⟨hevolves.free, ?_, ?_, ?_, hevolves.cr3⟩, fun r' hr' hne => (hothers r' hr' hne).2⟩
  · intro r' hr' p a ha
    by_cases heq : r' = r
    · subst heq
      exact hevolves.stay r' (List.mem_singleton_self r') p a ha
    · exact ((hothers r' hr' heq).1 p).trans ha
  · intro a ha
    obtain ⟨r', hr', p, hp⟩ := ha
    by_cases heq : r' = r
    · subst heq
      rcases hevolves.tables a ⟨r', List.mem_singleton_self r', p, hp⟩ with hold | hfree
      · exact .inl (UserTrees.inUse_iff.mpr ⟨r', hr', hold⟩)
      · exact .inr hfree
    · exact .inl ⟨r', hr', p, ((hothers r' hr' heq).1 p).symm.trans hp⟩
  · intro x hx
    refine hevolves.bytes x fun hx' => hx ?_
    rcases hx' with hfree | ⟨a, huse, hin, hhalf⟩
    · exact .inl hfree
    · refine .inr ⟨a, UserTrees.inUse_iff.mpr ⟨r, hr, huse⟩, hin, fun ha => ?_⟩
      by_cases heq : a = r
      · exact hhalf (heq ▸ List.mem_singleton_self r)
      · exact absurd huse (h.trees.apart ha hr heq (occupied_root (List.mem_singleton_self a)))

/-! ### Kernel halves -/

/-- The kernel half of a root, or of a table that belongs to no address space, is no place to work in. -/
private theorem kernel_outside (h : Spaces d roots s) {c : U64} (hc : c ∈ roots ∨ PrivateFrame roots s c)
    {i : Fin 512} (hi : kernelP4Start ≤ i.val) (hx : Within (entryAddress c i) 8 x) : ¬ Workspace roots s x := by
  have hframe := within_frame_of_entry hx
  rcases hc with hroot | hprivate
  · have hisFrame := h.trees.frames c hroot
    have huse : InUse (readTable s.memory) roots c := occupied_root hroot
    rintro (hfree | ⟨a, ha, hin, hhalf⟩)
    · exact not_freeByte hisFrame (h.taken c huse) hframe hfree
    · by_cases heq : a = c
      · subst heq
        have hlow : (x - a).toNat < 2048 := hhalf hroot
        have hhigh : (x - (a + BitVec.ofNat 64 (8 * i.val))).toNat < 8 := hx
        have hx64 := x.isLt
        have ha64 := a.isLt
        have hi512 := i.isLt
        unfold kernelP4Start at hi
        rw [BitVec.toNat_sub] at hlow hhigh
        rw [BitVec.toNat_add, BitVec.toNat_ofNat] at hhigh
        omega
      · exact frames_apart hisFrame (h.trees.isFrame_of_inUse ha) (Ne.symm heq) x hframe hin
  · exact hprivate.not_workspace h.trees hframe

end Spaces

private theorem Evolves.kernel (hevolves : Evolves roots s s') (h : Spaces d roots s) {c : U64}
    (hc : c ∈ roots ∨ PrivateFrame roots s c) {i : Fin 512} (hi : kernelP4Start ≤ i.val) :
    readTable s'.memory c i = readTable s.memory c i :=
  congrArg PageTableEntry.mk (read64_congr fun x hx => hevolves.bytes x (h.kernel_outside hc hi hx))

/-! ### The direct map while the kernel works -/

/-- The direct map is there, whatever free frames hold, and the active root is not in one of them. -/
structure Grounded (d : DirectMap) (s : KernelMemory) : Prop where
  stable : d.StableOn s (FreeByte s)
  isFrame : IsFrame s.cr3
  reached : s.cr3.toNat < d.limit
  taken : s.cr3.toNat ∉ s.allocator.free

/-- Since `s₀` the kernel has written to frames only that were free then.  They hold the tables of the roots that it
has made, with the kernel half of the root that was active. -/
structure Working (d : DirectMap) (s₀ : KernelMemory) (roots : List U64) (s : KernelMemory) : Prop where
  base : Grounded d s₀
  spaces : Spaces d roots s
  free : s.allocator.free ⊆ s₀.allocator.free
  bytes : ∀ x, ¬ FreeByte s₀ x → s.memory x = s₀.memory x
  built : ∀ a, InUse (readTable s.memory) roots a → a.toNat ∈ s₀.allocator.free
  half : ∀ c ∈ s₀.cr3 :: roots, ∀ i : Fin 512, kernelP4Start ≤ i.val →
    readTable s.memory c i = readTable s₀.memory s₀.cr3 i
  active : s.cr3 ∈ s₀.cr3 :: roots

namespace Working

theorem start (hbase : Grounded d s) (hvalid : s.allocator.Valid) (hlow : ∀ p ∈ s.allocator.free, p < d.limit) :
    Working d s [] s := by
  refine ⟨hbase, .of_nil hvalid hlow, subset_rfl, fun _ _ => rfl, fun a ha => absurd ha not_inUse_nil, ?_,
    List.mem_singleton_self _⟩
  intro c hc i _
  rw [List.mem_singleton.mp hc]

private theorem basePrivate (h : Working d s₀ roots s) : PrivateFrame roots s s₀.cr3 :=
  ⟨h.base.isFrame, fun hin => h.base.taken (h.free hin), fun huse => h.base.taken (h.built _ huse)⟩

private theorem activeKept (h : Working d s₀ roots s) : s.cr3 ∈ roots ∨ PrivateFrame roots s s.cr3 := by
  rcases List.mem_cons.mp h.active with heq | hroot
  · exact .inr (heq ▸ h.basePrivate)
  · exact .inl hroot

/-- What is written to a part of the frames that were free leaves the direct map in place, if the kernel half of the
active root is not among it. -/
theorem stableOn (h : Working d s₀ roots s) {part : U64 → Prop} (hpart : ∀ x, part x → FreeByte s₀ x)
    (hkept : ∀ (i : Fin 512) x, kernelP4Start ≤ i.val → Within (entryAddress s.cr3 i) 8 x → ¬ part x) :
    d.StableOn s part := by
  intro m' hm'
  have hbytes : ∀ x, ¬ FreeByte s₀ x → m' x = s₀.memory x := by
    intro x hx
    rw [hm' x fun hp => hx (hpart x hp), h.bytes x hx]
  refine (h.base.stable m' hbytes).of_half fun i hi => ?_
  have hactive : readTable m' s.cr3 i = readTable s.memory s.cr3 i :=
    congrArg PageTableEntry.mk (read64_congr fun x hx => hm' x (hkept i x hi hx))
  have hbase : readTable m' s₀.cr3 = readTable s₀.memory s₀.cr3 :=
    readTable_congr fun x hx => hbytes x (not_freeByte h.base.isFrame h.base.taken hx)
  rw [hactive, hbase, h.half s.cr3 h.active i hi]

private theorem isFrame_active (h : Working d s₀ roots s) : IsFrame s.cr3 ∧ s.cr3.toNat < d.limit ∧
    s.cr3.toNat ∉ s.allocator.free := by
  rcases List.mem_cons.mp h.active with heq | hroot
  · rw [heq]
    exact ⟨h.base.isFrame, h.base.reached, h.basePrivate.taken⟩
  · have huse : InUse (readTable s.memory) roots s.cr3 := occupied_root hroot
    exact ⟨h.spaces.trees.frames _ hroot, h.spaces.reached _ huse, h.spaces.taken _ huse⟩

theorem grounded (h : Working d s₀ roots s) : Grounded d s := by
  obtain ⟨hframe, hreached, htaken⟩ := h.isFrame_active
  refine ⟨h.stableOn (fun x hx => hx.mono h.free) fun i x _ hx => ?_, hframe, hreached, htaken⟩
  exact not_freeByte hframe htaken (within_frame_of_entry hx)

/-- The tables of a root can be worked on through the direct map. -/
theorem workspace (h : Working d s₀ roots s) (hr : r ∈ roots) : d.StableOn s (Workspace [r] s) := by
  have hactive : s.cr3 ∈ [r] ∨ PrivateFrame [r] s s.cr3 := by
    by_cases heq : s.cr3 = r
    · exact .inl (heq ▸ List.mem_singleton_self _)
    · obtain ⟨hframe, -, htaken⟩ := h.isFrame_active
      refine .inr ⟨hframe, htaken, fun huse => ?_⟩
      rcases h.activeKept with hroot | hprivate
      · exact h.spaces.trees.apart hroot hr heq (occupied_root (List.mem_singleton_self _)) huse
      · exact hprivate.noTable (UserTrees.inUse_iff.mpr ⟨r, hr, huse⟩)
  refine h.stableOn ?_ fun i x hi hx => (h.spaces.single hr).kernel_outside hactive hi hx
  rintro x (hfree | ⟨a, huse, hin, -⟩)
  · exact hfree.mono h.free
  · have huse' : InUse (readTable s.memory) roots a := UserTrees.inUse_iff.mpr ⟨r, hr, huse⟩
    exact ⟨a, h.spaces.trees.isFrame_of_inUse huse', h.built a huse', hin⟩

/-- An operation on the tables. -/
theorem evolve (h : Working d s₀ roots s) (hspaces : Spaces d roots s') (hevolves : Evolves roots s s') :
    Working d s₀ roots s' := by
  refine ⟨h.base, hspaces, hevolves.free.trans h.free, fun x hx => ?_, fun a ha => ?_, fun c hc i hi => ?_, ?_⟩
  · rw [hevolves.bytes x fun hx' => hx ?_, h.bytes x hx]
    rcases hx' with hfree | ⟨a, huse, hin, -⟩
    · exact hfree.mono h.free
    · exact ⟨a, h.spaces.trees.isFrame_of_inUse huse, h.built a huse, hin⟩
  · exact (hevolves.tables a ha).elim (h.built a) fun hfree => h.free hfree
  · rw [← h.half c hc i hi]
    rcases List.mem_cons.mp hc with heq | hroot
    · exact hevolves.kernel h.spaces (.inr (heq ▸ h.basePrivate)) hi
    · exact hevolves.kernel h.spaces (.inl hroot) hi
  · rw [hevolves.cr3]
    exact h.active

/-- A write to a frame that has been taken, and is no table. -/
theorem write (h : Working d s₀ roots s) (hprivate : PrivateFrame roots s f) (hwas : f.toNat ∈ s₀.allocator.free)
    {memory : Memory} (houtside : ∀ x, ¬ Within f 4096 x → memory x = s.memory x) :
    Working d s₀ roots { s with memory } ∧ SameMappings roots s { s with memory } ∧
      ∀ a, InUse (readTable memory) roots a ↔ InUse (readTable s.memory) roots a := by
  have hkept : ∀ c, IsFrame c → c ≠ f → readTable memory c = readTable s.memory c :=
    fun c hc hne => readTable_congr fun x hx => houtside x (frames_apart hc hprivate.isFrame hne x hx)
  have htables : ∀ a, InUse (readTable s.memory) roots a → readTable memory a = readTable s.memory a :=
    fun a ha => hkept a (h.spaces.trees.isFrame_of_inUse ha) fun heq => hprivate.noTable (heq ▸ ha)
  obtain ⟨hspaces, hsame, huse⟩ := h.spaces.of_tables htables
  refine ⟨⟨h.base, hspaces, h.free, ?_, fun a ha => h.built a ((huse a).mp ha), ?_, h.active⟩, hsame, huse⟩
  · intro x hx
    rw [← h.bytes x hx]
    exact houtside x fun hin => hx ⟨f, hprivate.isFrame, hwas, hin⟩
  · intro c hc i hi
    rw [← h.half c hc i hi]
    rcases List.mem_cons.mp hc with heq | hroot
    · exact congrFun (hkept c (heq ▸ h.base.isFrame) fun hcf => h.base.taken (heq ▸ hcf ▸ hwas)) i
    · exact congrFun (htables c (occupied_root hroot)) i

/-- The frame can be written through the direct map. -/
theorem frame_stable (h : Working d s₀ roots s) (hprivate : PrivateFrame roots s f)
    (hwas : f.toNat ∈ s₀.allocator.free) : d.StableOn s (Within f 4096) := by
  refine h.stableOn (fun x hx => ⟨f, hprivate.isFrame, hwas, hx⟩) fun i x hi hx hin => ?_
  have hne : s.cr3 ≠ f := by
    intro heq
    rcases List.mem_cons.mp h.active with hbase | hroot
    · exact h.base.taken (hbase ▸ heq ▸ hwas)
    · exact hprivate.noTable (heq ▸ occupied_root hroot)
  exact frames_apart h.isFrame_active.1 hprivate.isFrame hne x (within_frame_of_entry hx) hin

/-- The frames that were not free are as they were, and so are the address spaces in them. -/
theorem others (h : Working d s₀ [r] s) (hspaces : Spaces d roots s₀) :
    Spaces d (r :: roots) s ∧ SameMappings roots s₀ s ∧
      ∀ frame, IsFrame frame → frame.toNat ∉ s₀.allocator.free → ∀ x, Within frame 4096 x →
        s.memory x = s₀.memory x := by
  have hbytes : ∀ frame, IsFrame frame → frame.toNat ∉ s₀.allocator.free → ∀ x, Within frame 4096 x →
      s.memory x = s₀.memory x := fun frame hframe htaken x hx => h.bytes x (not_freeByte hframe htaken hx)
  have hkept : ∀ r' ∈ roots, r' ≠ r → ∀ a, InUse (readTable s₀.memory) [r'] a →
      readTable s.memory a = readTable s₀.memory a ∧ ¬ InUse (readTable s.memory) [r] a := by
    intro r' hr' _ a ha
    have huse : InUse (readTable s₀.memory) roots a := UserTrees.inUse_iff.mpr ⟨r', hr', ha⟩
    refine ⟨readTable_congr (hbytes a (hspaces.trees.isFrame_of_inUse huse) (hspaces.taken a huse)), fun hnew => ?_⟩
    exact hspaces.taken a huse (h.built a hnew)
  obtain ⟨hall, hmappings⟩ := hspaces.join h.spaces h.free hkept fun r' hr' => List.mem_cons.mp hr'
  refine ⟨hall, fun r' hr' => (hmappings r' hr' fun heq => ?_).2, hbytes⟩
  subst heq
  exact hspaces.taken r' (occupied_root hr') (h.built r' (occupied_root (List.mem_singleton_self r')))

theorem activate (h : Working d s₀ roots s) {root : U64} (hroot : root ∈ s₀.cr3 :: roots) :
    Working d s₀ roots { s with cr3 := root } :=
  ⟨h.base, ⟨h.spaces.allocator, h.spaces.low, h.spaces.trees, h.spaces.reached, h.spaces.taken⟩, h.free, h.bytes,
    h.built, h.half, hroot⟩

end Working

end X11Os
