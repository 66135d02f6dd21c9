import X11Os.Arch.SpaceRuns

/-!
# Isolation of user address spaces

Callers that map only frames they were given, and each of them at one place only, as the process loader does.  Then
user mode, whatever root is active, reaches no byte of another address space, no page table, no free frame, and no
memory that was not free when the kernel started (`address_spaces_isolated`).
-/

namespace X11Os

open Word Amd64 TableTree

variable {d : DirectMap} {tables : U64 → OffsetPageTable KernelMemory} {base : KernelMemory} {s s' : SpaceState}
  {a a' : UserSpaces}

/-- The caller maps only a frame that it was given and that is mapped nowhere. -/
def SpaceState.Owned (s : SpaceState) : SpaceCall → Prop
  | .mapPage _ _ frame _ => frame ∈ s.granted ∧ ∀ r ∈ s.roots, ∀ page flags,
      mappingIn (readTable s.frames.memory) r page ≠ some (frame, flags)
  | _ => True

def SpaceState.OwnedStep (offset : U64) (tables : U64 → OffsetPageTable KernelMemory) (boot : U64) (s : SpaceState)
    (label : SpaceCall × SpaceOutcome) (s' : SpaceState) : Prop :=
  s.Step offset tables boot label s' ∧ s.Owned label.1

namespace UserSpaces

/-- Every page is mapped to a frame that was given away, and no two pages to the same one. -/
structure Exclusive (a : UserSpaces) : Prop where
  owned : ∀ r ∈ a.roots, ∀ page frame flags, a.pages r page = some (frame, flags) → frame ∈ a.granted
  single : ∀ r ∈ a.roots, ∀ r' ∈ a.roots, ∀ page page' frame flags flags', a.pages r page = some (frame, flags) →
    a.pages r' page' = some (frame, flags') → r = r' ∧ page = page'

/-- The frame of the call, if it maps a page, is mapped nowhere. -/
def Unshared (a : UserSpaces) : SpaceCall → Prop
  | .mapPage _ _ frame _ => frame ∈ a.granted ∧ ∀ r ∈ a.roots, ∀ page flags, a.pages r page ≠ some (frame, flags)
  | _ => True

/-- Fewer pages are still exclusive. -/
private theorem Exclusive.mono (h : a.Exclusive) (hgranted : a.granted ⊆ a'.granted)
    (hpages : ∀ r ∈ a'.roots, ∀ page mapping, a'.pages r page = some mapping → r ∈ a.roots ∧
      a.pages r page = some mapping) :
    a'.Exclusive := by
  refine ⟨?_, ?_⟩
  · intro r hr page frame flags hpage
    obtain ⟨hroot, hold⟩ := hpages r hr page _ hpage
    exact hgranted (h.owned r hroot page frame flags hold)
  · intro r hr r' hr' page page' frame flags flags' hpage hpage'
    obtain ⟨hroot, hold⟩ := hpages r hr page _ hpage
    obtain ⟨hroot', hold'⟩ := hpages r' hr' page' _ hpage'
    exact h.single r hroot r' hroot' page page' frame flags flags' hold hold'

private theorem Exclusive.setPage (h : a.Exclusive) {root frame : U64} {page : Page4K} {flags : MappingFlags}
    (hgranted : frame ∈ a.granted) (hfree : ∀ r ∈ a.roots, ∀ page flags, a.pages r page ≠ some (frame, flags)) :
    (a.setPage root page (some (frame, flags))).Exclusive := by
  have hnew : ∀ {r page' frame' flags'}, r ∈ a.roots →
      (a.setPage root page (some (frame, flags))).pages r page' = some (frame', flags') →
      (r = root ∧ page' = page ∧ frame' = frame) ∨ (frame' ≠ frame ∧ a.pages r page' = some (frame', flags')) := by
    intro r page' frame' flags' hr hpage
    simp only [UserSpaces.setPage] at hpage
    split_ifs at hpage with hplace
    · cases hpage
      exact .inl ⟨hplace.1, hplace.2, rfl⟩
    · refine .inr ⟨fun heq => ?_, hpage⟩
      subst heq
      exact hfree r hr page' flags' hpage
  refine ⟨?_, ?_⟩
  · intro r hr page' frame' flags' hpage
    rcases hnew hr hpage with ⟨-, -, rfl⟩ | ⟨-, hold⟩
    · exact hgranted
    · exact h.owned r hr page' frame' flags' hold
  · intro r hr r' hr' page₁ page₂ frame' flags₁ flags₂ hpage₁ hpage₂
    rcases hnew hr hpage₁ with ⟨hr₁, hp₁, hf₁⟩ | ⟨hne₁, hold₁⟩
    · rcases hnew hr' hpage₂ with ⟨hr₂, hp₂, -⟩ | ⟨hne₂, -⟩
      · exact ⟨hr₁.trans hr₂.symm, hp₁.trans hp₂.symm⟩
      · exact absurd hf₁ hne₂
    · rcases hnew hr' hpage₂ with ⟨-, -, hf₂⟩ | ⟨-, hold₂⟩
      · exact absurd hf₂ hne₁
      · exact h.single r hr r' hr' page₁ page₂ frame' flags₁ flags₂ hold₁ hold₂

private theorem Exclusive.step (h : a.Exclusive) {label : SpaceCall × SpaceOutcome} (hstep : a.Step label a')
    (hunshared : a.Unshared label.1) : a'.Exclusive := by
  cases hstep with
  | root _ _ _ =>
    refine h.mono (fun _ hf => hf) fun r hr page mapping hpage => ?_
    simp only [Function.update_apply] at hpage
    split_ifs at hpage with heq
    exact ⟨(List.mem_cons.mp hr).resolve_left heq, hpage⟩
  | frame _ _ _ _ => exact h.mono (fun _ hf => List.mem_cons_of_mem _ hf) fun r hr page mapping hpage => ⟨hr, hpage⟩
  | map _ _ _ => exact (h.setPage hunshared.1 hunshared.2).mono (fun _ hf => hf) fun r hr page mapping hpage =>
    ⟨hr, hpage⟩
  | unmap _ =>
    refine h.mono (fun _ hf => hf) fun r hr page mapping hpage => ⟨hr, ?_⟩
    simp only [UserSpaces.setPage] at hpage
    split_ifs at hpage
    exact hpage
  | copy _ => exact h.mono (fun _ hf => hf) fun r hr page mapping hpage => ⟨hr, hpage⟩
  | zero _ => exact h.mono (fun _ hf => hf) fun r hr page mapping hpage => ⟨hr, hpage⟩
  | activate => exact h.mono (fun _ hf => hf) fun r hr page mapping hpage => ⟨hr, hpage⟩
  | mapTwice _ _ => exact h.mono (fun _ hf => hf) fun r hr page mapping hpage => ⟨hr, hpage⟩
  | mapWithoutFrame _ => exact h.mono (fun _ hf => hf) fun r hr page mapping hpage => ⟨hr, hpage⟩
  | noRoot | noFrame | mapRefused | unmapTwice | unmapRefused | copyNothing | zeroNothing => exact h

end UserSpaces

/-- A disciplined call keeps the address spaces exclusive. -/
private theorem Represents.ownedStep (h : Represents d base a s) (hcontract : TableContract d tables)
    (hexclusive : a.Exclusive)
    {label : SpaceCall × SpaceOutcome} (hstep : s.OwnedStep d.offset tables base.cr3 label s') :
    ∃ a', a.Step label a' ∧ Represents d base a' s' ∧ a'.Exclusive := by
  obtain ⟨hstep, howned⟩ := hstep
  obtain ⟨a', habstract, h'⟩ := h.step hcontract hstep
  refine ⟨a', habstract, h', hexclusive.step habstract ?_⟩
  obtain ⟨call, outcome⟩ := label
  cases call with
  | mapPage root page frame flags =>
    refine ⟨h.granted ▸ howned.1, fun r hr page' flags' hpage => ?_⟩
    rw [h.roots] at hr
    rw [← h.pages r hr] at hpage
    exact howned.2 r hr page' flags' hpage
  | _ => trivial

/-- A disciplined run is a run of exclusive address spaces. -/
theorem SpaceState.Booted.ownedRun {s₀ : SpaceState} {history : List (SpaceCall × SpaceOutcome)}
    (hcontract : TableContract d tables) (hboot : s₀.Booted d)
    (hrun : Trace (SpaceState.OwnedStep d.offset tables s₀.frames.cr3) s₀ history s) :
    ∃ a, Trace UserSpaces.Step (.initial s₀.frames.cr3 s₀.frames.left) history a ∧ Represents d s₀.frames a s ∧
      a.Exclusive := by
  have hinitial : (UserSpaces.initial s₀.frames.cr3 s₀.frames.left).Exclusive :=
    ⟨fun r hr => absurd hr List.not_mem_nil, fun r hr => absurd hr List.not_mem_nil⟩
  have hstep : ∀ a s label s', Represents d s₀.frames a s ∧ a.Exclusive →
      s.OwnedStep d.offset tables s₀.frames.cr3 label s' →
      ∃ a', a.Step label a' ∧ Represents d s₀.frames a' s' ∧ a'.Exclusive :=
    fun _ _ _ _ h => h.1.ownedStep hcontract h.2
  exact Trace.simulates hstep ⟨hboot.represents, hinitial⟩ hrun

/-- No page of a tree is both writable and executable. -/
private theorem mappingIn_exclusive {T : U64 → PageTable} {r frame : U64} {page : Page4K} {flags : MappingFlags}
    (h : mappingIn T r page = some (frame, flags)) : flags.isWritableExecutable = false := by
  unfold mappingIn at h
  split_ifs at h
  obtain ⟨t, -, hleaf⟩ := Option.bind_eq_some_iff.mp h
  unfold leafMapping at hleaf
  split_ifs at hleaf
  cases hleaf
  unfold PageTableEntry.mappingFlags
  split_ifs
  · decide
  · decide
  · decide

/-- What the kernel keeps for itself: page tables, every frame that was not free in `base`, and the frames
that are free. -/
def SpaceState.Kept (base : KernelMemory) (s : SpaceState) (c : U64) : Prop :=
  IsFrame c ∧ (InUse (readTable s.frames.memory) s.roots c ∨ c.toNat ∉ base.allocator.free ∨
    c.toNat ∈ s.frames.allocator.free)

section Walks

variable {r x : U64} {w : PageWalk} (h : Represents d base a s) (hexclusive : a.Exclusive) (hr : r ∈ s.roots)
  (hx : x.toNat < 2 ^ 47)
  (hw : PageWalk.descend (readTable s.frames.memory) x 4 (readTable s.frames.memory r) = some w)
include h hexclusive hr hx hw

/-- A walk that ends finds a page of the address space, in a frame that was given away. -/
private theorem Represents.mapped_of_walk : ∃ frame flags, a.pages r (.containing x) = some (frame, flags) ∧
    w.Gives x frame flags ∧ frame ∈ s.granted ∧ flags.isWritableExecutable = false := by
  have hwalk := h.working.spaces.trees.walk_eq hr x hx
  cases hpage : mappingIn (readTable s.frames.memory) r (.containing x) with
  | none =>
    rw [hpage] at hwalk
    rw [hw] at hwalk
    cases hwalk
  | some mapping =>
    obtain ⟨frame, flags⟩ := mapping
    rw [hpage] at hwalk
    obtain ⟨w', hw', hgives⟩ := hwalk
    rw [hw] at hw'
    cases hw'
    have hmapped := hpage
    rw [h.pages r hr] at hmapped
    have hgranted := hexclusive.owned r (h.roots ▸ hr) _ frame flags hmapped
    rw [h.granted] at hgranted
    exact ⟨frame, flags, hmapped, hgives, hgranted, mappingIn_exclusive hpage⟩

end Walks

private theorem toNat_in_frame {frame : U64} (hframe : IsFrame frame) (x : U64) :
    (frame + BitVec.ofNat 64 (x.toNat % 4096)).toNat = frame.toNat + x.toNat % 4096 := by
  have halign := hframe.1
  have hlt := hframe.2
  rw [BitVec.toNat_add, BitVec.toNat_ofNat]
  omega

/-- With any two roots active, the processor reaches a byte of physical memory at one address of one of them only; it
reaches nothing that the kernel keeps for itself, and finds no page that is writable and executable. -/
theorem address_spaces_isolated {s₀ : SpaceState} {history : List (SpaceCall × SpaceOutcome)}
    (hcontract : TableContract d tables) (hboot : s₀.Booted d)
    (hrun : Trace (SpaceState.OwnedStep d.offset tables s₀.frames.cr3) s₀ history s) {r r' x x' : U64}
    {w w' : PageWalk} (hr : r ∈ s.roots) (hr' : r' ∈ s.roots) (hx : x.toNat < 2 ^ 47) (hx' : x'.toNat < 2 ^ 47)
    (hw : PageWalk.descend (readTable s.frames.memory) x 4 (readTable s.frames.memory r) = some w)
    (hw' : PageWalk.descend (readTable s.frames.memory) x' 4 (readTable s.frames.memory r') = some w') :
    (w.physical x = w'.physical x' → r = r' ∧ x = x') ∧
      (∀ c, s.Kept s₀.frames c → ¬ (c.toNat ≤ (w.physical x).toNat ∧ (w.physical x).toNat < c.toNat + 4096)) ∧
      ¬ ((∀ e ∈ w.entries, e.writable = true) ∧ ∀ e ∈ w.entries, e.noExecute = false) := by
  obtain ⟨a, -, h, hexclusive⟩ := hboot.ownedRun hcontract hrun
  obtain ⟨frame, flags, hpage, hgives, hgranted, hflags⟩ := h.mapped_of_walk hexclusive hr hx hw
  obtain ⟨frame', flags', hpage', hgives', hgranted', -⟩ := h.mapped_of_walk hexclusive hr' hx' hw'
  obtain ⟨hprivate, hwas, -⟩ := h.frames frame hgranted
  have hprivate' := (h.frames frame' hgranted').1
  have hphysical := toNat_in_frame hprivate.isFrame x
  have hphysical' := toNat_in_frame hprivate'.isFrame x'
  rw [hgives.physical, hgives'.physical]
  have halign := hprivate.isFrame.1
  have halign' := hprivate'.isFrame.1
  refine ⟨fun heq => ?_, fun c hc hin => ?_, fun hboth => ?_⟩
  · have hsum := congrArg BitVec.toNat heq
    rw [hphysical, hphysical'] at hsum
    have hframes : frame = frame' := BitVec.eq_of_toNat_eq (by omega)
    subst hframes
    obtain ⟨rfl, hpages⟩ :=
      hexclusive.single r (h.roots ▸ hr) r' (h.roots ▸ hr') _ _ frame flags flags' hpage hpage'
    have hstart := congrArg (BitVec.toNat ∘ Page4K.startAddress) hpages
    simp only [Function.comp, Page4K.containing, toNat_pageStartOf] at hstart
    exact ⟨rfl, BitVec.eq_of_toNat_eq (by omega)⟩
  · rw [hphysical] at hin
    obtain ⟨hframe, hkept⟩ := hc
    have halignc := hframe.1
    obtain rfl : c = frame := BitVec.eq_of_toNat_eq (by omega)
    rcases hkept with huse | hnever | hfree
    · exact hprivate.noTable huse
    · exact hnever hwas
    · exact hprivate.taken hfree
  · rw [hgives.writable, hgives.executable] at hboth
    rw [MappingFlags.isWritableExecutable, hboth.1, hboth.2] at hflags
    cases hflags

/-- The sample calls keep to the frames that they were given. -/
theorem SpaceState.owned_mappedHistory : ∃ root frame s a,
    Trace (SpaceState.OwnedStep 0xffff800000000000 referenceTables 0x1000) sixteenFrames
      (mappedHistory root frame) s ∧
    Represents .gibibyte sixteenFrames.frames a s ∧ a.roots = [root] ∧
    a.pages root (.containing 0x400000) = some (frame, .readExecute) := by
  obtain ⟨root, frame, s₁, s₂, s₃, a, hstep₁, hstep₂, hstep₃, hroots, hgranted, hempty, h, haroots, hpage⟩ :=
    sixteenFrames_maps
  refine ⟨root, frame, s₃, a, .snoc (.snoc (.single ⟨hstep₁, trivial⟩) ⟨hstep₂, trivial⟩) ⟨hstep₃, ?_, ?_⟩, h,
    haroots, hpage⟩
  · rw [hgranted]
    exact List.mem_singleton_self frame
  · intro r hr page flags
    rw [hroots] at hr
    rw [List.mem_singleton.mp hr, hempty]
    exact fun hsome => by cases hsome

/-- Code at `0x400000` of the first root is reached there only, in the frame that was mapped, and not in the table of
the kernel at `0x2000`. -/
theorem address_spaces_isolated_mapped : ∃ root frame s w,
    Trace (SpaceState.OwnedStep 0xffff800000000000 referenceTables 0x1000) SpaceState.sixteenFrames
      (SpaceState.mappedHistory root frame) s ∧
    PageWalk.descend (readTable s.frames.memory) 0x400123 4 (readTable s.frames.memory root) = some w ∧
    w.physical 0x400123 = frame + 0x123 ∧
    ¬ (0x2000 ≤ (w.physical 0x400123).toNat ∧ (w.physical 0x400123).toNat < 0x2000 + 4096) := by
  obtain ⟨root, frame, s, a, hrun, h, haroots, hpage⟩ := SpaceState.owned_mappedHistory
  have hroot : root ∈ s.roots := by
    rw [← h.roots, haroots]
    exact List.mem_singleton_self root
  have hwalk := h.working.spaces.trees.walk_eq hroot 0x400123 (by decide)
  rw [show Page4K.containing 0x400123 = .containing 0x400000 by decide, h.pages root hroot, hpage] at hwalk
  obtain ⟨w, hw, hgives⟩ := hwalk
  have hkept : s.Kept SpaceState.sixteenFrames.frames 0x2000 := by
    refine ⟨⟨by decide, by decide⟩, .inr (.inl fun hin => ?_)⟩
    exact absurd (SpaceState.free_sixteenFrames _ hin).1 (by decide)
  refine ⟨root, frame, s, w, hrun, hw, hgives.physical, ?_⟩
  exact (address_spaces_isolated (contract_referenceTables .gibibyte) SpaceState.booted_sixteenFrames hrun hroot hroot
    (by decide) (by decide) hw hw).2.1 0x2000 hkept

end X11Os
