import X11Os.Arch.ImageLoading

/-!
# Loading a process image

`load_process_image` (`arch/x86_64/process_loader.rs`): a new root, the mapping of the image and its stack, the bytes
of the image, and the allocator put back when one of the steps fails.

No image is ever loaded.  The stack of every accepted image lies in the non-canonical hole, so that its first page
panics as soon as there is a frame for it.  A call that returns an error has taken nothing: the allocator is where it
was, and no byte outside free frames has changed (`loadProcessImage_takes_nothing`).
-/

namespace X11Os

open Word Amd64 Exec TableTree

inductive ProcessLoadError where
  | root (error : AddressSpaceRootError)
  | mapping (error : MappingError)
  | image (error : PopulationError)
deriving DecidableEq, Repr

section

variable (tables : U64 → OffsetPageTable KernelMemory)

/-- `X86PageTableMapper::new_for_root`, up to the tables that it hands to the crate. -/
def newForRoot (physicalMemoryOffset root : U64) : Exec KernelMemory MappingError (OffsetPageTable KernelMemory) := do
  let _ ← okOr (checkedAdd root physicalMemoryOffset) .backendFailure
  let _ ← liftM (VirtAddr.new physicalMemoryOffset)
  return tables root

/-- The closure of `load_process_image`. -/
def constructProcess (physicalMemory : PhysicalMemoryMapping) (image : ProcessImage) (elf : ElfImage) :
    Exec KernelMemory ProcessLoadError (U64 × PopulatedAddressSpace) := do
  let root ← mapErr .root (newUserRoot physicalMemory.offset)
  let spec := image.addressSpace
  let inner ← mapErr .mapping (newForRoot tables physicalMemory.offset root)
  -- whatever the construction reports is reported as a failure of the backend
  let built ← mapErr (fun _ => .mapping .backendFailure)
    (buildAddressSpace (X86PageTableMapper.mapper inner spec.layout.user) spec image)
  let populated ← mapErr .image (PopulatedAddressSpace.populate (X86ImagePageWriter.writer physicalMemory) elf built)
  return (root, populated)

def loadProcessImage (physicalMemory : PhysicalMemoryMapping) (image : ProcessImage) (elf : ElfImage)
    (s : KernelMemory) :
    Panics (Except ProcessLoadError (U64 × PopulatedAddressSpace) × KernelMemory) :=
  let checkpoint := s.allocator.checkpoint
  match (constructProcess tables physicalMemory image elf).exec s with
  | .panicked => .panicked
  | .returned (.ok loaded, s) => .returned (.ok loaded, s)
  | .returned (.error error, s) => .returned (.error error, { s with allocator := s.allocator.rollback checkpoint })

end

/-! ### What the construction keeps, whatever it does -/

private theorem flagsFromElf_built {flags : U32} {f : MappingFlags} (h : flagsFromElf flags = some f) : f.Built := by
  unfold flagsFromElf at h
  dsimp only at h
  split at h
  · cases h
    exact .inl rfl
  · cases h
    exact .inr (.inl rfl)
  · cases h
    exact .inr (.inr (.inl rfl))
  · cases h

section Backend

variable {σ : Type} {mapper : PageTableMapper σ} {I : σ → Prop} {Good : U64 → Prop}

/-- The operations of the backend keep a condition, given frames that the backend has handed out. -/
structure PageTableMapper.Maintains (mapper : PageTableMapper σ) (I : σ → Prop) (Good : U64 → Prop) : Prop where
  allocate : ∀ s, I s → I (mapper.allocateFrame s).2 ∧ ∀ frame, (mapper.allocateFrame s).1 = some frame → Good frame
  map : ∀ page frame flags, Good frame → flags.Built → Keeps I (mapper.mapPage page frame flags)
  unmap : ∀ page, Keeps I (mapper.unmapPage page)

namespace PageTableMapper.Maintains

private theorem allocate_ends (h : mapper.Maintains I Good) {s : σ} (hs : I s) {ε : Type} {E : ε → σ → Prop} :
    Ends (mapper.allocate : Exec σ ε (Option U64)) s
      (fun answer s' => I s' ∧ ∀ frame, answer = some frame → Good frame) E := by
  rintro _ ⟨⟩
  exact h.allocate s hs

private theorem unmapAll (h : mapper.Maintains I Good) (pages : List MappedPage) :
    Keeps I (unmapAll mapper pages) := by
  induction pages with
  | nil => exact .pure
  | cons mapped rest ih => exact .bind .okOr fun page => .bind (.mapErr (h.unmap page)) fun _ => ih

private theorem failLoad (h : mapper.Maintains I Good) (pages : List MappedPage) {α : Type} (error : LoadError) :
    Keeps I (failLoad mapper pages error : Exec σ LoadError α) :=
  .bind (h.unmapAll pages.reverse) fun _ => .throw

private theorem mapSegment (h : mapper.Maintains I Good) {flags : MappingFlags} (hbuilt : flags.Built) (stop : U64)
    (room : Nat) (address : U64) (pages : List MappedPage) :
    Keeps I (mapSegment mapper flags stop room address pages) := by
  induction room generalizing address pages with
  | zero =>
    unfold X11Os.mapSegment
    split_ifs
    · exact h.failLoad _ _
    · exact .pure
  | succ room ih =>
    unfold X11Os.mapSegment
    split_ifs
    · cases Page4K.fromStartAddress address with
      | none => exact h.failLoad _ _
      | some page =>
        intro s hs
        refine .bind ((h.allocate_ends hs).imp (fun answer s₁ hanswer => ?_) fun _ _ hs₁ => hs₁)
        obtain ⟨hs₁, hgood⟩ := hanswer
        cases answer with
        | none => exact h.failLoad _ _ s₁ hs₁
        | some frame =>
          refine (Keeps.bind (.caught (h.map page frame flags (hgood frame rfl) hbuilt)) fun outcome => ?_) s₁ hs₁
          cases outcome with
          | error error => exact h.failLoad _ _
          | ok _ =>
            cases checkedAdd address pageSize4K with
            | none => exact h.failLoad _ _
            | some next => exact ih next _
    · exact .pure

private theorem mapSegments (h : mapper.Maintains I Good) (segments : List SegmentMapping) (pages : List MappedPage) :
    Keeps I (mapSegments mapper segments pages) := by
  induction segments generalizing pages with
  | nil => exact .pure
  | cons segment rest ih =>
    intro s hs
    refine .okOr (fun _ => hs) fun flags hflags => ?_
    refine (Keeps.bind (h.mapSegment (flagsFromElf_built hflags) _ _ _ pages) fun pages' => ih pages') s hs

private theorem unmapStack (h : mapper.Maintains I Good) (pages : List MappedStackPage) :
    Keeps I (unmapStack mapper pages) := by
  induction pages with
  | nil => exact .pure
  | cons mapped rest ih => exact .bind (.mapErr (h.unmap mapped.virtualPage)) fun _ => ih

private theorem unmapLoad (h : mapper.Maintains I Good) (pages : List MappedPage) :
    Keeps I (unmapLoad mapper pages) := by
  induction pages with
  | nil => exact .pure
  | cons mapped rest ih => exact .bind .okOr fun page => .bind (.mapErr (h.unmap page)) fun _ => ih

private theorem failBuild (h : mapper.Maintains I Good) (load : LoadResult) (stack : List MappedStackPage) {α : Type}
    (error : AddressSpaceBuildError) :
    Keeps I (failBuild mapper load stack error : Exec σ AddressSpaceBuildError α) :=
  .bind (h.unmapStack stack.reverse) fun _ => .bind (h.unmapLoad load.pages.reverse) fun _ => .throw

private theorem mapStack (h : mapper.Maintains I Good) (load : LoadResult) (pages : List Page4K)
    (stack : List MappedStackPage) :
    Keeps I (mapStack mapper load pages stack) := by
  induction pages generalizing stack with
  | nil => exact .pure
  | cons page rest ih =>
    intro s hs
    refine .bind ((h.allocate_ends hs).imp (fun answer s₁ hanswer => ?_) fun _ _ hs₁ => hs₁)
    obtain ⟨hs₁, hgood⟩ := hanswer
    cases answer with
    | none => exact h.failBuild _ _ _ s₁ hs₁
    | some frame =>
      refine (Keeps.bind (.caught (h.map page frame .readWrite (hgood frame rfl) (.inr (.inl rfl))))
        fun outcome => ?_) s₁ hs₁
      cases outcome with
      | error error => exact h.failBuild _ _ _
      | ok _ => exact ih _

private theorem access (address : U64) {ε : Type} : Keeps I (mapper.access address : Exec σ ε PageAccess) :=
  fun _ hs => access_ends.imp (fun _ _ heq => heq ▸ hs) fun _ _ hfalse => hfalse

private theorem buildAddressSpace (h : mapper.Maintains I Good) (spec : AddressSpaceSpec) (image : ProcessImage) :
    Keeps I (buildAddressSpace mapper spec image) := by
  have hplan : Keeps I (mapLoadPlan mapper image.loadPlan) :=
    .bind (h.mapSegments image.loadPlan.segments []) fun _ => .pure
  refine .bind .reject fun _ => .bind (.mapErr hplan) fun load => .bind (h.mapStack load _ []) fun stack =>
    .bind (access load.entry) fun entryAccess => ?_
  split_ifs
  · exact h.failBuild _ _ _
  · exact h.failBuild _ _ _
  · refine .bind .okOr fun top => .bind (access top) fun stackAccess => ?_
    split_ifs
    · exact h.failBuild _ _ _
    · exact h.failBuild _ _ _
    · exact h.failBuild _ _ _
    · exact .pure

end PageTableMapper.Maintains

end Backend

/-! ### Over tables in memory -/

section Tables

variable {d : DirectMap} {tables : U64 → OffsetPageTable KernelMemory} {root : U64} {base s : KernelMemory}

/-- The backend of the new root. -/
private theorem rootMapper_maintains (hcontract : TableContract d tables) :
    (rootMapper tables root).Maintains (fun s => Working d base [root] s ∧ s.cr3 = base.cr3) IsFrame where
  allocate s hs := by
    obtain ⟨hs, hcr3⟩ := hs
    obtain ⟨alloc, hspaces, hevolves, hcases⟩ := hs.spaces.allocateFrame_cases
    have hcall : (rootMapper tables root).allocateFrame s = s.allocateFrame := hcontract.allocateFrame root s
    rw [hcall]
    rcases hcases with ⟨hnone, -⟩ | ⟨frame, hsome, htakes⟩
    · rw [hnone]
      exact ⟨⟨hs.evolve hspaces hevolves, hcr3⟩, fun frame hframe => by cases hframe⟩
    · rw [hsome]
      refine ⟨⟨hs.evolve hspaces hevolves, hcr3⟩, fun frame' hframe => ?_⟩
      cases hframe
      exact htakes.isFrame
  map page frame flags hframe hbuilt s hs r hexec := by
    obtain ⟨hs, hcr3⟩ := hs
    have hr := List.mem_singleton_self root
    rcases X86PageTableMapper.mapPage_spec hcontract hs.spaces hr (hs.workspace hr) page frame hbuilt with
      ⟨-, -, error, hrefused⟩ | ⟨-, hpanic⟩ | ⟨-, -, result, s', hrun, hspaces, hevolves, -, -⟩
    · cases hrefused.symm.trans hexec
      exact ⟨hs, hcr3⟩
    · cases hpanic.symm.trans hexec
    · cases hrun.symm.trans hexec
      have hkept := And.intro (hs.evolve hspaces hevolves) (hevolves.cr3.trans hcr3)
      cases result <;> exact hkept
  unmap page s hs r hexec := by
    obtain ⟨hs, hcr3⟩ := hs
    have hr := List.mem_singleton_self root
    rcases X86PageTableMapper.unmapPage_spec hcontract hs.spaces hr (hs.workspace hr) page with
      ⟨-, error, hrefused⟩ | ⟨-, -, hpanic⟩ | ⟨-, -, -, hnone⟩ |
      ⟨-, -, frame, flags, s', -, hrun, hspaces, hevolves, -, -⟩
    · cases hrefused.symm.trans hexec
      exact ⟨hs, hcr3⟩
    · cases hpanic.symm.trans hexec
    · cases hnone.symm.trans hexec
      exact ⟨hs, hcr3⟩
    · cases hrun.symm.trans hexec
      exact ⟨hs.evolve hspaces hevolves, hevolves.cr3.trans hcr3⟩

/-! ### The stack in the hole -/

/-- No stack with a page in the hole is ever mapped. -/
private theorem mapStack_stops {load : LoadResult} {page : Page4K} (hhole : 2 ^ 47 ≤ page.startAddress.toNat)
    (rest : List Page4K) (stack : List MappedStackPage) :
    Ends (mapStack (rootMapper tables root) load (page :: rest) stack) s (fun _ _ => False) fun _ _ => True := by
  refine .next (Ends.trivial _ _) fun answer s₁ _ => ?_
  cases answer with
  | none => exact failBuild_ends
  | some frame =>
    refine .lift fun r hexec => ?_
    rcases X86PageTableMapper.mapPage_cases (tables root) page frame .readWrite s₁ with
      ⟨-, -, error, hrefused⟩ | ⟨-, hpanic⟩ | ⟨-, hlow, -⟩
    · cases hrefused.symm.trans hexec
      exact failBuild_ends
    · cases hpanic.symm.trans hexec
    · omega

variable {bytes : Bytes} {spec : AddressSpaceSpec} {image : ProcessImage} {elf : ElfImage}

private theorem buildAddressSpace_stops (himage : buildProcessImage bytes spec = .returned (.ok image))
    (spec' : AddressSpaceSpec) :
    Ends (buildAddressSpace (rootMapper tables root) spec' image) s (fun _ _ => False) fun _ _ => True := by
  refine .next (Ends.trivial _ _) fun _ s₁ _ => .next (Ends.trivial _ _) fun load s₂ _ => ?_
  obtain ⟨-, hstack, -⟩ := buildProcessImage_eq_ok himage
  have hcount := (UserStackPlan.build_spec hstack).2.1
  cases hpages : image.stackPlan.pages with
  | nil =>
    rw [hpages] at hcount
    cases hcount
  | cons page rest =>
    have hhole := stack_inHole himage (hpages ▸ List.mem_cons_self : page ∈ image.stackPlan.pages)
    exact .next (mapStack_stops hhole.1 rest []) fun _ _ hfalse => hfalse.elim

/-! ### The whole construction -/

/-- The backend of a root is made, as the direct map reaches it. -/
private theorem newForRoot_runs (hreached : root.toNat < d.limit) :
    Runs (newForRoot tables d.offset root) s (tables root) s := by
  have hfits := d.fits
  have hupper := d.upper
  have hsum : checkedAdd root d.offset = some (root + d.offset) := checkedAdd_of_lt (by omega)
  have hcanonical : canonical d.offset = true := by
    simp only [canonical, Bool.or_eq_true, beq_iff_eq]
    omega
  exact .bind (.okOr hsum) (.bind (.lift (dif_pos hcanonical)) .pure)

/-- What `load_process_image` starts with: address spaces in memory, and a direct map. -/
structure Loading (d : DirectMap) (roots : List U64) (s : KernelMemory) : Prop where
  spaces : Spaces d roots s
  ground : Grounded d s

variable {roots : List U64}

/-- The construction never succeeds, and when it fails it has written to free frames only. -/
private theorem constructProcess_ends (hcontract : TableContract d tables)
    (himage : buildProcessImage bytes spec = .returned (.ok image)) (h : Loading d roots s) (elf : ElfImage) :
    Ends (constructProcess tables ⟨d.offset⟩ image elf) s (fun _ _ => False) fun _ s' =>
      s'.cr3 = s.cr3 ∧ ∀ x, ¬ FreeByte s x → s'.memory x = s.memory x := by
  have hstart : Working d s [] s := .start h.ground h.spaces.allocator h.spaces.low
  rcases hstart.newUserRoot with ⟨s₁, hfails, hworking, hevolves, -⟩ |
    ⟨root, s₁, hroot, htakes, hworking, hevolves, -⟩
  · refine .bind (.mapErr fun r hexec => ?_)
    cases hfails.symm.trans hexec
    exact ⟨hevolves.cr3, hworking.bytes⟩
  · refine .bind (.mapErr fun r hexec => ?_)
    cases hroot.symm.trans hexec
    refine .bind (.mapErr fun r hexec => ?_)
    cases (newForRoot_runs htakes.reached).symm.trans hexec
    have hkeeps := (rootMapper_maintains hcontract).buildAddressSpace image.addressSpace image s₁
      ⟨hworking, hevolves.cr3⟩
    refine .bind (.mapErr (((buildAddressSpace_stops himage image.addressSpace).and hkeeps).imp ?_ ?_))
    · exact fun _ _ hend => hend.1.elim
    · exact fun _ _ hend => ⟨hend.2.2, hend.2.1.bytes⟩

/-- With a frame for the root, four for each page and one for the stack, the construction panics. -/
private theorem constructProcess_panics (hcontract : TableContract d tables)
    (himage : buildProcessImage bytes spec = .returned (.ok image))
    (helf : (ElfImage.parse bytes).run = .returned (.ok elf)) (h : Loading d roots s)
    (hlow : ∀ segment ∈ elf.segments, segment.virtualRange.stop.toNat ≤ 2 ^ 47)
    (hroom : (elf.segments.flatMap LoadSegment.pages).length ≤ maxMappedPages)
    (hleft : 4 * (elf.segments.flatMap LoadSegment.pages).length + 2 ≤ s.left) :
    (constructProcess tables ⟨d.offset⟩ image elf).exec s = .panicked := by
  obtain ⟨hspec, -, elf', helf', hplan⟩ := buildProcessImage_eq_ok himage
  cases helf.symm.trans helf'
  have hlays := LoadPlan.build_lays hplan
  have hstart : Working d s [] s := .start h.ground h.spaces.allocator h.spaces.low
  rcases hstart.newUserRoot with ⟨-, -, -, -, -, hnone, -⟩ | ⟨root, s₁, hroot, htakes, hworking, -, -, -, hempty⟩
  · omega
  · have hcost := htakes.cost
    obtain ⟨entries, s₂, hload, -, hinstalled, hcost₂⟩ := mapLoadPlan_installs hcontract hlays (hlays.stop_le hlow)
      (hlays.flatMap_pages ▸ hroom) (.refl hworking hempty) (by rw [hlays.flatMap_pages]; omega)
    rw [hlays.flatMap_pages] at hcost₂
    obtain ⟨frame, s₃, halloc, -, hprivate, -⟩ := hinstalled.allocate hcontract (ε := LoadError) (by omega)
    have hanswer : (tables root).allocateFrame s₂ = (some frame, s₃) := by
      obtain ⟨hfirst, hsecond⟩ := Prod.mk.inj (Panics.returned.inj halloc)
      exact Prod.ext (Except.ok.inj hfirst) hsecond
    have hpanic := buildAddressSpace_panics himage (tables root) hload hanswer (aligned_iff.mpr hprivate.isFrame.1)
    refine hroot.mapErr.panics ((newForRoot_runs htakes.reached).mapErr.panics ?_)
    rw [exec_bind, exec_mapErr, hspec]
    show ((((buildAddressSpace (X86PageTableMapper.mapper (tables root) userRange) spec image).exec
      s₁).bind _).bind _) = _
    rw [hpanic]
    rfl

end Tables

/-- Whatever image is accepted, over tables that keep the contract `load_process_image` does not load it.  It panics,
and does so whenever the image has at most 128 pages below the hole and there is a frame for the root, four for each
page and one for the stack; or it reports an error, and then the allocator is where it was, every byte outside the
free frames is as before, and so are the address spaces. -/
theorem loadProcessImage_takes_nothing {bytes : Bytes} {spec : AddressSpaceSpec} {image : ProcessImage}
    {elf : ElfImage} (himage : buildProcessImage bytes spec = .returned (.ok image))
    (helf : (ElfImage.parse bytes).run = .returned (.ok elf)) {d : DirectMap}
    {tables : U64 → OffsetPageTable KernelMemory} (hcontract : TableContract d tables) {roots : List U64}
    {s : KernelMemory} (h : Loading d roots s) :
    (loadProcessImage tables ⟨d.offset⟩ image elf s = .panicked ∨
      ∃ error s', loadProcessImage tables ⟨d.offset⟩ image elf s = .returned (.error error, s') ∧
        s'.allocator = s.allocator ∧ s'.cr3 = s.cr3 ∧ Spaces d roots s' ∧ SameMappings roots s s' ∧
        ∀ x, ¬ FreeByte s x → s'.memory x = s.memory x) ∧
    ((∀ segment ∈ elf.segments, segment.virtualRange.stop.toNat ≤ 2 ^ 47) →
      (elf.segments.flatMap LoadSegment.pages).length ≤ maxMappedPages →
      4 * (elf.segments.flatMap LoadSegment.pages).length + 2 ≤ s.left →
      loadProcessImage tables ⟨d.offset⟩ image elf s = .panicked) := by
  refine ⟨?_, fun hlow hroom hleft => ?_⟩
  · have hends := constructProcess_ends hcontract himage h elf
    cases hexec : (constructProcess tables ⟨d.offset⟩ image elf).exec s with
    | panicked => exact .inl (by rw [loadProcessImage, hexec])
    | returned r =>
      obtain ⟨result, s'⟩ := r
      cases result with
      | ok loaded => exact (hends.of_ok hexec).elim
      | error error =>
        obtain ⟨hcr3, hbytes⟩ := hends.of_error hexec
        have htables : ∀ a, InUse (readTable s.memory) roots a → readTable s'.memory a = readTable s.memory a := by
          intro a ha
          refine readTable_congr fun x hx => hbytes x ?_
          exact not_freeByte (h.spaces.trees.isFrame_of_inUse ha) (h.spaces.taken a ha) hx
        obtain ⟨hspaces, hsame, -⟩ := h.spaces.of_tables htables
        refine .inr ⟨error, { s' with allocator := s.allocator }, by rw [loadProcessImage, hexec]; rfl, rfl, hcr3, ?_,
          hsame, hbytes⟩
        exact ⟨hspaces.allocator, hspaces.low, hspaces.trees, hspaces.reached, hspaces.taken⟩
  · rw [loadProcessImage, constructProcess_panics hcontract himage helf h hlow hroom hleft]

/-- The minimal image with sixteen frames: one for the root and eight for its two pages, so that the
stack is reached. -/
theorem loadProcessImage_takes_nothing_minimal : ∃ image elf,
    buildProcessImage MinimalElf.bytes MinimalElf.spec = .returned (.ok image) ∧
    loadProcessImage referenceTables ⟨0xffff800000000000⟩ image elf SpaceState.sixteenFrames.frames = .panicked := by
  have himage := MinimalElf.builds MinimalElf.spec.id
  obtain ⟨elf, -, -, -, helf, -, -, hsegments, -⟩ := MinimalElf.loads
  obtain ⟨hcount, hlow⟩ := MinimalElf.extent hsegments
  have hbooted := SpaceState.booted_sixteenFrames
  have hloading : Loading .gibibyte [] SpaceState.sixteenFrames.frames :=
    ⟨hbooted.represents.working.spaces, hbooted.grounded⟩
  exact ⟨_, elf, himage, (loadProcessImage_takes_nothing himage helf (contract_referenceTables .gibibyte) hloading).2
    hlow (by rw [hcount]; decide) (by rw [hcount]; decide)⟩

end X11Os
