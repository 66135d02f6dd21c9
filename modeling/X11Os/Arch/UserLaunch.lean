import X11Os.Arch.UserExecution
import X11Os.Process.PlanMapped
import X11Os.Process.Population

/-!
# From a populated image to user mode

The launch plan of a populated address space (`process/user_launch.rs`) and its adapter
(`arch/x86_64/user_launch.rs`).  Both check again what the construction of the address space has established: the page
of the entry is mapped and executable, the stack pointer is in a mapped stack page, entry and stack pointer are valid.
None of the checks can fail for an address space that has been built from an accepted image (`launch_of_populated`).
-/

namespace X11Os

open Word Exec

def LoadResult.pageBase (_ : LoadResult) (virtualAddress : U64) : Option U64 := some (virtualAddress &&& pageMask)

def LoadResult.containsPage (load : LoadResult) (virtualAddress : U64) : Bool :=
  (load.pageBase virtualAddress).any fun page => (List.range load.pages.length).any fun index =>
    (load.page index).any fun mapped => mapped.virtualAddress == page

inductive UserLaunchError where
  | entryOutsideImage
  | entryNotExecutable
  | stackOutsideImage
  | stackNotWritable
  | stackExecutable
deriving DecidableEq, Repr

/-- The stack pointer is in the page or at its end. -/
def MappedStackPage.holds (page : MappedStackPage) (stackPointer : U64) : Bool :=
  let start := page.virtualPage.startAddress
  let stop := page.virtualPage.endAddress.getD (BitVec.allOnes 64)
  stackPointer > start && stackPointer ≤ stop && stop - start == pageSize4K

def UserLaunchPlan.fromPopulated (image : PopulatedAddressSpace) : Except UserLaunchError UserLaunchPlan :=
  let context := image.built.image.context
  let entry := context.entry
  if !image.built.load.containsPage entry then .error .entryOutsideImage
  else if !image.built.entryExecutable then .error .entryNotExecutable
  else
    let stackPointer := context.stackPointer
    let stackOk := stackPointer != 0 && (List.range image.built.stackPages.length).any fun index =>
      (image.built.stackPage index).any fun page => page.holds stackPointer
    if !stackOk then .error .stackOutsideImage
    else if !image.built.stackWritable then .error .stackNotWritable
    else if image.built.stackExecutable then .error .stackExecutable
    else .ok ⟨image.built.image.addressSpace.id, entry, stackPointer⟩

/-! ### What a successful construction returns -/

/-- The result of a build, through any backend. -/
structure BuiltAddressSpace.Of (image : ProcessImage) (built : BuiltAddressSpace) : Prop where
  image_eq : built.image = image
  pages : built.load.pages.map MappedPage.virtualAddress = image.loadPlan.segments.flatMap SegmentMapping.pages
  stackPages : built.stackPages.map MappedStackPage.virtualPage = image.stackPlan.pages
  entryExecutable : built.entryExecutable = true
  stackWritable : built.stackWritable = true
  stackExecutable : built.stackExecutable = false

section Construction

variable {σ τ ε : Type} {mapper : PageTableMapper σ} {spec : AddressSpaceSpec} {image : ProcessImage}

private theorem mapLoadPlan_ends_pages {plan : LoadPlan} {s : σ} :
    Ends (mapLoadPlan mapper plan) s (fun load _ => load.pages.map MappedPage.virtualAddress =
      plan.segments.flatMap SegmentMapping.pages) fun _ _ => True := by
  rintro ⟨_ | load, s'⟩ hr
  · trivial
  · exact mapLoadPlan_pages hr

private theorem buildAddressSpace_of {s : σ} :
    Ends (buildAddressSpace mapper spec image) s (fun built _ => built.Of image) fun _ _ => True := by
  unfold buildAddressSpace
  refine .reject (fun _ => trivial) fun _ => .bind (.mapErr ?_)
  refine mapLoadPlan_ends_pages.imp (fun load s₁ hload => ?_) fun _ _ _ => trivial
  refine .next mapStack_pages fun stack s₂ hstack => ?_
  refine .bind (access_ends.imp (fun entryAccess s₃ _ => ?_) fun _ _ he => he)
  split_ifs with hmapped hexecutable
  · exact failBuild_ends
  · exact failBuild_ends
  · refine .okOr (fun _ => trivial) fun top _ => .bind (access_ends.imp (fun access s₄ _ => ?_) fun _ _ he => he)
    split_ifs with hstackMapped hwritable hstackExecutable
    · exact failBuild_ends
    · exact failBuild_ends
    · exact failBuild_ends
    · exact .pure {
        image_eq := rfl
        pages := hload
        stackPages := hstack
        entryExecutable := by simpa using hexecutable
        stackWritable := by simpa using hwritable
        stackExecutable := by simpa using hstackExecutable }

/-- Population hands the address space on as it is. -/
private theorem populate_built {writer : ImagePageWriter τ ε} {elf : ElfImage} {built : BuiltAddressSpace} {t : τ} :
    Ends (PopulatedAddressSpace.populate writer elf built) t (fun populated _ => populated.built = built)
      fun _ _ => True := by
  refine .next (Ends.trivial _ _) fun _ _ _ => ?_
  refine .next (Ends.trivial _ _) fun _ _ _ => ?_
  exact .pure rfl

end Construction

/-! ### The checks of the launch -/

/-- A search through the indices of a list is one through its entries. -/
private theorem LoadResult.containsPage_iff (load : LoadResult) (virtualAddress : U64) :
    load.containsPage virtualAddress = true ↔
      virtualAddress &&& pageMask ∈ load.pages.map MappedPage.virtualAddress := by
  simp only [containsPage, pageBase, Option.any_some, List.any_eq_true, List.mem_range, LoadResult.page,
    List.getElem?_guarded, List.mem_map]
  constructor
  · rintro ⟨index, hlt, hany⟩
    rw [List.getElem?_eq_getElem hlt, Option.any_some, beq_iff_eq] at hany
    exact ⟨_, List.getElem_mem hlt, hany⟩
  · rintro ⟨mapped, hmapped, heq⟩
    obtain ⟨index, hlt, rfl⟩ := List.mem_iff_getElem.mp hmapped
    exact ⟨index, hlt, by rw [List.getElem?_eq_getElem hlt, Option.any_some, beq_iff_eq, heq]⟩

private theorem BuiltAddressSpace.stack_any {built : BuiltAddressSpace} {page : MappedStackPage} {stackPointer : U64}
    (hpage : page ∈ built.stackPages) (hholds : page.holds stackPointer = true) :
    ((List.range built.stackPages.length).any fun index =>
      (built.stackPage index).any fun page => page.holds stackPointer) = true := by
  obtain ⟨index, hlt, rfl⟩ := List.mem_iff_getElem.mp hpage
  refine List.any_eq_true.mpr ⟨index, List.mem_range.mpr hlt, ?_⟩
  rw [BuiltAddressSpace.stackPage, List.getElem?_guarded, List.getElem?_eq_getElem hlt, Option.any_some, hholds]

/-- The end of a page counts as in the page. -/
private theorem MappedStackPage.holds_end {page : MappedStackPage} {stackPointer : U64}
    (h : page.virtualPage.endAddress = some stackPointer) : page.holds stackPointer = true := by
  have hsum : stackPointer.toNat = page.virtualPage.startAddress.toNat + 4096 := checkedAdd_eq_some.mp h
  have hlt := stackPointer.isLt
  have hdiff : stackPointer - page.virtualPage.startAddress = pageSize4K := by
    apply BitVec.eq_of_toNat_eq
    rw [BitVec.toNat_sub, toNat_pageSize4K]
    omega
  simp only [holds, h, Option.getD_some, hdiff, beq_self_eq_true, Bool.and_true, Bool.and_eq_true, decide_eq_true_eq,
    gt_iff_lt, BitVec.lt_def, BitVec.le_refl, and_true]
  omega

/-- The page of the entry is one of the planned pages. -/
private theorem LoadPlan.entry_mem_pages {spec : AddressSpaceSpec} {elf : ElfImage} {plan : LoadPlan}
    (h : LoadPlan.build spec elf = .ok plan) :
    plan.entry &&& pageMask ∈ plan.segments.flatMap SegmentMapping.pages := by
  have hlays := LoadPlan.build_lays h
  obtain ⟨m, hm, -, hin⟩ := LoadPlan.build_entry h
  obtain ⟨segment, -, hplans⟩ := hlays.segments.exists_left hm
  have hstart := hplans.start
  have hstop := hplans.stop
  rw [VirtRange.contains_iff] at hin
  rw [hlays.entry, List.mem_flatMap]
  refine ⟨m, hm, ?_⟩
  rw [hplans.mem_pages, toNat_and_pageMask]
  omega

private theorem InitialContext.new_eq_ok {entry stackPointer : U64} {context : InitialContext}
    (h : InitialContext.new entry stackPointer = .ok context) : context = ⟨entry, stackPointer⟩ := by
  unfold InitialContext.new at h
  split_ifs at h
  cases h
  rfl

/-- A valid context is prepared with the selectors of user mode. -/
private theorem prepareLaunch_of_context (root : AddressSpaceRoot) (plan : UserLaunchPlan) {context : InitialContext}
    (h : InitialContext.new plan.entry plan.stackPointer = .ok context) :
    ∃ launch, prepareLaunch root plan = .ok launch ∧ launch.addressSpace = plan.addressSpace ∧ launch.root = root ∧
      launch.frame = ⟨plan.entry, userCodeSelector.setWidth 64, 0x202, plan.stackPointer,
        userDataSelector.setWidth 64⟩ := by
  obtain rfl := InitialContext.new_eq_ok h
  have hframe : UserReturnFrame.fromInitial ⟨plan.entry, plan.stackPointer⟩ userCodeSelector userDataSelector =
      .ok ⟨plan.entry, userCodeSelector.setWidth 64, 0x202, plan.stackPointer, userDataSelector.setWidth 64⟩ := rfl
  refine ⟨⟨plan.addressSpace, root, _, _, hframe⟩, ?_, rfl, rfl, rfl⟩
  unfold prepareLaunch
  rw [h]
  rfl

/-! ### The launch of every image -/

/-- The launch of an image in the address space `id`: at its entry, on its stack, in user mode. -/
structure PreparedUserLaunch.Launches (launch : PreparedUserLaunch) (root : AddressSpaceRoot) (id : AddressSpaceId)
    (entry : Nat) (stackPlan : UserStackPlan) (stackPages : List MappedStackPage) : Prop where
  addressSpace : launch.addressSpace = id
  root_eq : launch.root = root
  rip : launch.frame.rip.toNat = entry
  rsp : launch.frame.rsp = stackPlan.initialRsp
  aligned : launch.frame.rsp % 16 = 0
  top : ∃ top ∈ stackPages, top.virtualPage.endAddress = some launch.frame.rsp ∧
    ∀ page ∈ stackPages, page.virtualPage.startAddress ≤ top.virtualPage.startAddress
  ring3 : launch.frame.cs &&& 3 = 3 ∧ launch.frame.ss &&& 3 = 3
  interrupts : launch.frame.rflags &&& 0x200 ≠ 0

private theorem fromPopulated_of_built {bytes : Bytes} {spec : AddressSpaceSpec} {image : ProcessImage}
    {built : BuiltAddressSpace} (himage : buildProcessImage bytes spec = .returned (.ok image))
    (hbuilt : built.Of image) :
    UserLaunchPlan.fromPopulated ⟨built⟩ =
      .ok ⟨spec.id, image.loadPlan.entry, image.stackPlan.initialRsp⟩ := by
  obtain ⟨rfl, hstackPlan, elf, -, hplan⟩ := buildProcessImage_eq_ok himage
  obtain rfl := hbuilt.image_eq
  have hcontext := InitialContext.new_eq_ok (buildProcessImage_context himage)
  have hentry : built.load.containsPage built.image.loadPlan.entry = true := by
    rw [LoadResult.containsPage_iff, hbuilt.pages]
    exact LoadPlan.entry_mem_pages hplan
  obtain ⟨-, top, htop, hend, -⟩ := UserStackPlan.build_top hstackPlan
  have hnonzero : built.image.stackPlan.initialRsp ≠ 0 := by
    rw [(UserStackPlan.build_spec hstackPlan).1]
    decide
  rw [← hbuilt.stackPages] at htop
  obtain ⟨page, hpage, rfl⟩ := List.mem_map.mp htop
  have hstack := BuiltAddressSpace.stack_any hpage (MappedStackPage.holds_end hend)
  rw [← bne_iff_ne] at hnonzero
  simp only [UserLaunchPlan.fromPopulated, hcontext, hentry, hbuilt.entryExecutable, hnonzero, hstack,
    hbuilt.stackWritable, hbuilt.stackExecutable, Bool.not_true, Bool.and_self, Bool.false_eq_true, if_false]

/-- Whenever image, address space and population succeed, through any backends, so do the launch plan and its adapter,
and the frame enters the image at its own entry and on its own stack. -/
theorem launch_of_populated {σ τ ε : Type} (mapper : PageTableMapper σ) (writer : ImagePageWriter τ ε) (bytes : Bytes)
    (spec spec' : AddressSpaceSpec) (image : ProcessImage)
    (himage : buildProcessImage bytes spec = .returned (.ok image)) (s s' : σ) (built : BuiltAddressSpace)
    (hbuild : (buildAddressSpace mapper spec' image).exec s = .returned (.ok built, s')) (elf : ElfImage) (t t' : τ)
    (populated : PopulatedAddressSpace)
    (hpopulate : (PopulatedAddressSpace.populate writer elf built).exec t = .returned (.ok populated, t'))
    (root : AddressSpaceRoot) :
    ∃ plan launch, UserLaunchPlan.fromPopulated populated = .ok plan ∧ prepareLaunch root plan = .ok launch ∧
      launch.Launches root spec.id (Elf.entry bytes) image.stackPlan built.stackPages := by
  have hbuilt := buildAddressSpace_of.of_ok hbuild
  obtain ⟨populatedSpace⟩ := populated
  obtain rfl : populatedSpace = built := populate_built.of_ok hpopulate
  have hplan := fromPopulated_of_built himage hbuilt
  obtain ⟨launch, hlaunch, hspace, hroot, hframe⟩ :=
    prepareLaunch_of_context root ⟨spec.id, image.loadPlan.entry, image.stackPlan.initialRsp⟩
      (buildProcessImage_context himage)
  obtain ⟨-, hstackPlan, elf', hparse, hload⟩ := buildProcessImage_eq_ok himage
  obtain ⟨-, hrep⟩ := (ElfImage.parse_checks bytes).of_ok hparse
  obtain ⟨haligned, top, htop, hend, hhighest⟩ := UserStackPlan.build_top hstackPlan
  rw [← hbuilt.stackPages] at htop hhighest
  obtain ⟨page, hpage, rfl⟩ := List.mem_map.mp htop
  refine ⟨_, launch, hplan, hlaunch, ?_⟩
  exact {
    addressSpace := hspace
    root_eq := hroot
    rip := by
      rw [hframe, (LoadPlan.build_lays hload).entry]
      exact hrep.entry
    rsp := by rw [hframe]
    aligned := by
      rw [hframe]
      exact haligned
    top := by
      rw [hframe]
      exact ⟨page, hpage, hend, fun page' hpage' => hhighest _ (List.mem_map_of_mem hpage')⟩
    ring3 := by
      rw [hframe]
      exact (by decide : userCodeSelector.setWidth 64 &&& 3 = 3 ∧ userDataSelector.setWidth 64 &&& 3 = 3)
    interrupts := by
      rw [hframe]
      exact (by decide : (0x202 : U64) &&& 0x200 ≠ 0) }

namespace MinimalElf

/-- The minimal image, built on an empty table and populated on a memory full of ones; what is left is whether all of
it has succeeded. -/
def populates : Bool :=
  match (ElfImage.parse bytes).run, buildProcessImage bytes spec with
  | .returned (.ok elf), .returned (.ok image) =>
    match (buildAddressSpace FrameTable.mapper spec image).exec ⟨fun _ => none, 0x100000⟩ with
    | .returned (.ok built, _) =>
      match (PopulatedAddressSpace.populate directWriter elf built).exec fun _ => 0xff with
      | .returned (.ok _, _) => true
      | _ => false
    | _ => false
  | _, _ => false

end MinimalElf

/-- The minimal image is launched at its entry. -/
theorem launch_of_populated_minimal : ∃ populated plan launch,
    UserLaunchPlan.fromPopulated populated = .ok plan ∧ prepareLaunch ⟨0x12345000⟩ plan = .ok launch ∧
    launch.frame.rip.toNat = 0x401001 ∧ launch.addressSpace = MinimalElf.spec.id := by
  have hpopulates : MinimalElf.populates = true := by decide +kernel
  unfold MinimalElf.populates at hpopulates
  split at hpopulates
  · rename_i elf image hparse himage
    split at hpopulates
    · rename_i built s' hbuild
      split at hpopulates
      · rename_i populated t' hpopulate
        obtain ⟨plan, launch, hplan, hlaunch, hlaunches⟩ := launch_of_populated FrameTable.mapper directWriter
          MinimalElf.bytes MinimalElf.spec MinimalElf.spec image himage _ s' built hbuild elf _ t' populated hpopulate
          ⟨0x12345000⟩
        have hentry : Elf.entry MinimalElf.bytes = 0x401001 := by decide +kernel
        exact ⟨populated, plan, launch, hplan, hlaunch, hlaunches.rip.trans hentry, hlaunches.addressSpace⟩
      · cases hpopulates
    · cases hpopulates
  · cases hpopulates

end X11Os
