import X11Os.Arch.UserMemory
import X11Os.Process.Loader

/-!
# The x86_64 page-table backend

`X86PageTableMapper` (`arch/x86_64/page_table.rs`) over the operations of an `OffsetPageTable`, and what becomes of
the images that process construction accepts.  The operations of the crate take a `VirtAddr` and a frame, so a page
that is not canonical and a physical address of more than 52 bits panic before they reach them.  The stack of every
accepted image lies just below `0xffff_8000_0000_0000`, in the non-canonical hole.
-/

namespace X11Os

open Word

inductive MapToError where
  | frameAllocationFailed
  | parentEntryHugePage
  | pageAlreadyMapped
deriving DecidableEq, Repr

inductive UnmapError where
  | parentEntryHugePage
  | pageNotMapped
  | invalidFrameAddress
deriving DecidableEq, Repr

def mapToError : MapToError → MappingError
  | .frameAllocationFailed => .frameAllocationFailed
  | .parentEntryHugePage => .parentEntryHugePage
  | .pageAlreadyMapped => .alreadyMapped

def unmapError : UnmapError → MappingError
  | .parentEntryHugePage => .parentEntryHugePage
  | .pageNotMapped => .notMapped
  | .invalidFrameAddress => .invalidMappedFrame

/-- A physical address of the crate. -/
structure PhysAddr where
  asU64 : U64
  inRange : asU64.toNat < 2 ^ 52
deriving DecidableEq, Repr

def PhysAddr.new (a : U64) : Panics PhysAddr := if h : a.toNat < 2 ^ 52 then .returned ⟨a, h⟩ else .panicked

/-- `PhysFrame::from_start_address(PhysAddr::new(…))`, with the error of the caller. -/
def PhysFrame.fromStartAddress {σ ε : Type} (address : U64) (error : ε) : Exec σ ε U64 := do
  let physical ← ExceptT.lift fun s => (PhysAddr.new address).bind fun a => .returned (a, s)
  reject (physical.asU64 % pageSize4K ≠ 0) error
  return physical.asU64

theorem PhysFrame.fromStartAddress_cases {σ ε : Type} (address : U64) (error : ε) (s : σ) :
    (2 ^ 52 ≤ address.toNat ∧ (fromStartAddress address error : Exec σ ε U64).exec s = .panicked) ∨
    (address.toNat < 2 ^ 52 ∧ address % pageSize4K ≠ 0 ∧
      (fromStartAddress address error : Exec σ ε U64).exec s = .returned (.error error, s)) ∨
    (address.toNat < 2 ^ 52 ∧ address % pageSize4K = 0 ∧
      (fromStartAddress address error : Exec σ ε U64).exec s = .returned (.ok address, s)) := by
  have hexec : (fromStartAddress address error : Exec σ ε U64).exec s =
      (PhysAddr.new address).bind fun a =>
        if a.asU64 % pageSize4K ≠ 0 then .returned (.error error, s) else .returned (.ok a.asU64, s) := by
    rw [fromStartAddress, Exec.exec_bind]
    show Panics.bind (Panics.bind (Panics.bind (PhysAddr.new address) _) _) _ = _
    cases PhysAddr.new address with
    | panicked => rfl
    | returned a =>
      show ((reject (a.asU64 % pageSize4K ≠ 0) error >>= fun _ => pure a.asU64 : Exec σ ε U64)).exec s = _
      rw [Exec.exec_bind, Exec.exec_reject]
      by_cases h : a.asU64 % pageSize4K ≠ 0
      · simp only [if_pos h, Panics.bind_returned, Exec.andThen_error]
      · simp only [if_neg h, Panics.bind_returned, Exec.andThen_ok]
        rfl
  rw [hexec]
  by_cases hlow : address.toNat < 2 ^ 52
  · rw [PhysAddr.new, dif_pos hlow, Panics.bind_returned]
    by_cases haligned : address % pageSize4K = 0
    · exact .inr (.inr ⟨hlow, haligned, if_neg (not_not_intro haligned)⟩)
    · exact .inr (.inl ⟨hlow, haligned, if_pos haligned⟩)
  · rw [PhysAddr.new, dif_neg hlow]
    exact .inl ⟨Nat.le_of_not_lt hlow, rfl⟩

/-- The table operations of the crate and the frame allocator, over the memory that holds both. -/
structure OffsetPageTable (σ : Type) where
  allocateFrame : σ → Option U64 × σ
  mapTo : VirtAddr → U64 → PageTableFlags → σ → Except MapToError Unit × σ
  unmap : VirtAddr → σ → Except UnmapError U64 × σ
  tables : σ → X86ActiveUserMemory

namespace X86PageTableMapper

variable {σ : Type}

/-- A call into the crate, with its error translated. -/
def call {ε α : Type} (f : σ → Except ε α × σ) (translate : ε → MappingError) : Exec σ MappingError α := do
  match ← modifyGet f with
  | .ok a => return a
  | .error error => throw (translate error)

/-- The checks that `map_page` and `unmap_page` share. -/
def checkPage (addressSpace : VirtRange) (page : Page4K) : Exec σ MappingError Unit := do
  let range ← okOr page.range .invalidVirtualAddress
  reject (range.start < addressSpace.start ∨ range.stop > addressSpace.stop) .outsideAddressSpace

def translateFlags (flags : MappingFlags) (user : Bool) : PageTableFlags where
  userAccessible := user
  writable := flags.writable
  noExecute := !flags.executable

/-- `Page::containing_address(VirtAddr::new(…))`. -/
def containingAddress {ε : Type} (address : U64) : Exec σ ε VirtAddr := ExceptT.lift fun s =>
  (VirtAddr.new address).bind fun a => .returned (a, s)

def mapPage (inner : OffsetPageTable σ) (addressSpace : VirtRange) (page : Page4K) (physicalAddress : U64)
    (flags : MappingFlags) : Exec σ MappingError Unit := do
  checkPage addressSpace page
  reject (flags.isWritableExecutable = true) .backendFailure
  let frame ← PhysFrame.fromStartAddress physicalAddress .invalidPhysicalAddress
  let target ← containingAddress page.startAddress
  call (inner.mapTo target frame (translateFlags flags addressSpace.isUser)) mapToError

def unmapPage (inner : OffsetPageTable σ) (addressSpace : VirtRange) (page : Page4K) : Exec σ MappingError U64 := do
  checkPage addressSpace page
  let target ← containingAddress page.startAddress
  call (inner.unmap target) unmapError

def mappedFlags (inner : OffsetPageTable σ) (addressSpace : VirtRange) (virtualAddress : U64) (s : σ) :
    Panics (Option PageTableFlags) :=
  if !addressSpace.contains virtualAddress then .returned none
  else (VirtAddr.new virtualAddress).bind fun a =>
    .returned ((inner.tables s).flagsWalk (pageIndexes a) (inner.tables s).table ⟨true, true, false⟩)

def pageAccess (inner : OffsetPageTable σ) (addressSpace : VirtRange) (virtualAddress : U64) (s : σ) :
    Panics PageAccess :=
  (mappedFlags inner addressSpace virtualAddress s).bind fun
    | none => .returned .unmapped
    | some flags => .returned ⟨true, flags.userAccessible, true, flags.writable, !flags.noExecute⟩

def mapper (inner : OffsetPageTable σ) (addressSpace : VirtRange) : PageTableMapper σ where
  allocateFrame := inner.allocateFrame
  mapPage := mapPage inner addressSpace
  unmapPage := unmapPage inner addressSpace
  pageAccess := pageAccess inner addressSpace

/-- A writable page of user space that lies in the hole panics, if its frame is not refused. -/
private theorem mapPage_panics (inner : OffsetPageTable σ) {page : Page4K} {frame : U64}
    (hhole : InHole page.startAddress) (hframe : frame % pageSize4K = 0) (s : σ) :
    (mapPage inner userRange page frame .readWrite).exec s = .panicked := by
  obtain ⟨hlo, hhi⟩ := hhole
  have halign := aligned_iff.mp page.aligned
  have hend : (page.startAddress + pageSize4K).toNat = page.startAddress.toNat + 4096 := by
    rw [BitVec.toNat_add, toNat_pageSize4K]
    omega
  have hrange : page.range = some ⟨page.startAddress, page.startAddress + pageSize4K, by
      rw [BitVec.le_def, hend]; omega⟩ := by
    have hstop : page.endAddress = some (page.startAddress + pageSize4K) := by
      rw [Page4K.endAddress, checkedAdd_eq_some, hend, toNat_pageSize4K]
    rw [Page4K.range, hstop, Option.bind_some, VirtRange.new, dif_pos]
  have hinside : ¬ (page.startAddress < userRange.start ∨ page.startAddress + pageSize4K > userRange.stop) := by
    have h1 : userRange.start.toNat = 0x10000 := rfl
    have h2 : userRange.stop.toNat = 0xffff800000000000 := rfl
    rw [BitVec.lt_def, gt_iff_lt, BitVec.lt_def, hend, h1, h2]
    omega
  have hcheck : (checkPage (σ := σ) userRange page).exec s = .returned (.ok (), s) := by
    simp only [checkPage, Exec.exec_bind, hrange, Exec.exec_okOr_some, Panics.bind_returned, Exec.andThen_ok,
      Exec.exec_reject, hinside, if_false]
  have hnew : VirtAddr.new page.startAddress = .panicked := by
    have hcan : canonical page.startAddress = false := by
      simp only [canonical, Bool.or_eq_false_iff, beq_eq_false_iff_ne]
      omega
    rw [VirtAddr.new, dif_neg (by rw [hcan]; decide)]
  have htarget : (containingAddress (σ := σ) (ε := MappingError) page.startAddress).exec s = .panicked := by
    show Panics.bind (Panics.bind (VirtAddr.new page.startAddress) _) _ = _
    rw [hnew]
    rfl
  have hflags : MappingFlags.readWrite.isWritableExecutable = false := by decide
  have hrun : (mapPage inner userRange page frame .readWrite).exec s =
      ((PhysFrame.fromStartAddress frame .invalidPhysicalAddress : Exec σ MappingError U64).exec s).bind
      (Exec.andThen fun f => do
        let target ← containingAddress page.startAddress
        call (inner.mapTo target f (translateFlags .readWrite userRange.isUser)) mapToError) := by
    simp only [mapPage, Exec.exec_bind, hcheck, Panics.bind_returned, Exec.andThen_ok, Exec.exec_reject, hflags,
      Bool.false_eq_true, if_false]
  rw [hrun]
  rcases PhysFrame.fromStartAddress_cases frame MappingError.invalidPhysicalAddress s with
    ⟨-, hpanic⟩ | ⟨-, hunaligned, -⟩ | ⟨-, -, hok⟩
  · rw [hpanic, Panics.bind_panicked]
  · exact absurd hframe hunaligned
  · rw [hok, Panics.bind_returned, Exec.andThen_ok, Exec.exec_bind, htarget, Panics.bind_panicked]

end X86PageTableMapper

/-! ### Accepted images -/

variable {σ : Type}

/-- What loading on x86_64 needs of an image: all its addresses lie in the lower half, and building its address space
never gets to `VirtAddr::new` with a non-canonical address. -/
structure Loadable (image : ProcessImage) : Prop where
  segments : ∀ mapping ∈ image.loadPlan.segments, ∀ page : Page4K,
    mapping.virtualRange.contains page.startAddress = true → page.startAddress.toNat < 2 ^ 47
  stack : ∀ page ∈ image.stackPlan.pages, page.startAddress.toNat < 2 ^ 47
  entry : image.loadPlan.entry.toNat < 2 ^ 47
  stackPointer : (image.stackPlan.initialRsp - 1).toNat < 2 ^ 47
  returns : ∀ (σ : Type) (inner : OffsetPageTable σ) (s : σ),
    (buildAddressSpace (X86PageTableMapper.mapper inner image.addressSpace.layout.user) image.addressSpace
      image).exec s ≠ .panicked

/-- The stack of an accepted image lies in the hole. -/
theorem stack_inHole {bytes : Bytes} {spec : AddressSpaceSpec} {image : ProcessImage}
    (h : buildProcessImage bytes spec = .returned (.ok image)) {page : Page4K}
    (hpage : page ∈ image.stackPlan.pages) :
    InHole page.startAddress := by
  obtain ⟨-, hstack, -⟩ := buildProcessImage_eq_ok h
  obtain ⟨-, -, hpages⟩ := UserStackPlan.build_spec hstack
  obtain ⟨hlo, hhi⟩ := hpages page hpage
  have h1 : (userStackTop - userStackSize).toNat = 0xffff7fffffff0000 - 0x1000 := rfl
  have h2 : userStackTop.toNat = 0xffff800000000000 - 0x1000 := rfl
  rw [BitVec.le_def, h1] at hlo
  rw [BitVec.lt_def, h2] at hhi
  unfold InHole
  omega

/-- An accepted image whose segments are mapped and for whose first stack page there is a frame panics the kernel. -/
theorem buildAddressSpace_panics {bytes : Bytes} {spec : AddressSpaceSpec} {image : ProcessImage}
    (h : buildProcessImage bytes spec = .returned (.ok image)) (inner : OffsetPageTable σ) {s₁ s₂ s₃ : σ}
    {load : LoadResult} {frame : U64}
    (hload : (mapLoadPlan (X86PageTableMapper.mapper inner userRange) image.loadPlan).exec s₁ =
      .returned (.ok load, s₂))
    (hframe : inner.allocateFrame s₂ = (some frame, s₃)) (haligned : frame % pageSize4K = 0) :
    (buildAddressSpace (X86PageTableMapper.mapper inner userRange) spec image).exec s₁ = .panicked := by
  obtain ⟨hspec, hstack, -⟩ := buildProcessImage_eq_ok h
  obtain ⟨-, hlength, -⟩ := UserStackPlan.build_spec hstack
  obtain ⟨page, rest, hpages⟩ : ∃ page rest, image.stackPlan.pages = page :: rest := by
    cases hp : image.stackPlan.pages with
    | nil => rw [hp] at hlength; cases hlength
    | cons page rest => exact ⟨page, rest, rfl⟩
  have hhole : InHole page.startAddress := stack_inHole h (by rw [hpages]; exact List.mem_cons_self)
  have hmap : (mapStack (X86PageTableMapper.mapper inner userRange) load image.stackPlan.pages []).exec s₂ =
      .panicked := by
    have hpanic := X86PageTableMapper.mapPage_panics inner hhole haligned s₃
    rw [hpages]
    simp only [mapStack, PageTableMapper.allocate, X86PageTableMapper.mapper, Exec.exec_bind, Exec.exec_modifyGet,
      hframe, Panics.bind_returned, Exec.andThen_ok, Exec.exec_lift, hpanic, Panics.bind_panicked]
  simp only [buildAddressSpace, Exec.exec_bind, Exec.exec_reject, hspec, ne_eq, not_true_eq_false, if_false,
    Panics.bind_returned, Exec.andThen_ok, Exec.exec_mapErr, hload, Except.mapError, hmap, Panics.bind_panicked]

/-- No accepted image is loadable, and every one whose segments can be mapped panics the kernel at its stack. -/
theorem accepted_not_loadable {bytes : Bytes} {spec : AddressSpaceSpec} {image : ProcessImage}
    (h : buildProcessImage bytes spec = .returned (.ok image)) :
    ¬ Loadable image ∧
      ∀ {σ : Type} (inner : OffsetPageTable σ) {s₁ s₂ s₃ : σ} {load : LoadResult} {frame : U64},
        (mapLoadPlan (X86PageTableMapper.mapper inner userRange) image.loadPlan).exec s₁ = .returned (.ok load, s₂) →
        inner.allocateFrame s₂ = (some frame, s₃) → frame % pageSize4K = 0 →
        (buildAddressSpace (X86PageTableMapper.mapper inner userRange) spec image).exec s₁ = .panicked := by
  refine ⟨fun hload => ?_, fun inner => buildAddressSpace_panics h inner⟩
  obtain ⟨-, hstack, -⟩ := buildProcessImage_eq_ok h
  obtain ⟨-, hlength, -⟩ := UserStackPlan.build_spec hstack
  have hpos : 0 < image.stackPlan.pages.length := by
    rw [hlength]
    decide
  have hmem := List.getElem_mem hpos
  have hlow := hload.stack _ hmem
  obtain ⟨hhole, -⟩ := stack_inHole h hmem
  omega

/-! ### A minimal image -/

namespace MinimalElf

/-- The image of the loader's own test is accepted with its stack from `0xffff_7fff_fffe_f000` on. -/
theorem stack_not_canonical : ∃ image, buildProcessImage bytes spec = .returned (.ok image) ∧ ¬ Loadable image := by
  refine ⟨image spec.id, builds spec.id, fun hload => ?_⟩
  have hpage : (⟨0xffff7ffffffef000, by decide⟩ : Page4K) ∈ (image spec.id).stackPlan.pages := by decide
  exact absurd (hload.stack _ hpage) (by decide)

theorem not_loadable : ∃ image, buildProcessImage bytes spec = .returned (.ok image) ∧ ¬ Loadable image :=
  ⟨image spec.id, builds spec.id, (accepted_not_loadable (builds spec.id)).1⟩

end MinimalElf

end X11Os
