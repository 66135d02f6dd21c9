import X11Os.Process.Image

/-!
# Process images

From a validated ELF image to the plan of a process: the page ranges of its segments (`process/load_plan.rs`), the
pages of its stack (`process/stack.rs`), its initial context (`process/initial_context.rs`) and the process image that
puts them together (`process/image_state.rs`, `process/ramdisk_image.rs`).  Nothing is mapped yet.
-/

namespace X11Os

open Word

/-! ### Address spaces -/

/-- The identity of an address space; zero is not one. -/
structure AddressSpaceId where
  raw : U64
  ne_zero : raw ≠ 0
deriving Repr

private theorem AddressSpaceId.eq_iff {a b : AddressSpaceId} : a = b ↔ a.raw = b.raw := by
  cases a
  cases b
  rw [mk.injEq]

instance : DecidableEq AddressSpaceId := fun _ _ => decidable_of_iff' _ AddressSpaceId.eq_iff

/-- The address space of the sample processes. -/
theorem AddressSpaceId.sample_ne_zero : (1 : U64) ≠ 0 := by decide

def AddressSpaceId.new (raw : U64) : Option AddressSpaceId := if h : raw = 0 then none else some ⟨raw, h⟩

/-- The only constructor of the source gives every address space the default layout. -/
structure AddressSpaceSpec where
  id : AddressSpaceId
deriving DecidableEq, Repr

inductive AddressSpaceError where
  | invalidUserRange
  | imageOutsideUserSpace
  | stackOverlapsGuard
deriving DecidableEq, Repr

namespace AddressSpaceSpec

def layout (_ : AddressSpaceSpec) : UserAddressSpaceLayout := .default

def validateUserRange (spec : AddressSpaceSpec) (range : VirtRange) : Except AddressSpaceError Unit :=
  if !range.isUser then .error .invalidUserRange
  else if range.start < spec.layout.user.start ∨ range.stop > spec.layout.user.stop then .error .invalidUserRange
  else if range.stop > spec.layout.guard.start ∧ range.start < spec.layout.guard.stop then .error .stackOverlapsGuard
  else .ok ()

def validateImageRange (spec : AddressSpaceSpec) (range : VirtRange) : Except AddressSpaceError Unit :=
  match spec.validateUserRange range with
  | .error error => .error error
  | .ok () =>
    if range.start < spec.layout.imageBase ∨ range.start ≥ spec.layout.stack.start then .error .imageOutsideUserSpace
    else .ok ()

end AddressSpaceSpec

/-! ### Load plans -/

inductive LoadPlanError where
  | addressSpace (error : AddressSpaceError)
  | segmentOverlap
  | writableExecutableSegment
  | invalidEntry
  | tooManySegments
deriving DecidableEq, Repr

structure SegmentMapping where
  virtualRange : VirtRange
  flags : U32
deriving DecidableEq, Repr

structure LoadPlan where
  entry : U64
  segments : List SegmentMapping
deriving DecidableEq, Repr

/-- The mask that clears the offset within a page. -/
def pageMask : U64 := ~~~(pageSize4K - 1)

/-- The pages that a segment touches. -/
def mapSpan (segment : LoadSegment) : Except LoadPlanError VirtRange :=
  let range := segment.virtualRange
  match checkedAdd range.stop (pageSize4K - 1) with
  | none => .error (.addressSpace .invalidUserRange)
  | some value =>
    match VirtRange.new (range.start &&& pageMask) (value &&& pageMask) with
    | none => .error (.addressSpace .invalidUserRange)
    | some mapped => .ok mapped

def rangesOverlap (left right : VirtRange) : Bool := left.start < right.stop && right.start < left.stop

namespace LoadPlan

/-- The loop over the segments, with the mappings so far and whether an executable one holds the entry. -/
def buildSegments (spec : AddressSpaceSpec) (entry : U64) :
    List LoadSegment → List SegmentMapping × Bool → Except LoadPlanError (List SegmentMapping × Bool)
  | [], planned => .ok planned
  | segment :: rest, (segments, entryExecutable) =>
    match mapSpan segment with
    | .error error => .error error
    | .ok mapped =>
      match spec.validateImageRange mapped with
      | .error error => .error (.addressSpace error)
      | .ok () =>
        if segment.writable && segment.executable then .error .writableExecutableSegment
        else if segments.any fun prior => rangesOverlap mapped prior.virtualRange then .error .segmentOverlap
        else buildSegments spec entry rest (segments ++ [⟨mapped, segment.flags⟩],
          entryExecutable || (segment.executable && mapped.contains entry))

def build (spec : AddressSpaceSpec) (image : ElfImage) : Except LoadPlanError LoadPlan :=
  if image.segments.length > maxSegments then .error .tooManySegments
  else
    match buildSegments spec image.entry image.segments ([], false) with
    | .error error => .error error
    | .ok (segments, entryExecutable) =>
      if !entryExecutable then .error .invalidEntry else .ok ⟨image.entry, segments⟩

end LoadPlan

/-! ### Stack plans -/

inductive StackPlanError where
  | invalidRange
  | invalidPage
deriving DecidableEq, Repr

structure UserStackPlan where
  pages : List Page4K
  initialRsp : U64
deriving DecidableEq, Repr

namespace UserStackPlan

/-- The loop over the addresses of the stack.  `room` is the number of entries that the page table of the plan has
left; an entry beyond them is an index out of bounds. -/
def collectPages (stop : U64) : Nat → U64 → List Page4K → Panics (Except StackPlanError (List Page4K))
  | room, address, pages =>
    if address < stop then
      match Page4K.fromStartAddress address with
      | none => .returned (.error .invalidPage)
      | some page =>
        match room with
        | 0 => .panicked
        | room + 1 =>
          match checkedAdd address pageSize4K with
          | none => .returned (.error .invalidRange)
          | some address => collectPages stop room address (pages ++ [page])
    else .returned (.ok pages)

def build : Panics (Except StackPlanError UserStackPlan) :=
  match userStackRange with
  | none => .returned (.error .invalidRange)
  | some range =>
    (collectPages range.stop userStackPages range.start []).attempt fun pages =>
      if pages.length ≠ userStackPages then .returned (.error .invalidRange)
      else .returned (.ok ⟨pages, range.stop⟩)

end UserStackPlan

/-! ### Process images -/

structure InitialContext where
  entry : U64
  stackPointer : U64
deriving DecidableEq, Repr

inductive InitialContextError where
  | invalidEntry
  | invalidStackPointer
deriving DecidableEq, Repr

def InitialContext.new (entry stackPointer : U64) : Except InitialContextError InitialContext :=
  if entry < userSpaceStart ∨ entry ≥ kernelSpaceStart then .error .invalidEntry
  else if !isValidUserStackPointer stackPointer then .error .invalidStackPointer
  else .ok ⟨entry, stackPointer⟩

structure ProcessImage where
  addressSpace : AddressSpaceSpec
  loadPlan : LoadPlan
  stackPlan : UserStackPlan
  context : InitialContext
deriving DecidableEq, Repr

inductive ProcessImageError where
  | invalidContext
deriving DecidableEq, Repr

def ProcessImage.build (addressSpace : AddressSpaceSpec) (loadPlan : LoadPlan) (stackPlan : UserStackPlan) :
    Except ProcessImageError ProcessImage :=
  match InitialContext.new loadPlan.entry stackPlan.initialRsp with
  | .error _ => .error .invalidContext
  | .ok context => .ok ⟨addressSpace, loadPlan, stackPlan, context⟩

inductive RamdiskImageError where
  | elf (error : ElfError)
  | loadPlan (error : LoadPlanError)
  | stack (error : StackPlanError)
  | image (error : ProcessImageError)
deriving DecidableEq, Repr

def buildProcessImage (bytes : Bytes) (addressSpace : AddressSpaceSpec) :
    Panics (Except RamdiskImageError ProcessImage) :=
  match (ElfImage.parse bytes).run with
  | .panicked => .panicked
  | .returned (.error error) => .returned (.error (.elf error))
  | .returned (.ok image) =>
    match LoadPlan.build addressSpace image with
    | .error error => .returned (.error (.loadPlan error))
    | .ok loadPlan =>
      match UserStackPlan.build with
      | .panicked => .panicked
      | .returned (.error error) => .returned (.error (.stack error))
      | .returned (.ok stackPlan) =>
        match ProcessImage.build addressSpace loadPlan stackPlan with
        | .error error => .returned (.error (.image error))
        | .ok image => .returned (.ok image)

/-- An accepted image is made of the plans of its parts. -/
theorem buildProcessImage_eq_ok {bytes : Bytes} {spec : AddressSpaceSpec} {image : ProcessImage}
    (h : buildProcessImage bytes spec = .returned (.ok image)) :
    image.addressSpace = spec ∧ UserStackPlan.build = .returned (.ok image.stackPlan) ∧
      ∃ elf, (ElfImage.parse bytes).run = .returned (.ok elf) ∧ LoadPlan.build spec elf = .ok image.loadPlan := by
  unfold buildProcessImage at h
  split at h <;> try cases h
  rename_i elf hparse
  split at h <;> try cases h
  rename_i loadPlan hload
  split at h <;> try cases h
  rename_i stackPlan hstack
  split at h <;> try cases h
  rename_i himage
  unfold ProcessImage.build at himage
  split at himage <;> cases himage
  exact ⟨rfl, hstack, elf, hparse, hload⟩

/-- The plans do not depend on the address space that they are for. -/
private theorem buildProcessImage_of_spec {bytes : Bytes} {spec : AddressSpaceSpec} {image : ProcessImage}
    (h : buildProcessImage bytes spec = .returned (.ok image)) (spec' : AddressSpaceSpec) :
    buildProcessImage bytes spec' = .returned (.ok { image with addressSpace := spec' }) := by
  have hsegments : ∀ entry segments planned,
      LoadPlan.buildSegments spec' entry segments planned = LoadPlan.buildSegments spec entry segments planned := by
    intro entry segments
    induction segments with
    | nil => exact fun _ => rfl
    | cons segment rest ih =>
      intro planned
      have hrange : spec'.validateImageRange = spec.validateImageRange := rfl
      simp only [LoadPlan.buildSegments, hrange, ih]
  have hplan : ∀ elf, LoadPlan.build spec' elf = LoadPlan.build spec elf := by
    intro elf
    simp only [LoadPlan.build, hsegments]
  unfold buildProcessImage at h ⊢
  split at h <;> try cases h
  simp only [hplan]
  split at h <;> try cases h
  split at h <;> try cases h
  split at h <;> try cases h
  rename_i himage
  unfold ProcessImage.build at himage ⊢
  split at himage <;> cases himage
  rfl

/-- The context of an accepted image is its entry and the top of its stack. -/
theorem buildProcessImage_context {bytes : Bytes} {spec : AddressSpaceSpec} {image : ProcessImage}
    (h : buildProcessImage bytes spec = .returned (.ok image)) :
    InitialContext.new image.loadPlan.entry image.stackPlan.initialRsp = .ok image.context := by
  unfold buildProcessImage at h
  split at h <;> try cases h
  split at h <;> try cases h
  split at h <;> try cases h
  split at h <;> try cases h
  rename_i himage
  unfold ProcessImage.build at himage
  split at himage <;> cases himage
  assumption

/-! ### The stack of every image -/

/-- Every call of `UserStackPlan::build` returns the sixteen pages below the top of the stack. -/
theorem UserStackPlan.build_spec {plan : UserStackPlan} (h : UserStackPlan.build = .returned (.ok plan)) :
    plan.initialRsp = userStackTop ∧ plan.pages.length = userStackPages ∧
      ∀ page ∈ plan.pages, userStackTop - userStackSize ≤ page.startAddress ∧ page.startAddress < userStackTop := by
  have hbuild : ∃ plan', UserStackPlan.build = .returned (.ok plan') ∧ plan'.initialRsp = userStackTop ∧
      plan'.pages.length = userStackPages ∧ ∀ page ∈ plan'.pages,
        userStackTop - userStackSize ≤ page.startAddress ∧ page.startAddress < userStackTop :=
    ⟨_, rfl, by decide, by decide, by decide⟩
  obtain ⟨plan', hplan', hspec⟩ := hbuild
  rw [hplan'] at h
  cases h
  exact hspec

/-- The stack pointer of a plan is aligned, and it is the end of its topmost page. -/
theorem UserStackPlan.build_top {plan : UserStackPlan} (h : UserStackPlan.build = .returned (.ok plan)) :
    plan.initialRsp % 16 = 0 ∧ ∃ top ∈ plan.pages, top.endAddress = some plan.initialRsp ∧
      ∀ page ∈ plan.pages, page.startAddress ≤ top.startAddress := by
  have hbuild : ∃ plan', UserStackPlan.build = .returned (.ok plan') ∧ plan'.initialRsp % 16 = 0 ∧
      ∃ top ∈ plan'.pages, top.endAddress = some plan'.initialRsp ∧
        ∀ page ∈ plan'.pages, page.startAddress ≤ top.startAddress :=
    ⟨_, rfl, by decide, by decide⟩
  obtain ⟨plan', hplan', hspec⟩ := hbuild
  rw [hplan'] at h
  cases h
  exact hspec

/-! ### A minimal image -/

namespace MinimalElf

/-- The header: entry `0x401001`, one program header right behind it. -/
def header : List U8 :=
  Elf.magic ++ [2, 1] ++ List.replicate 10 0 ++ [2, 0, 62, 0] ++ List.replicate 4 0 ++
    [0x01, 0x10, 0x40, 0, 0, 0, 0, 0] ++ [64, 0, 0, 0, 0, 0, 0, 0] ++ List.replicate 14 0 ++ [56, 0, 1, 0] ++
    List.replicate 6 0

/-- A readable and executable segment at `0x401001`, 16 bytes of the file and a page of memory. -/
def programHeader : List U8 :=
  [1, 0, 0, 0] ++ [5, 0, 0, 0] ++ List.replicate 8 0 ++ [0x01, 0x10, 0x40, 0, 0, 0, 0, 0] ++ List.replicate 8 0 ++
    [16, 0, 0, 0, 0, 0, 0, 0] ++ [0x00, 0x10, 0, 0, 0, 0, 0, 0] ++ List.replicate 8 0

def bytes : Bytes := ⟨header ++ programHeader, by decide⟩

def spec : AddressSpaceSpec := ⟨⟨11, by decide⟩⟩

/-- The sixteen pages below the top of the stack. -/
def stackPages : List Page4K :=
  (List.range 16).filterMap fun i => Page4K.fromStartAddress (userStackTop - userStackSize + 4096 * BitVec.ofNat 64 i)

/-- The process image for an address space. -/
def image (id : AddressSpaceId) : ProcessImage :=
  ⟨⟨id⟩, ⟨0x401001, [⟨⟨0x401000, 0x403000, by decide⟩, 5⟩]⟩, ⟨stackPages, userStackTop⟩, ⟨0x401001, userStackTop⟩⟩

/-- It is what the bytes are planned to. -/
theorem builds (id : AddressSpaceId) : buildProcessImage bytes ⟨id⟩ = .returned (.ok (image id)) := by
  have hbuilds : buildProcessImage bytes spec = .returned (.ok (image spec.id)) := by decide +kernel
  exact buildProcessImage_of_spec hbuilds ⟨id⟩

/-- The planned ranges, if the image is accepted. -/
def plannedRanges : Option (List (U64 × U64)) :=
  match (ElfImage.parse bytes).run with
  | .returned (.ok image) =>
    match LoadPlan.build spec image with
    | .ok plan => some (plan.segments.map fun m => (m.virtualRange.start, m.virtualRange.stop))
    | .error _ => none
  | _ => none

/-- The segment lies in two pages. -/
theorem planned : ∃ image plan, (ElfImage.parse bytes).run = .returned (.ok image) ∧
    LoadPlan.build spec image = .ok plan ∧
    plan.segments.map (fun m => (m.virtualRange.start, m.virtualRange.stop)) = [(0x401000, 0x403000)] := by
  have hranges : plannedRanges = some [(0x401000, 0x403000)] := by decide +kernel
  unfold plannedRanges at hranges
  split at hranges
  · rename_i image hparse
    split at hranges
    · rename_i plan hplan
      exact ⟨image, plan, hparse, hplan, Option.some.inj hranges⟩
    · cases hranges
  · cases hranges

end MinimalElf

end X11Os
