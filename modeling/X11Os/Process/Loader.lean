import X11Os.Memory.PageTable
import X11Os.Process.LoadPlan

/-!
# Building an address space

Mapping of a load plan and of a stack through any page-table backend, with the rollback of what is mapped when a step
fails (`process/loader.rs`, `process/address_space_builder.rs`).
-/

namespace X11Os

open Word

variable {σ : Type}

/-! ### Mapping the segments -/

inductive LoadError where
  | invalidPage
  | mapping (error : MappingError)
  | tooManyPages
  | invalidFlags
  | rollbackFailed
deriving DecidableEq, Repr

def maxMappedPages : Nat := 128

structure MappedPage where
  virtualAddress : U64
  physicalAddress : U64
deriving DecidableEq, Repr

/-- The pages that a load has mapped, in order. -/
structure LoadResult where
  entry : U64
  pages : List MappedPage
deriving DecidableEq, Repr

def flagsFromElf (flags : U32) : Option MappingFlags :=
  let writable := flags &&& 2 != 0
  let executable := flags &&& 1 != 0
  match writable, executable with
  | false, false => some .readOnly
  | true, false => some .readWrite
  | false, true => some .readExecute
  | true, true => none

/-- Unmaps the pages in the order given; the caller reverses the order of mapping. -/
def unmapAll (mapper : PageTableMapper σ) : List MappedPage → Exec σ LoadError Unit
  | [] => return ()
  | mapped :: rest => do
    let page ← okOr (Page4K.fromStartAddress mapped.virtualAddress) .invalidPage
    let _ ← mapErr (fun _ => .rollbackFailed) (mapper.unmapPage page)
    unmapAll mapper rest

def rollback (mapper : PageTableMapper σ) (pages : List MappedPage) : Exec σ LoadError Unit :=
  unmapAll mapper pages.reverse

/-- Roll back what is mapped, then fail. -/
def failLoad (mapper : PageTableMapper σ) (pages : List MappedPage) {α : Type} (error : LoadError) :
    Exec σ LoadError α := do
  rollback mapper pages
  throw error

/-- The page loop of one segment.  `room` is the number of pages that the result can still take. -/
def mapSegment (mapper : PageTableMapper σ) (flags : MappingFlags) (stop : U64) :
    Nat → U64 → List MappedPage → Exec σ LoadError (List MappedPage)
  | room, address, pages => do
    if address < stop then
      match room with
      | 0 => failLoad mapper pages .tooManyPages
      | room + 1 =>
        match Page4K.fromStartAddress address with
        | none => failLoad mapper pages .invalidPage
        | some page =>
          match ← mapper.allocate with
          | none => failLoad mapper pages (.mapping .frameAllocationFailed)
          | some frame =>
            -- the error is caught here, because the rollback comes before the early return
            match ← ExceptT.lift (mapper.mapPage page frame flags).run with
            | .error error => failLoad mapper pages (.mapping error)
            | .ok () =>
              let pages := pages ++ [⟨address, frame⟩]
              match checkedAdd address pageSize4K with
              | none => failLoad mapper pages .invalidPage
              | some address => mapSegment mapper flags stop room address pages
    else return pages

def mapSegments (mapper : PageTableMapper σ) :
    List SegmentMapping → List MappedPage → Exec σ LoadError (List MappedPage)
  | [], pages => return pages
  | segment :: rest, pages => do
    -- an early return without a rollback: the segments before this one stay mapped
    let flags ← okOr (flagsFromElf segment.flags) .invalidFlags
    let range := segment.virtualRange
    let pages ← mapSegment mapper flags range.stop (maxMappedPages - pages.length) range.start pages
    mapSegments mapper rest pages

def mapLoadPlan (mapper : PageTableMapper σ) (plan : LoadPlan) : Exec σ LoadError LoadResult := do
  let pages ← mapSegments mapper plan.segments []
  return ⟨plan.entry, pages⟩

/-! ### Mapping the stack -/

inductive AddressSpaceBuildError where
  | addressSpaceMismatch
  | image (error : LoadError)
  | stackMappingFailed
  | entryUnmapped
  | entryNotExecutable
  | stackUnmapped
  | stackNotWritable
  | stackExecutable
  | rollbackFailed
deriving DecidableEq, Repr

structure MappedStackPage where
  virtualPage : Page4K
  physicalAddress : U64
deriving DecidableEq, Repr

structure BuiltAddressSpace where
  image : ProcessImage
  load : LoadResult
  stackPages : List MappedStackPage
  entryExecutable : Bool
  stackWritable : Bool
  stackExecutable : Bool
deriving DecidableEq, Repr

def BuiltAddressSpace.stackPage (built : BuiltAddressSpace) (index : Nat) : Option MappedStackPage :=
  if index ≥ built.stackPages.length then none else built.stackPages[index]?

def unmapStack (mapper : PageTableMapper σ) : List MappedStackPage → Exec σ AddressSpaceBuildError Unit
  | [] => return ()
  | mapped :: rest => do
    let _ ← mapErr (fun _ => .rollbackFailed) (mapper.unmapPage mapped.virtualPage)
    unmapStack mapper rest

def unmapLoad (mapper : PageTableMapper σ) : List MappedPage → Exec σ AddressSpaceBuildError Unit
  | [] => return ()
  | mapped :: rest => do
    let page ← okOr (Page4K.fromStartAddress mapped.virtualAddress) .rollbackFailed
    let _ ← mapErr (fun _ => .rollbackFailed) (mapper.unmapPage page)
    unmapLoad mapper rest

def rollbackStack (mapper : PageTableMapper σ) (pages : List MappedStackPage) : Exec σ AddressSpaceBuildError Unit :=
  unmapStack mapper pages.reverse

def rollbackLoad (mapper : PageTableMapper σ) (load : LoadResult) : Exec σ AddressSpaceBuildError Unit :=
  unmapLoad mapper load.pages.reverse

/-- Roll back the stack, then the segments, then fail. -/
def failBuild (mapper : PageTableMapper σ) (load : LoadResult) (stack : List MappedStackPage) {α : Type}
    (error : AddressSpaceBuildError) : Exec σ AddressSpaceBuildError α := do
  rollbackStack mapper stack
  rollbackLoad mapper load
  throw error

def mapStack (mapper : PageTableMapper σ) (load : LoadResult) :
    List Page4K → List MappedStackPage → Exec σ AddressSpaceBuildError (List MappedStackPage)
  | [], mapped => return mapped
  | page :: rest, mapped => do
    match ← mapper.allocate with
    | none => failBuild mapper load mapped .stackMappingFailed
    | some frame =>
      match ← ExceptT.lift (mapper.mapPage page frame .readWrite).run with
      | .error _ => failBuild mapper load mapped .stackMappingFailed
      | .ok () => mapStack mapper load rest (mapped ++ [⟨page, frame⟩])

/-! ### The whole address space -/

def buildAddressSpace (mapper : PageTableMapper σ) (spec : AddressSpaceSpec) (image : ProcessImage) :
    Exec σ AddressSpaceBuildError BuiltAddressSpace := do
  reject (image.addressSpace.id ≠ spec.id) .addressSpaceMismatch
  let load ← mapErr .image (mapLoadPlan mapper image.loadPlan)
  let stack ← mapStack mapper load image.stackPlan.pages []
  let entryAccess ← mapper.access load.entry
  if !entryAccess.mapped || !entryAccess.user then failBuild mapper load stack .entryUnmapped
  else if !entryAccess.executable then failBuild mapper load stack .entryNotExecutable
  else
    -- no rollback on this way out either; a stack that has been planned never ends at 0
    let stackTopMinusOne ← okOr (checkedSub image.stackPlan.initialRsp 1) .stackUnmapped
    let stackAccess ← mapper.access stackTopMinusOne
    if !stackAccess.mapped || !stackAccess.user then failBuild mapper load stack .stackUnmapped
    else if !stackAccess.writable then failBuild mapper load stack .stackNotWritable
    else if stackAccess.executable then failBuild mapper load stack .stackExecutable
    else return {
      image := image
      load := load
      stackPages := stack
      entryExecutable := entryAccess.executable
      stackWritable := stackAccess.writable
      stackExecutable := stackAccess.executable }

end X11Os
