import X11Os.Memory.AddressSpace

/-!
# The mapping contract

What process construction may ask of a page-table backend (`memory/page_table.rs`).  Every operation works on the
state of the backend; only the operations that compute a virtual address for the hardware may panic.
-/

namespace X11Os

open Word

inductive MappingError where
  | invalidVirtualAddress
  | invalidPhysicalAddress
  | outsideAddressSpace
  | alreadyMapped
  | notMapped
  | parentEntryHugePage
  | frameAllocationFailed
  | invalidMappedFrame
  | backendFailure
deriving DecidableEq, Repr

/-- A set of the bits READ, WRITE and EXECUTE. -/
structure MappingFlags where
  bits : U8
deriving DecidableEq, Repr

namespace MappingFlags

def read : U8 := 1
def write : U8 := 2
def execute : U8 := 4

def readOnly : MappingFlags := ⟨read⟩
def readWrite : MappingFlags := ⟨read ||| write⟩
def readExecute : MappingFlags := ⟨read ||| execute⟩
def readWriteExecute : MappingFlags := ⟨read ||| write ||| execute⟩

def writable (f : MappingFlags) : Bool := f.bits &&& write != 0
def executable (f : MappingFlags) : Bool := f.bits &&& execute != 0
def isWritableExecutable (f : MappingFlags) : Bool := f.writable && f.executable

end MappingFlags

/-- A page-table backend with state `σ`.  A frame is named by its physical address. -/
structure PageTableMapper (σ : Type) where
  allocateFrame : σ → Option U64 × σ
  mapPage : Page4K → U64 → MappingFlags → Exec σ MappingError Unit
  unmapPage : Page4K → Exec σ MappingError U64
  pageAccess : U64 → σ → Panics PageAccess

namespace PageTableMapper

variable {σ ε : Type}

def allocate (mapper : PageTableMapper σ) : Exec σ ε (Option U64) := modifyGet mapper.allocateFrame

/-- The access that the current state of the backend reports. -/
def access (mapper : PageTableMapper σ) (virtualAddress : U64) : Exec σ ε PageAccess := do
  let s ← get
  mapper.pageAccess virtualAddress s

end PageTableMapper

end X11Os
