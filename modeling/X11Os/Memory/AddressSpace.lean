import X11Os.Lib.Panics
import X11Os.Lib.Word

/-!
# Virtual-address policy

The declared user range, address ranges and 4 KiB pages (`memory/address_space.rs`, `memory/page.rs`), the layout of
the user stack (`memory/user_stack.rs`), the direct map (`memory/physical.rs`) and the contract of a read-only view of
an address space (`memory/page_table.rs`).
-/

namespace X11Os

open Word

def userSpaceStart : U64 := 0x0000000000010000
def kernelSpaceStart : U64 := 0xffff800000000000
def userImageBase : U64 := userSpaceStart + 0x100000

/-- The exclusive range `[start, stop)`; the constructor of the source refuses an inverted pair. -/
structure VirtRange where
  start : U64
  stop : U64
  ordered : start ≤ stop
deriving DecidableEq, Repr

namespace VirtRange

def new (start stop : U64) : Option VirtRange :=
  if h : start ≤ stop then some ⟨start, stop, h⟩ else none

def len (r : VirtRange) : U64 := r.stop - r.start

def isEmpty (r : VirtRange) : Bool := r.start == r.stop

def contains (r : VirtRange) (address : U64) : Bool := address ≥ r.start && address < r.stop

def isUser (r : VirtRange) : Bool := r.start ≥ userSpaceStart && r.stop ≤ kernelSpaceStart

theorem contains_iff {r : VirtRange} {address : U64} :
    r.contains address = true ↔ r.start.toNat ≤ address.toNat ∧ address.toNat < r.stop.toNat := by
  simp only [contains, Bool.and_eq_true, decide_eq_true_eq, ge_iff_le, BitVec.le_def, BitVec.lt_def]

end VirtRange

/-- The range that every view of a user address space declares. -/
def userRange : VirtRange := ⟨userSpaceStart, kernelSpaceStart, by decide⟩

theorem userRange_contains {a : U64} :
    userRange.contains a = true ↔ 0x10000 ≤ a.toNat ∧ a.toNat < 0xffff800000000000 :=
  VirtRange.contains_iff

/-! ### Pages -/

def pageSize4K : U64 := 4096

/-- A 4 KiB page, named by its aligned start address. -/
structure Page4K where
  startAddress : U64
  aligned : startAddress % pageSize4K = 0
deriving DecidableEq, Repr

namespace Page4K

def fromStartAddress (address : U64) : Option Page4K :=
  if h : address % pageSize4K = 0 then some ⟨address, h⟩ else none

theorem fromStartAddress_eq_some {address : U64} {page : Page4K} :
    fromStartAddress address = some page ↔ page.startAddress = address := by
  obtain ⟨start, haligned⟩ := page
  unfold fromStartAddress
  constructor
  · intro h
    split_ifs at h
    cases h
    rfl
  · intro h
    cases h
    exact dif_pos haligned

def endAddress (page : Page4K) : Option U64 := checkedAdd page.startAddress pageSize4K

def range (page : Page4K) : Option VirtRange := page.endAddress.bind fun stop => VirtRange.new page.startAddress stop

end Page4K

/-- The start of the page that holds an address, as the source computes it. -/
def pageStartOf (address : U64) : U64 := address / pageSize4K * pageSize4K

@[simp] theorem toNat_pageSize4K : pageSize4K.toNat = 4096 := rfl

@[simp] theorem toNat_pageStartOf (a : U64) : (pageStartOf a).toNat = a.toNat / 4096 * 4096 := by
  have ha := a.isLt
  rw [pageStartOf, BitVec.toNat_mul, BitVec.toNat_udiv, toNat_pageSize4K]
  omega

theorem aligned_iff {a : U64} : a % pageSize4K = 0 ↔ a.toNat % 4096 = 0 := by
  rw [← BitVec.toNat_inj, BitVec.toNat_umod, toNat_pageSize4K]
  rfl

/-- An aligned address is the start of its own page, and of the page of every address in it. -/
theorem pageStartOf_eq {p a : U64} (hp : p.toNat % 4096 = 0) (hle : p.toNat ≤ a.toNat)
    (hlt : a.toNat < p.toNat + 4096) : pageStartOf a = p := by
  apply BitVec.eq_of_toNat_eq
  rw [toNat_pageStartOf]
  omega

/-! ### The layout of a user address space -/

/-- The layout that image ranges are checked against.  Its stack ends a mebibyte below the end of user space. -/
structure UserAddressSpaceLayout where
  user : VirtRange
  stack : VirtRange
  guard : VirtRange
  imageBase : U64
deriving DecidableEq, Repr

namespace UserAddressSpaceLayout

def userStackTop : U64 := kernelSpaceStart - 0x100000
def userStackSize : U64 := 16 * 4096
def userStackGuardSize : U64 := 4096

def default : UserAddressSpaceLayout where
  user := userRange
  stack := ⟨userStackTop - userStackSize, userStackTop, by decide⟩
  guard := ⟨userStackTop - userStackSize - userStackGuardSize, userStackTop - userStackSize, by decide⟩
  imageBase := userImageBase

end UserAddressSpaceLayout

/-! ### The user stack

The stack that is mapped ends one page below the end of user space: `memory/user_stack.rs` has a top address of its
own. -/

def userStackPages : Nat := 16
def userStackSize : U64 := 16 * pageSize4K
def userStackTop : U64 := kernelSpaceStart - 0x1000
def userStackGuardSize : U64 := pageSize4K

def userStackRange : Option VirtRange :=
  match checkedSub userStackTop userStackSize with
  | none => none
  | some dataStart => VirtRange.new dataStart userStackTop

def userStackGuardRange : Option VirtRange :=
  match userStackRange with
  | none => none
  | some range =>
    match checkedSub range.start userStackGuardSize with
    | none => none
    | some guardStart => VirtRange.new guardStart range.start

def isValidUserStackPointer (rsp : U64) : Bool :=
  match userStackRange with
  | none => false
  | some range => rsp ≥ range.start && rsp ≤ range.stop && rsp % 16 == 0

/-! ### The direct map -/

structure PhysicalMemoryMapping where
  offset : U64
deriving DecidableEq, Repr

def PhysicalMemoryMapping.translate (m : PhysicalMemoryMapping) (physicalAddress : U64) : Option U64 :=
  checkedAdd m.offset physicalAddress

/-! ### Views -/

structure PageAccess where
  mapped : Bool
  user : Bool
  readable : Bool
  writable : Bool
  executable : Bool
deriving DecidableEq, Repr

namespace PageAccess

def unmapped : PageAccess := ⟨false, false, false, false, false⟩

def userReadOnly : PageAccess := ⟨true, true, true, false, false⟩

end PageAccess

/-- A read-only view of one address space.  An implementation may panic. -/
structure UserMemoryView where
  translate : U64 → Panics (Option U64)
  pageAccess : U64 → Panics PageAccess
  addressSpace : VirtRange

/-- The view reports the page mapped, user-accessible and readable. -/
def UserMemoryView.Readable (view : UserMemoryView) (page : U64) : Prop :=
  ∃ access, view.pageAccess page = .returned access ∧ access.mapped = true ∧ access.user = true ∧
    access.readable = true

end X11Os
