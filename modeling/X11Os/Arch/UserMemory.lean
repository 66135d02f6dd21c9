import X11Os.Memory.User

/-!
# User memory on x86_64

The read-only walk of the active page tables (`arch/x86_64/user_memory.rs`) and the copy backend over the direct map
(`arch/x86_64/user_copy.rs`).  `VirtAddr::new` panics on a non-canonical address; both functions of the view check the
declared user range before they call it, and that range contains non-canonical addresses.
-/

namespace X11Os

open Word

/-! ### Virtual addresses and page-table entries -/

/-- Bits 47 to 63 are all zero or all one. -/
def canonical (a : U64) : Bool := a.toNat / 2 ^ 47 == 0 || a.toNat / 2 ^ 47 == 2 ^ 17 - 1

structure VirtAddr where
  asU64 : U64
  isCanonical : canonical asU64 = true
deriving DecidableEq, Repr

def VirtAddr.new (a : U64) : Panics VirtAddr := if h : canonical a = true then .returned ⟨a, h⟩ else .panicked

/-- The index of an address at a level of the tree: nine bits from bit `shift` on. -/
def tableIndex (a : VirtAddr) (shift : Nat) : Fin 512 := ⟨a.asU64.toNat / 2 ^ shift % 512, Nat.mod_lt _ (by decide)⟩

/-- The indexes of the page that holds the address, from the root table down, with their level. -/
def pageIndexes (a : VirtAddr) : List (Nat × Fin 512) :=
  [(0, tableIndex a 39), (1, tableIndex a 30), (2, tableIndex a 21), (3, tableIndex a 12)]

structure PageTableEntry where
  raw : U64
deriving DecidableEq, Repr

namespace PageTableEntry

def present (e : PageTableEntry) : Bool := e.raw.getLsbD 0
def writable (e : PageTableEntry) : Bool := e.raw.getLsbD 1
def userAccessible (e : PageTableEntry) : Bool := e.raw.getLsbD 2
def hugePage (e : PageTableEntry) : Bool := e.raw.getLsbD 7
def noExecute (e : PageTableEntry) : Bool := e.raw.getLsbD 63
def addr (e : PageTableEntry) : U64 := e.raw &&& 0x000ffffffffff000

end PageTableEntry

abbrev PageTable := Fin 512 → PageTableEntry

/-- The flags that a walk accumulates over the levels. -/
structure PageTableFlags where
  userAccessible : Bool
  writable : Bool
  noExecute : Bool
deriving DecidableEq, Repr

/-! ### The active address space -/

/-- The root table of the active address space and, for every kernel address, the table that memory holds there. -/
structure X86ActiveUserMemory where
  table : PageTable
  physicalOffset : U64
  tableAt : U64 → PageTable

/-- What both walks do first: an address outside the declared range is not mapped, any other goes through
`VirtAddr::new`. -/
def atUserAddress {α : Type} (virtualAddress : U64) (walk : VirtAddr → Option α) : Panics (Option α) :=
  if !userRange.contains virtualAddress then .returned none
  else (VirtAddr.new virtualAddress).bind fun a => .returned (walk a)

/-- The addresses of the declared user range that `VirtAddr::new` refuses. -/
def InHole (a : U64) : Prop := 2 ^ 47 ≤ a.toNat ∧ a.toNat < 0xffff800000000000

private theorem atUserAddress_panics {α : Type} {a : U64} (walk : VirtAddr → Option α) :
    atUserAddress a walk = .panicked ↔ InHole a := by
  unfold atUserAddress InHole
  cases huser : userRange.contains a with
  | false =>
    simp only [Bool.not_false, if_true, reduceCtorEq, false_iff]
    intro h
    have := userRange_contains.mpr ⟨by omega, h.2⟩
    rw [huser] at this
    cases this
  | true =>
    obtain ⟨-, hlt⟩ := userRange_contains.mp huser
    have hcan : canonical a = true ↔ a.toNat < 2 ^ 47 := by
      simp only [canonical, Bool.or_eq_true, beq_iff_eq]
      omega
    simp only [Bool.not_true, Bool.false_eq_true, if_false]
    unfold VirtAddr.new
    split_ifs with h
    · simp only [Panics.bind_returned, reduceCtorEq, false_iff]
      have := hcan.mp h
      omega
    · simp only [Panics.bind_panicked, true_iff]
      refine ⟨?_, hlt⟩
      by_contra hlow
      exact h (hcan.mpr (by omega))

namespace X86ActiveUserMemory

/-- The walk ends at this entry: the last level, or a huge page on one of the two levels that allow it. -/
def isLeaf (level : Nat) (entry : PageTableEntry) : Bool :=
  level == 3 || ((level == 1 || level == 2) && entry.hugePage)

def flagsWalk (mem : X86ActiveUserMemory) : List (Nat × Fin 512) → PageTable → PageTableFlags → Option PageTableFlags
  | [], _, _ => none
  | (level, index) :: rest, table, flags =>
    let entry := table index
    if !entry.present then none
    else
      let flags := { userAccessible := flags.userAccessible && entry.userAccessible
                     writable := flags.writable && entry.writable
                     noExecute := flags.noExecute || entry.noExecute }
      if isLeaf level entry then some flags
      else
        match checkedAdd mem.physicalOffset entry.addr with
        | none => none
        | some next => mem.flagsWalk rest (mem.tableAt next) flags

def flags (mem : X86ActiveUserMemory) (virtualAddress : U64) : Panics (Option PageTableFlags) :=
  atUserAddress virtualAddress fun a => mem.flagsWalk (pageIndexes a) mem.table ⟨true, true, false⟩

/-- The size of the page that an entry of the level maps. -/
def pageSizeAt : Nat → U64
  | 1 => 0x40000000
  | 2 => 0x200000
  | _ => 0x1000

def translateWalk (mem : X86ActiveUserMemory) (virtualAddress : U64) : List (Nat × Fin 512) → PageTable → Option U64
  | [], _ => none
  | (level, index) :: rest, table =>
    let entry := table index
    if !entry.present then none
    else if isLeaf level entry then checkedAdd entry.addr (virtualAddress &&& (pageSizeAt level - 1))
    else
      match checkedAdd mem.physicalOffset entry.addr with
      | none => none
      | some next => mem.translateWalk virtualAddress rest (mem.tableAt next)

def translate (mem : X86ActiveUserMemory) (virtualAddress : U64) : Panics (Option U64) :=
  atUserAddress virtualAddress fun a => mem.translateWalk virtualAddress (pageIndexes a) mem.table

def pageAccess (mem : X86ActiveUserMemory) (virtualAddress : U64) : Panics PageAccess :=
  (mem.flags virtualAddress).bind fun
    | none => .returned .unmapped
    | some flags => .returned {
        mapped := true
        user := flags.userAccessible
        readable := true
        writable := flags.writable
        executable := !flags.noExecute }

def view (mem : X86ActiveUserMemory) : UserMemoryView where
  translate := mem.translate
  pageAccess := mem.pageAccess
  addressSpace := userRange

/-! ### Where the view panics -/

theorem translate_panics {mem : X86ActiveUserMemory} {a : U64} : mem.translate a = .panicked ↔ InHole a :=
  atUserAddress_panics _

theorem pageAccess_panics {mem : X86ActiveUserMemory} {a : U64} : mem.pageAccess a = .panicked ↔ InHole a := by
  have hflags : mem.flags a = .panicked ↔ InHole a := atUserAddress_panics _
  rw [← hflags]
  unfold pageAccess
  cases h : mem.flags a with
  | panicked => simp
  | returned flags => cases flags <;> simp

end X86ActiveUserMemory

/-! ### The copy backend -/

/-- The copy loop: `copied` bytes are already in `done`.  A round copies at least one byte, so `fuel` rounds are
enough for a destination of `fuel` bytes. -/
def copyChunks (view : UserMemoryView) (physicalMemory : PhysicalMemoryMapping) (memory : U64 → U8) (src : U64)
    (len : Nat) : Nat → List U8 → Panics (Except UserReadError (List U8))
  | 0, done => .returned (.ok done)
  | fuel + 1, done =>
    let copied := done.length
    if copied < len then
      match checkedAdd src (BitVec.ofNat 64 copied) with
      | none => .returned (.error .pageAddressOverflow)
      | some virtualAddress =>
        (view.translate virtualAddress).bind fun
          | none => .returned (.error .unmapped)
          | some physicalAddress =>
            match physicalMemory.translate physicalAddress with
            | none => .returned (.error .backendFailure)
            | some kernelAddress =>
              let pageOffset := virtualAddress.toNat % 4096
              let chunkLen := min (4096 - pageOffset) (len - copied)
              copyChunks view physicalMemory memory src len fuel (done ++ readBytes memory kernelAddress chunkLen)
    else .returned (.ok done)

private theorem copyChunks_length {view : UserMemoryView} {physicalMemory : PhysicalMemoryMapping} {memory : U64 → U8}
    {src : U64} {len fuel : Nat} {done bytes : List U8} (hdone : done.length ≤ len) (hfuel : len ≤ done.length + fuel)
    (h : copyChunks view physicalMemory memory src len fuel done = .returned (.ok bytes)) : bytes.length = len := by
  induction fuel generalizing done with
  | zero =>
    cases h
    omega
  | succ fuel ih =>
    unfold copyChunks at h
    dsimp only at h
    split at h
    · split at h
      · cases h
      · rename_i va hva
        cases htr : view.translate va with
        | panicked => rw [htr] at h; cases h
        | returned pa =>
          rw [htr, Panics.bind_returned] at h
          cases pa with
          | none => cases h
          | some pa =>
            dsimp only at h
            split at h
            · cases h
            · have hlen : ∀ ka n, (done ++ readBytes memory ka n).length = done.length + n := by
                intro ka n
                simp
              refine ih ?_ ?_ h
              · rw [hlen]
                omega
              · rw [hlen]
                omega
    · cases h
      omega

/-- The copy does not panic if the view does not panic on the addresses of the source. -/
theorem copyChunks_returns {view : UserMemoryView} {physicalMemory : PhysicalMemoryMapping} {memory : U64 → U8}
    {src : U64} {len fuel : Nat} {done : List U8}
    (hview : ∀ a : U64, src.toNat ≤ a.toNat → a.toNat < src.toNat + len → view.translate a ≠ .panicked) :
    copyChunks view physicalMemory memory src len fuel done ≠ .panicked := by
  induction fuel generalizing done with
  | zero => simp [copyChunks]
  | succ fuel ih =>
    unfold copyChunks
    dsimp only
    split_ifs with hlt
    · split
      · simp
      · rename_i va hva
        have hva := checkedAdd_eq_some.mp hva
        have hofs : (BitVec.ofNat 64 done.length).toNat ≤ done.length := by
          rw [BitVec.toNat_ofNat]
          exact Nat.mod_le _ _
        -- the address of a round lies in the source
        cases htr : view.translate va with
        | panicked => exact absurd htr (hview va (by omega) (by omega))
        | returned pa =>
          rw [Panics.bind_returned]
          cases pa with
          | none => simp
          | some pa =>
            dsimp only
            split
            · simp
            · exact ih
    · simp

/-- `X86UserCopyBackend`: translates page by page through the view and reads the direct map. -/
def x86UserCopyBackend (view : UserMemoryView) (physicalMemory : PhysicalMemoryMapping) (memory : U64 → U8) :
    UserCopyBackend where
  copyFromUser src n := copyChunks view physicalMemory memory src n n []
  length_copied _ n _ h := by
    refine copyChunks_length ?_ ?_ h <;> simp

end X11Os
