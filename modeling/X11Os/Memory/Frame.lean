import X11Os.Lib.Bytes
import X11Os.Lib.Supply

/-!
# The early frame allocator

The allocator of 4 KiB frames over the memory map of the boot loader (`memory/frame.rs`, `memory/region.rs`).  A
cursor moves through the usable regions; single frames and contiguous runs are taken from the same cursor.

Every frame that is handed out begins inside a usable region.  Whether it also ends there is a matter of the region:
the single-frame path asks only that the cursor is below the end of the region.
-/

namespace X11Os

open Word

/-- The kinds of the boot loader.  The enumeration is open; the allocator asks for `usable` only. -/
inductive MemoryRegionKind where
  | usable
  | bootloader
  | unknownUefi (tag : U32)
  | unknownBios (tag : U32)
deriving DecidableEq, Repr

structure MemoryRegion where
  start : U64
  stop : U64
  kind : MemoryRegionKind
deriving DecidableEq, Repr

structure PhysRange where
  start : U64
  stop : U64
  ordered : start ≤ stop
deriving Repr

private theorem PhysRange.eq_iff {a b : PhysRange} : a = b ↔ a.start = b.start ∧ a.stop = b.stop := by
  cases a
  cases b
  rw [mk.injEq]

instance : DecidableEq PhysRange := fun _ _ => decidable_of_iff' _ PhysRange.eq_iff

def PhysRange.new (start stop : U64) : Option PhysRange :=
  if h : start ≤ stop then some ⟨start, stop, h⟩ else none

def frameSize : U64 := 4096

structure Frame where
  startAddress : U64
  aligned : startAddress % frameSize = 0
deriving DecidableEq, Repr

def Frame.fromStartAddress (address : U64) : Option Frame :=
  if h : address % frameSize = 0 then some ⟨address, h⟩ else none

structure ContiguousFrames where
  start : U64
  frameCount : Nat
deriving DecidableEq, Repr

def alignUp (address : U64) : Option U64 :=
  let mask := frameSize - 1
  (checkedAdd address mask).map fun value => value &&& ~~~mask

/-- Where the allocator puts its cursor when it takes up a region; `none` for a region that it skips. -/
def MemoryRegion.usableStart (region : MemoryRegion) : Option U64 :=
  if region.kind ≠ .usable then none
  else
    match PhysRange.new region.start region.stop with
    | none => none
    | some range =>
      match alignUp range.start with
      | none => none
      | some start => if start ≥ range.stop then none else some start

/-- The regions that are left and the cursor in the current one. -/
structure EarlyFrameAllocator where
  regions : List MemoryRegion
  currentEnd : U64
  nextAddress : U64
deriving DecidableEq, Repr

namespace EarlyFrameAllocator

def new (regions : List MemoryRegion) : EarlyFrameAllocator := ⟨regions, 0, 0⟩

def checkpoint (a : EarlyFrameAllocator) : EarlyFrameAllocator := a

def rollback (_a checkpoint : EarlyFrameAllocator) : EarlyFrameAllocator := checkpoint

/-- The loop of `select_next_usable_region`. -/
def selectFrom (a : EarlyFrameAllocator) : List MemoryRegion → EarlyFrameAllocator × Bool
  | [] => ({ a with regions := [] }, false)
  | region :: rest =>
    match region.usableStart with
    | none => a.selectFrom rest
    | some start => (⟨rest, region.stop, start⟩, true)

def selectNextUsableRegion (a : EarlyFrameAllocator) : EarlyFrameAllocator × Bool := a.selectFrom a.regions

variable {α : Type}

/-- The loop of both requests.  `serve` is what the request does with the current region: `none` when it goes on to
the next one.  A round that goes on takes up a region, so one more round than there are regions left is enough. -/
def search (serve : EarlyFrameAllocator → Option (EarlyFrameAllocator × Option α)) :
    Nat → EarlyFrameAllocator → EarlyFrameAllocator × Option α
  | 0, a => (a, none)
  | rounds + 1, a =>
    match serve a with
    | some done => done
    | none =>
      match ({ a with nextAddress := 0, currentEnd := 0 } : EarlyFrameAllocator).selectNextUsableRegion with
      | (a, false) => (a, none)
      | (a, true) => search serve rounds a

def serveContiguous (frameCount : Nat) (bytes : U64) (a : EarlyFrameAllocator) :
    Option (EarlyFrameAllocator × Option ContiguousFrames) :=
  if a.nextAddress < a.currentEnd then
    match checkedAdd a.nextAddress bytes with
    -- a run that would end above the address space ends the request: later regions are not asked
    | none => some (a, none)
    | some stop =>
      if stop ≤ a.currentEnd then some ({ a with nextAddress := stop }, some ⟨a.nextAddress, frameCount⟩) else none
  else none

def allocateContiguous (a : EarlyFrameAllocator) (frameCount : Nat) : EarlyFrameAllocator × Option ContiguousFrames :=
  if frameCount = 0 then (a, none)
  else
    match Usize.checkedMul frameCount frameSize.toNat with
    | none => (a, none)
    | some bytes => search (serveContiguous frameCount (BitVec.ofNat 64 bytes)) (a.regions.length + 1) a

def serveFrame (a : EarlyFrameAllocator) : Option (EarlyFrameAllocator × Option Frame) :=
  if a.nextAddress < a.currentEnd then
    -- the end of the frame is not compared with the end of the region
    match Frame.fromStartAddress a.nextAddress with
    | none => some (a, none)
    | some frame =>
      match checkedAdd a.nextAddress frameSize with
      | none => some (a, none)
      | some next => some ({ a with nextAddress := next }, some frame)
  else none

def allocateFrame (a : EarlyFrameAllocator) : EarlyFrameAllocator × Option Frame :=
  search serveFrame (a.regions.length + 1) a

/-! ### Calls -/

inductive Call where
  | allocateFrame
  | allocateContiguous (frameCount : Nat)
deriving DecidableEq, Repr

inductive Grant where
  | frame (frame : Frame)
  | contiguous (frames : ContiguousFrames)
deriving DecidableEq, Repr

/-- The physical addresses of `count` frames in a row. -/
def runFrames (start count : Nat) : List Nat := (List.range count).map fun i => start + 4096 * i

/-- The physical addresses of the 4 KiB frames of a grant. -/
def Grant.frames : Grant → List Nat
  | .frame single => runFrames single.startAddress.toNat 1
  | .contiguous run => runFrames run.start.toNat run.frameCount

def perform (a : EarlyFrameAllocator) : Call → EarlyFrameAllocator × Option Grant
  | .allocateFrame => (a.allocateFrame.1, a.allocateFrame.2.map .frame)
  | .allocateContiguous frameCount =>
    ((a.allocateContiguous frameCount).1, (a.allocateContiguous frameCount).2.map .contiguous)

def grantedFrames : Option Grant → List Nat
  | none => []
  | some grant => grant.frames

/-- The results of a sequence of calls. -/
def results : EarlyFrameAllocator → List Call → List (Option Grant) :=
  Supply.issued fun a call => ((a.perform call).1, [(a.perform call).2])

/-- The frames that a sequence of calls hands out, every frame of a run counted. -/
def frames : EarlyFrameAllocator → List Call → List Nat :=
  Supply.issued fun a call => ((a.perform call).1, grantedFrames (a.perform call).2)

/-! ### The search -/

variable {serve : EarlyFrameAllocator → Option (EarlyFrameAllocator × Option α)}

theorem selectFrom_cases (a : EarlyFrameAllocator) (regions : List MemoryRegion) :
    (∃ skipped region rest start, regions = skipped ++ region :: rest ∧ (∀ r ∈ skipped, r.usableStart = none) ∧
      region.usableStart = some start ∧ a.selectFrom regions = (⟨rest, region.stop, start⟩, true)) ∨
    (∀ r ∈ regions, r.usableStart = none) ∧ a.selectFrom regions = ({ a with regions := [] }, false) := by
  induction regions with
  | nil => exact .inr ⟨fun _ h => absurd h List.not_mem_nil, rfl⟩
  | cons region rest ih =>
    cases hstart : region.usableStart with
    | some start =>
      refine .inl ⟨[], region, rest, start, rfl, fun _ h => absurd h List.not_mem_nil, hstart, ?_⟩
      rw [selectFrom, hstart]
    | none =>
      have heq : a.selectFrom (region :: rest) = a.selectFrom rest := by rw [selectFrom, hstart]
      rw [heq]
      rcases ih with ⟨skipped, next, rest', start, rfl, hskip, hnext, hsel⟩ | ⟨hnone, hsel⟩
      · exact .inl ⟨region :: skipped, next, rest', start, rfl, List.forall_mem_cons.mpr ⟨hstart, hskip⟩, hnext, hsel⟩
      · exact .inr ⟨List.forall_mem_cons.mpr ⟨hstart, hnone⟩, hsel⟩

/-- The loop rule: an invariant of the states in which the current region is asked, and what it gives at the end. -/
theorem search_induct (Inv : EarlyFrameAllocator → Prop) (Post : EarlyFrameAllocator × Option α → Prop)
    (hserve : ∀ a done, Inv a → serve a = some done → Post done)
    (hselect : ∀ a skipped region rest start, Inv a → serve a = none → a.regions = skipped ++ region :: rest →
      (∀ r ∈ skipped, r.usableStart = none) → region.usableStart = some start → Inv ⟨rest, region.stop, start⟩)
    (hend : ∀ a, Inv a → serve a = none → Post (⟨[], 0, 0⟩, none))
    {a : EarlyFrameAllocator} (ha : Inv a) {rounds : Nat} (hrounds : a.regions.length < rounds) :
    Post (search serve rounds a) := by
  induction rounds generalizing a with
  | zero => cases hrounds
  | succ rounds ih =>
    rw [search]
    cases hs : serve a with
    | some done => exact hserve a done ha hs
    | none =>
      rcases selectFrom_cases { a with nextAddress := 0, currentEnd := 0 } a.regions with
        ⟨skipped, region, rest, start, hregions, hskip, hstart, hsel⟩ | ⟨-, hsel⟩
      · simp only [selectNextUsableRegion, hsel]
        refine ih (hselect a skipped region rest start ha hs hregions hskip hstart) ?_
        rw [hregions, List.length_append, List.length_cons] at hrounds
        show rest.length < rounds
        omega
      · simp only [selectNextUsableRegion, hsel]
        exact hend a ha hs

/-- The rounds never run out. -/
theorem search_rounds {a : EarlyFrameAllocator} {n m : Nat} (hn : a.regions.length < n) (hm : a.regions.length < m) :
    search serve n a = search serve m a := by
  induction n generalizing a m with
  | zero => cases hn
  | succ n ih =>
    cases m with
    | zero => cases hm
    | succ m =>
      rw [search, search]
      cases serve a with
      | some done => rfl
      | none =>
        rcases selectFrom_cases { a with nextAddress := 0, currentEnd := 0 } a.regions with
          ⟨skipped, region, rest, start, hregions, -, -, hsel⟩ | ⟨-, hsel⟩
        · simp only [selectNextUsableRegion, hsel]
          rw [hregions, List.length_append, List.length_cons] at hn hm
          exact ih (by dsimp only; omega) (by dsimp only; omega)
        · simp only [selectNextUsableRegion, hsel]

end EarlyFrameAllocator

end X11Os
