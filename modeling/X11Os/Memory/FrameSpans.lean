import Mathlib.Data.List.Induction
import X11Os.Memory.FrameRuns

/-!
# The early frame allocator as a list of spans

What an allocator can still hand out is the rest of its current region and then the regions that are left: a list of
spans.  Both requests walk through this list from its head (`search_walk`), so that two allocators with the same spans
answer every sequence of requests alike.

A request for a run of frames that finds no room gives up the spans that it has walked past.  It costs nothing exactly
if it has not walked past any (`Harmless`).
-/

namespace X11Os

open Word MemoryRegion

/-- The rest of a region, from the cursor on. -/
structure FrameSpan where
  next : U64
  stop : U64
  nonempty : next < stop
deriving DecidableEq, Repr

def FrameSpan.new (next stop : U64) : Option FrameSpan := if h : next < stop then some ⟨next, stop, h⟩ else none

private theorem FrameSpan.new_self (span : FrameSpan) : FrameSpan.new span.next span.stop = some span :=
  dif_pos span.nonempty

theorem FrameSpan.new_eq_some {next stop : U64} {span : FrameSpan} (h : FrameSpan.new next stop = some span) :
    span.next = next ∧ span.stop = stop := by
  unfold FrameSpan.new at h
  split_ifs at h
  cases h
  exact ⟨rfl, rfl⟩

def MemoryRegion.span (region : MemoryRegion) : Option FrameSpan :=
  region.usableStart.bind fun start => FrameSpan.new start region.stop

private theorem MemoryRegion.span_of_usableStart {region : MemoryRegion} {start : U64}
    (h : region.usableStart = some start) :
    ∃ span, region.span = some span ∧ FrameSpan.new start region.stop = some span ∧ span.next = start := by
  have hlt : start < region.stop := BitVec.lt_def.mpr (usableStart_eq_some h).2.2.2
  refine ⟨⟨start, region.stop, hlt⟩, ?_, dif_pos hlt, rfl⟩
  rw [MemoryRegion.span, h]
  exact dif_pos hlt

namespace EarlyFrameAllocator

variable {α : Type} {serve : EarlyFrameAllocator → Option (EarlyFrameAllocator × Option α)}
  {g : FrameSpan → Option (U64 × Option α)}

def spans (a : EarlyFrameAllocator) : List FrameSpan :=
  (FrameSpan.new a.nextAddress a.currentEnd).toList ++ a.regions.filterMap MemoryRegion.span

/-! ### Walking through the spans -/

/-- A request that does `g` with a span: it moves the cursor and ends, or goes on to the next span. -/
def walk (g : FrameSpan → Option (U64 × Option α)) : List FrameSpan → List FrameSpan × Option α
  | [] => ([], none)
  | span :: rest =>
    match g span with
    | some (next, result) => ((FrameSpan.new next span.stop).toList ++ rest, result)
    | none => walk g rest

/-- `serve` does `g` with the rest of the current region. -/
def Acts (serve : EarlyFrameAllocator → Option (EarlyFrameAllocator × Option α))
    (g : FrameSpan → Option (U64 × Option α)) : Prop :=
  ∀ a : EarlyFrameAllocator, serve a = (FrameSpan.new a.nextAddress a.currentEnd).bind fun span =>
    (g span).map fun moved => ({ a with nextAddress := moved.1 }, moved.2)

/-- The region that is taken up is the first of the spans that are left. -/
private theorem selectFrom_spans (a : EarlyFrameAllocator) (regions : List MemoryRegion) :
    (∃ b : EarlyFrameAllocator, a.selectFrom regions = (b, true) ∧ b.regions.length < regions.length ∧
      b.spans = regions.filterMap MemoryRegion.span) ∨
    regions.filterMap MemoryRegion.span = [] ∧ a.selectFrom regions = ({ a with regions := [] }, false) := by
  have hskipped : ∀ {skipped : List MemoryRegion}, (∀ r ∈ skipped, r.usableStart = none) →
      skipped.filterMap MemoryRegion.span = [] := by
    intro skipped hskip
    refine List.filterMap_eq_nil_iff.mpr fun r hr => ?_
    rw [MemoryRegion.span, hskip r hr]
    rfl
  rcases a.selectFrom_cases regions with ⟨skipped, region, rest, start, rfl, hskip, hstart, hsel⟩ | ⟨hnone, hsel⟩
  · obtain ⟨span, hspan, hnew, -⟩ := MemoryRegion.span_of_usableStart hstart
    refine .inl ⟨_, hsel, ?_, ?_⟩
    · rw [List.length_append, List.length_cons]
      show rest.length < _
      omega
    · rw [List.filterMap_append, hskipped hskip, List.filterMap_cons_some hspan, spans]
      show (FrameSpan.new start region.stop).toList ++ _ = _
      rw [hnew]
      rfl
  · exact .inr ⟨hskipped hnone, hsel⟩

theorem search_walk (h : Acts serve g) {a : EarlyFrameAllocator} {rounds : Nat}
    (hrounds : a.regions.length < rounds) :
    (search serve rounds a).1.spans = (walk g a.spans).1 ∧ (search serve rounds a).2 = (walk g a.spans).2 := by
  induction rounds generalizing a with
  | zero => cases hrounds
  | succ rounds ih =>
    -- a round that goes on leaves the spans of the regions
    have hnext : serve a = none →
        (search serve (rounds + 1) a).1.spans = (walk g (a.regions.filterMap MemoryRegion.span)).1 ∧
        (search serve (rounds + 1) a).2 = (walk g (a.regions.filterMap MemoryRegion.span)).2 := by
      intro hserve
      rw [search, hserve]
      rcases selectFrom_spans { a with nextAddress := 0, currentEnd := 0 } a.regions with
        ⟨b, hsel, hlength, hspans⟩ | ⟨hempty, hsel⟩
      · simp only [selectNextUsableRegion, hsel]
        rw [← hspans]
        exact ih (by omega)
      · simp only [selectNextUsableRegion, hsel, hempty]
        exact ⟨rfl, rfl⟩
    cases hspan : FrameSpan.new a.nextAddress a.currentEnd with
    | none =>
      have hspans : a.spans = a.regions.filterMap MemoryRegion.span := by
        rw [spans, hspan]
        rfl
      rw [hspans]
      exact hnext (by rw [h a, hspan]; rfl)
    | some span =>
      have hspans : a.spans = span :: a.regions.filterMap MemoryRegion.span := by
        rw [spans, hspan]
        rfl
      rw [hspans, walk]
      cases hg : g span with
      | none => exact hnext (by rw [h a, hspan, Option.bind_some, hg]; rfl)
      | some moved =>
        have hserve : serve a = some ({ a with nextAddress := moved.1 }, moved.2) := by
          rw [h a, hspan, Option.bind_some, hg]
          rfl
        rw [search, hserve, (FrameSpan.new_eq_some hspan).2]
        exact ⟨rfl, rfl⟩

/-! ### The two requests -/

def frameIn (span : FrameSpan) : Option (U64 × Option Frame) :=
  match Frame.fromStartAddress span.next with
  | none => some (span.next, none)
  | some frame =>
    match checkedAdd span.next frameSize with
    | none => some (span.next, none)
    | some next => some (next, some frame)

def runIn (frameCount : Nat) (bytes : U64) (span : FrameSpan) : Option (U64 × Option ContiguousFrames) :=
  match checkedAdd span.next bytes with
  | none => some (span.next, none)
  | some stop => if stop ≤ span.stop then some (stop, some ⟨span.next, frameCount⟩) else none

private theorem serveFrame_acts : Acts serveFrame frameIn := by
  intro a
  unfold serveFrame FrameSpan.new
  split_ifs with hlt
  · rw [Option.bind_some]
    unfold frameIn
    cases Frame.fromStartAddress a.nextAddress with
    | none => rfl
    | some frame => cases checkedAdd a.nextAddress frameSize <;> rfl
  · rfl

private theorem serveContiguous_acts (frameCount : Nat) (bytes : U64) :
    Acts (serveContiguous frameCount bytes) (runIn frameCount bytes) := by
  intro a
  unfold serveContiguous FrameSpan.new
  split_ifs with hlt
  · rw [Option.bind_some]
    unfold runIn
    cases checkedAdd a.nextAddress bytes with
    | none => rfl
    | some stop =>
      dsimp only
      split_ifs <;> rfl
  · rfl

theorem allocateFrame_walk (a : EarlyFrameAllocator) :
    a.allocateFrame.1.spans = (walk frameIn a.spans).1 ∧ a.allocateFrame.2 = (walk frameIn a.spans).2 :=
  search_walk serveFrame_acts (Nat.lt_succ_self _)

theorem allocateContiguous_walk {a : EarlyFrameAllocator} {frameCount : Nat} (hcount : frameCount ≠ 0)
    (hfits : 4096 * frameCount < 2 ^ 64) :
    (a.allocateContiguous frameCount).1.spans =
      (walk (runIn frameCount (BitVec.ofNat 64 (4096 * frameCount))) a.spans).1 ∧
    (a.allocateContiguous frameCount).2 =
      (walk (runIn frameCount (BitVec.ofNat 64 (4096 * frameCount))) a.spans).2 := by
  have hmul : Usize.checkedMul frameCount frameSize.toNat = some (4096 * frameCount) := by
    rw [Usize.checkedMul, toNat_frameSize, Nat.mul_comm, if_pos hfits]
  unfold allocateContiguous
  rw [if_neg hcount, hmul]
  exact search_walk (serveContiguous_acts _ _) (Nat.lt_succ_self _)

/-- No frames are asked for, or more than there are addresses: nothing is looked at. -/
theorem allocateContiguous_of_invalid (a : EarlyFrameAllocator) {frameCount : Nat}
    (h : frameCount = 0 ∨ 2 ^ 64 ≤ 4096 * frameCount) : a.allocateContiguous frameCount = (a, none) := by
  unfold allocateContiguous
  split_ifs with hcount
  · rfl
  · have hmul : Usize.checkedMul frameCount frameSize.toNat = none := by
      rw [Usize.checkedMul, toNat_frameSize, Nat.mul_comm]
      exact if_neg (by omega)
    rw [hmul]

/-- The spans decide what a request answers and leaves. -/
private theorem perform_of_spans {a b : EarlyFrameAllocator} (h : a.spans = b.spans) (call : Call) :
    (a.perform call).1.spans = (b.perform call).1.spans ∧ (a.perform call).2 = (b.perform call).2 := by
  cases call with
  | allocateFrame =>
    obtain ⟨hspans, hresult⟩ := a.allocateFrame_walk
    obtain ⟨hspans', hresult'⟩ := b.allocateFrame_walk
    simp only [perform]
    rw [hspans, hspans', hresult, hresult', h]
    exact ⟨rfl, rfl⟩
  | allocateContiguous frameCount =>
    simp only [perform]
    by_cases hvalid : frameCount = 0 ∨ 2 ^ 64 ≤ 4096 * frameCount
    · rw [a.allocateContiguous_of_invalid hvalid, b.allocateContiguous_of_invalid hvalid]
      exact ⟨h, rfl⟩
    · rw [not_or, Nat.not_le] at hvalid
      obtain ⟨hspans, hresult⟩ := allocateContiguous_walk (a := a) hvalid.1 hvalid.2
      obtain ⟨hspans', hresult'⟩ := allocateContiguous_walk (a := b) hvalid.1 hvalid.2
      rw [hspans, hspans', hresult, hresult', h]
      exact ⟨rfl, rfl⟩

private theorem results_of_spans {a b : EarlyFrameAllocator} (h : a.spans = b.spans) (calls : List Call) :
    a.results calls = b.results calls := by
  induction calls generalizing a b with
  | nil => rfl
  | cons call rest ih =>
    obtain ⟨hspans, hresult⟩ := perform_of_spans h call
    show [(a.perform call).2] ++ results _ rest = [(b.perform call).2] ++ results _ rest
    rw [hresult, ih hspans]

/-! ### Cursors on frame boundaries -/

def Aligned (a : EarlyFrameAllocator) : Prop := ∀ span ∈ a.spans, span.next.toNat % 4096 = 0

private theorem mem_toList_new {next stop : U64} {span : FrameSpan} (h : span ∈ (FrameSpan.new next stop).toList) :
    span.next = next := by
  rw [Option.mem_toList] at h
  exact (FrameSpan.new_eq_some h).1

theorem new_aligned (map : List MemoryRegion) : (new map).Aligned := by
  intro span hspan
  rcases List.mem_append.mp hspan with hspan | hspan
  · rw [mem_toList_new hspan]
    rfl
  · obtain ⟨region, -, hregion⟩ := List.mem_filterMap.mp hspan
    obtain ⟨start, hstart, hnew⟩ := Option.bind_eq_some_iff.mp hregion
    rw [(FrameSpan.new_eq_some hnew).1]
    exact (usableStart_eq_some hstart).2.1

/-- A walk leaves spans from the list, and the one whose cursor it has moved. -/
private theorem walk_next {P : U64 → Prop}
    (hmove : ∀ span next result, P span.next → g span = some (next, result) → P next)
    {l : List FrameSpan} (hl : ∀ span ∈ l, P span.next) : ∀ span ∈ (walk g l).1, P span.next := by
  induction l with
  | nil => exact hl
  | cons span rest ih =>
    rw [List.forall_mem_cons] at hl
    rw [walk]
    cases hg : g span with
    | none => exact ih hl.2
    | some moved =>
      intro span' hspan'
      rcases List.mem_append.mp hspan' with hspan' | hspan'
      · rw [mem_toList_new hspan']
        exact hmove span moved.1 moved.2 hl.1 hg
      · exact hl.2 span' hspan'

theorem perform_aligned {a : EarlyFrameAllocator} (ha : a.Aligned) (call : Call) : (a.perform call).1.Aligned := by
  cases call with
  | allocateFrame =>
    unfold Aligned
    simp only [perform]
    rw [a.allocateFrame_walk.1]
    refine walk_next (P := fun next => next.toNat % 4096 = 0) (fun span next result haligned hmove => ?_) ha
    unfold frameIn at hmove
    split at hmove
    · cases hmove
      exact haligned
    · split at hmove
      · cases hmove
        exact haligned
      · rename_i hnext
        cases hmove
        rw [checkedAdd_eq_some, toNat_frameSize] at hnext
        omega
  | allocateContiguous frameCount =>
    unfold Aligned
    simp only [perform]
    by_cases hvalid : frameCount = 0 ∨ 2 ^ 64 ≤ 4096 * frameCount
    · rw [a.allocateContiguous_of_invalid hvalid]
      exact ha
    · rw [not_or, Nat.not_le] at hvalid
      rw [(allocateContiguous_walk hvalid.1 hvalid.2).1]
      refine walk_next (P := fun next => next.toNat % 4096 = 0) (fun span next result haligned hmove => ?_) ha
      unfold runIn at hmove
      split at hmove
      · cases hmove
        exact haligned
      · rename_i stop hstop
        split_ifs at hmove
        cases hmove
        rw [checkedAdd_eq_some, BitVec.toNat_ofNat, Nat.mod_eq_of_lt hvalid.2] at hstop
        omega

/-- The allocator after a sequence of requests. -/
def run (map : List MemoryRegion) (calls : List Call) : EarlyFrameAllocator :=
  calls.foldl (fun a call => (a.perform call).1) (new map)

private theorem run_aligned (map : List MemoryRegion) (calls : List Call) : (run map calls).Aligned := by
  induction calls using List.reverseRecOn with
  | nil => exact new_aligned map
  | append_singleton calls call ih =>
    rw [run, List.foldl_append]
    exact perform_aligned ih call

/-! ### Single frames -/

private theorem allocateFrame_of_head {a : EarlyFrameAllocator} (ha : a.Aligned) {span : FrameSpan}
    {rest : List FrameSpan} (hspans : a.spans = span :: rest) (hfit : span.next.toNat + 4096 < 2 ^ 64) :
    ∃ frame, a.allocateFrame.2 = some frame ∧ frame.startAddress = span.next := by
  have haligned : span.next % frameSize = 0 := by
    apply BitVec.eq_of_toNat_eq
    rw [BitVec.toNat_umod, toNat_frameSize]
    exact ha span (by rw [hspans]; exact List.mem_cons_self)
  have hnext : checkedAdd span.next frameSize = some (span.next + frameSize) := by
    rw [checkedAdd_eq_some, BitVec.toNat_add, toNat_frameSize, Nat.mod_eq_of_lt hfit]
  refine ⟨⟨span.next, haligned⟩, ?_, rfl⟩
  rw [a.allocateFrame_walk.2, hspans, walk, frameIn, Frame.fromStartAddress, dif_pos haligned, hnext]

/-- A frame comes from the head of the list. -/
private theorem head_of_allocateFrame {a : EarlyFrameAllocator} {frame : Frame} (h : a.allocateFrame.2 = some frame) :
    ∃ span ∈ a.spans.head?, frame.startAddress = span.next := by
  rw [a.allocateFrame_walk.2] at h
  cases hspans : a.spans with
  | nil =>
    rw [hspans] at h
    cases h
  | cons span rest =>
    rw [hspans, walk] at h
    refine ⟨span, rfl, ?_⟩
    unfold frameIn Frame.fromStartAddress at h
    split_ifs at h with haligned
    · cases hnext : checkedAdd span.next frameSize with
      | none => simp [hnext] at h
      | some next =>
        simp only [hnext, Option.some.injEq] at h
        rw [← h]

/-! ### Failed runs -/

/-- A run of so many bytes has room in a span, and no span before it lies so high that the run would end above the
address space. -/
def HasRoom (bytes : Nat) (l : List FrameSpan) : Prop :=
  ∃ before span after, l = before ++ span :: after ∧ span.next.toNat + bytes ≤ span.stop.toNat ∧
    ∀ s ∈ before, s.next.toNat + bytes < 2 ^ 64

private theorem hasRoom_cons {bytes : Nat} {span : FrameSpan} {l : List FrameSpan} :
    HasRoom bytes (span :: l) ↔
      span.next.toNat + bytes ≤ span.stop.toNat ∨ span.next.toNat + bytes < 2 ^ 64 ∧ HasRoom bytes l := by
  constructor
  · rintro ⟨before, found, after, hl, hroom, hbefore⟩
    cases before with
    | nil =>
      cases hl
      exact .inl hroom
    | cons first before =>
      obtain ⟨rfl, rfl⟩ := List.cons.inj hl
      rw [List.forall_mem_cons] at hbefore
      exact .inr ⟨hbefore.1, before, found, after, rfl, hroom, hbefore.2⟩
  · rintro (hroom | ⟨hlow, before, found, after, rfl, hroom, hbefore⟩)
    · exact ⟨[], span, l, rfl, hroom, fun _ hs => absurd hs List.not_mem_nil⟩
    · exact ⟨span :: before, found, after, rfl, hroom, List.forall_mem_cons.mpr ⟨hlow, hbefore⟩⟩

/-- The spans that a failed request has walked past are low enough for the run; the one where it stopped is not. -/
structure GivesUp (bytes : Nat) (l l' : List FrameSpan) : Prop where
  noRoom : ¬ HasRoom bytes l
  skipped : ∃ skipped, l = skipped ++ l' ∧ ∀ s ∈ skipped, s.next.toNat + bytes < 2 ^ 64
  stopped : ∀ s ∈ l'.head?, 2 ^ 64 ≤ s.next.toNat + bytes

private theorem walk_run (frameCount : Nat) (bytes : U64) (l : List FrameSpan) :
    HasRoom bytes.toNat l ∧ (walk (runIn frameCount bytes) l).2 ≠ none ∨
    (walk (runIn frameCount bytes) l).2 = none ∧ GivesUp bytes.toNat l (walk (runIn frameCount bytes) l).1 := by
  induction l with
  | nil =>
    refine .inr ⟨rfl, ?_, ⟨[], rfl, fun _ hs => absurd hs List.not_mem_nil⟩, fun _ hs => by cases hs⟩
    rintro ⟨before, span, after, hl, -⟩
    simp at hl
  | cons span rest ih =>
    have hstop := span.stop.isLt
    rw [hasRoom_cons, walk, runIn]
    cases hsum : checkedAdd span.next bytes with
    | none =>
      rw [checkedAdd_eq_none] at hsum
      dsimp only
      rw [FrameSpan.new_self]
      refine .inr ⟨rfl, ?_, ?_, ?_⟩
      · rw [hasRoom_cons]
        omega
      · exact ⟨[], rfl, fun _ hs => absurd hs List.not_mem_nil⟩
      · intro s hs
        cases hs
        omega
    | some stop =>
      rw [checkedAdd_eq_some] at hsum
      have hlt := stop.isLt
      dsimp only
      by_cases hroom : stop ≤ span.stop
      · rw [if_pos hroom]
        rw [BitVec.le_def] at hroom
        exact .inl ⟨.inl (by omega), Option.some_ne_none _⟩
      · rw [if_neg hroom]
        rw [BitVec.le_def] at hroom
        rcases ih with ⟨hfound, hsome⟩ | ⟨hnone, hgives⟩
        · exact .inl ⟨.inr ⟨by omega, hfound⟩, hsome⟩
        · obtain ⟨skipped, hskipped, hlow⟩ := hgives.skipped
          refine .inr ⟨hnone, ?_, ⟨span :: skipped, ?_, ?_⟩, hgives.stopped⟩
          · rw [hasRoom_cons]
            rintro (hfits | ⟨-, hfits⟩)
            · omega
            · exact hgives.noRoom hfits
          · rw [List.cons_append, ← hskipped]
          · exact List.forall_mem_cons.mpr ⟨by omega, hlow⟩

/-- The request fails, and nobody can tell from the single frames that are handed out later. -/
def CostsNothing (a : EarlyFrameAllocator) (frameCount : Nat) : Prop :=
  (a.allocateContiguous frameCount).2 = none → ∀ n,
    (a.allocateContiguous frameCount).1.results (List.replicate n .allocateFrame) =
      a.results (List.replicate n .allocateFrame)

/-- The request is refused before a span is looked at, or ends at the first span, or finds room. -/
def Harmless (a : EarlyFrameAllocator) (frameCount : Nat) : Prop :=
  frameCount = 0 ∨ 2 ^ 64 ≤ 4096 * frameCount ∨
    (∀ span ∈ a.spans.head?, 2 ^ 64 ≤ span.next.toNat + 4096 * frameCount) ∨ HasRoom (4096 * frameCount) a.spans

/-- A request that walks past a span loses the frame that would have been the next one. -/
private theorem first_frame_lost {a b : EarlyFrameAllocator} (ha : a.Aligned) {frameCount : Nat}
    (hcount : frameCount ≠ 0) {span : FrameSpan} {rest : List FrameSpan} (hspans : a.spans = span :: rest)
    (hlow : span.next.toNat + 4096 * frameCount < 2 ^ 64)
    (hstopped : ∀ s ∈ b.spans.head?, 2 ^ 64 ≤ s.next.toNat + 4096 * frameCount) :
    b.allocateFrame.2 ≠ a.allocateFrame.2 := by
  intro heq
  obtain ⟨frame, hframe, hstart⟩ := allocateFrame_of_head ha hspans (by omega)
  obtain ⟨s, hs, hstart'⟩ := head_of_allocateFrame (heq.trans hframe)
  have hhigh := hstopped s hs
  rw [← hstart', hstart] at hhigh
  omega

/-- For every memory map and every sequence of requests before: a failed run costs nothing exactly if it
is harmless. -/
theorem costsNothing_iff (map : List MemoryRegion) (calls : List Call) (frameCount : Nat) :
    (run map calls).CostsNothing frameCount ↔ (run map calls).Harmless frameCount := by
  have haligned := run_aligned map calls
  generalize run map calls = a at haligned ⊢
  unfold Harmless
  by_cases hvalid : frameCount = 0 ∨ 2 ^ 64 ≤ 4096 * frameCount
  · refine iff_of_true (fun _ n => ?_) (by rw [← or_assoc]; exact .inl hvalid)
    rw [a.allocateContiguous_of_invalid hvalid]
  · rw [not_or, Nat.not_le] at hvalid
    rw [or_iff_right hvalid.1, or_iff_right (Nat.not_le.mpr hvalid.2)]
    obtain ⟨hspans, hresult⟩ := allocateContiguous_walk (a := a) hvalid.1 hvalid.2
    have hbytes : (BitVec.ofNat 64 (4096 * frameCount)).toNat = 4096 * frameCount := by
      rw [BitVec.toNat_ofNat, Nat.mod_eq_of_lt hvalid.2]
    have hwalk := walk_run frameCount (BitVec.ofNat 64 (4096 * frameCount)) a.spans
    rw [hbytes, ← hspans, ← hresult] at hwalk
    rcases hwalk with ⟨hroom, hsome⟩ | ⟨hnone, hgives⟩
    · exact iff_of_true (fun hnone => absurd hnone hsome) (.inr hroom)
    · obtain ⟨skipped, hskipped, hlow⟩ := hgives.skipped
      cases skipped with
      | nil =>
        -- nothing has been walked past: the spans are still there
        refine iff_of_true (fun _ n => results_of_spans hskipped.symm _) (.inl ?_)
        rw [hskipped]
        exact hgives.stopped
      | cons span skipped =>
        rw [List.forall_mem_cons] at hlow
        refine iff_of_false (fun hcosts => ?_) (fun hharmless => ?_)
        · have hfirst := hcosts hnone 1
          have hsame : (a.allocateContiguous frameCount).1.allocateFrame.2.map Grant.frame =
              a.allocateFrame.2.map Grant.frame := List.head_eq_of_cons_eq hfirst
          refine first_frame_lost haligned hvalid.1 hskipped hlow.1 hgives.stopped ?_
          exact Option.map_injective (fun _ _ h => Grant.frame.inj h) hsame
        · rcases hharmless with hhead | hroom
          · have hhigh := hhead span (by rw [hskipped]; rfl)
            omega
          · exact hgives.noRoom hroom

/-- The heap of 256 frames does not fit into any of two regions; afterwards there is no frame left for
anything else. -/
theorem failed_heap_drains :
    ((new [⟨0x1000, 0x9f000, .usable⟩, ⟨0x100000, 0x180000, .usable⟩]).allocateContiguous 256).2 = none ∧
    (new [⟨0x1000, 0x9f000, .usable⟩, ⟨0x100000, 0x180000, .usable⟩]).frames [.allocateFrame] = [0x1000] ∧
    ((new [⟨0x1000, 0x9f000, .usable⟩, ⟨0x100000, 0x180000, .usable⟩]).allocateContiguous 256).1.frames
      [.allocateFrame] = [] ∧
    ¬ (run [⟨0x1000, 0x9f000, .usable⟩, ⟨0x100000, 0x180000, .usable⟩] []).CostsNothing 256 := by
  refine ⟨by decide, by decide, by decide, fun h => ?_⟩
  exact absurd (h (by decide) 1) (by decide)

end EarlyFrameAllocator

end X11Os
