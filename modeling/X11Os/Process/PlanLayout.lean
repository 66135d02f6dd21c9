import X11Os.Lib.Lists
import X11Os.Process.ImageFormat
import X11Os.Process.LoadPlan

/-!
# The layout of load plans

What `LoadPlan::build` guarantees about the ranges that it plans: whole pages around the segments of the image, no
page planned twice, and nothing near the stack.  The image is checked against the stack and the guard of
`UserAddressSpaceLayout`, which lie below the stack that is mapped.  The entry of a planned image is an address of an
executable segment (`build_entry_segment`).
-/

namespace X11Os

open Word

namespace SegmentMapping

def writable (m : SegmentMapping) : Bool := m.flags &&& Elf.pfW != 0
def executable (m : SegmentMapping) : Bool := m.flags &&& Elf.pfX != 0

/-- The page has an address in the planned range. -/
def Touches (m : SegmentMapping) (page : Page4K) : Prop :=
  ∃ a : U64, m.virtualRange.contains a = true ∧ page.startAddress.toNat ≤ a.toNat ∧
    a.toNat < page.startAddress.toNat + 4096

/-- The planned range consists of the pages that the segment touches, inside the room for images. -/
structure Plans (segment : LoadSegment) (m : SegmentMapping) : Prop where
  flags : m.flags = segment.flags
  start : m.virtualRange.start.toNat = segment.virtualRange.start.toNat / 4096 * 4096
  stop : m.virtualRange.stop.toNat = (segment.virtualRange.stop.toNat + 4095) / 4096 * 4096
  imageBase : userImageBase.toNat ≤ m.virtualRange.start.toNat
  guard : m.virtualRange.stop.toNat ≤ UserAddressSpaceLayout.default.guard.start.toNat
  exclusive : ¬ (m.writable = true ∧ m.executable = true)

end SegmentMapping

/-! ### One segment -/

theorem toNat_and_pageMask (a : U64) : (a &&& pageMask).toNat = a.toNat / 4096 * 4096 := toNat_and_not_low a 12

private theorem mapSpan_eq_ok {segment : LoadSegment} {mapped : VirtRange} (h : mapSpan segment = .ok mapped) :
    mapped.start.toNat = segment.virtualRange.start.toNat / 4096 * 4096 ∧
      mapped.stop.toNat = (segment.virtualRange.stop.toNat + 4095) / 4096 * 4096 := by
  unfold mapSpan at h
  cases hvalue : checkedAdd segment.virtualRange.stop (pageSize4K - 1) with
  | none => simp only [hvalue, reduceCtorEq] at h
  | some value =>
    simp only [hvalue, VirtRange.new] at h
    rw [checkedAdd_eq_some, show (pageSize4K - 1).toNat = 4095 from rfl] at hvalue
    split_ifs at h
    cases h
    exact ⟨toNat_and_pageMask _, by rw [toNat_and_pageMask, hvalue]⟩

/-- An image range starts below the stack of the layout and does not meet its guard, so it ends before the guard. -/
private theorem validateImageRange_eq_ok {spec : AddressSpaceSpec} {range : VirtRange}
    (h : spec.validateImageRange range = .ok ()) :
    userImageBase.toNat ≤ range.start.toNat ∧
      range.stop.toNat ≤ UserAddressSpaceLayout.default.guard.start.toNat := by
  unfold AddressSpaceSpec.validateImageRange AddressSpaceSpec.validateUserRange at h
  split_ifs at h with huser hin hguard hbase
  rw [not_or, ge_iff_le, BitVec.not_lt, BitVec.not_le, BitVec.le_def, BitVec.lt_def] at hbase
  refine ⟨hbase.1, Nat.not_lt.mp fun hstop => hguard ⟨hstop, ?_⟩⟩
  exact BitVec.lt_def.mpr hbase.2

/-! ### The loop -/

/-- What the plan of an image is. -/
structure LoadPlan.Lays (image : ElfImage) (plan : LoadPlan) : Prop where
  entry : plan.entry = image.entry
  segments : List.Forall₂ SegmentMapping.Plans image.segments plan.segments
  disjoint : plan.segments.Pairwise fun m m' => m.virtualRange.stop.toNat ≤ m'.virtualRange.start.toNat ∨
    m'.virtualRange.stop.toNat ≤ m.virtualRange.start.toNat

namespace LoadPlan

private theorem rangesOverlap_eq_false {left right : VirtRange} (h : rangesOverlap left right = false) :
    right.stop.toNat ≤ left.start.toNat ∨ left.stop.toNat ≤ right.start.toNat := by
  rw [rangesOverlap, Bool.and_eq_false_iff, decide_eq_false_iff_not, decide_eq_false_iff_not, BitVec.not_lt,
    BitVec.not_lt] at h
  exact h

/-- One round of the loop. -/
private theorem buildSegments_cons {spec : AddressSpaceSpec} {entry : U64} {segment : LoadSegment}
    {rest : List LoadSegment}
    {before after : List SegmentMapping × Bool} (h : buildSegments spec entry (segment :: rest) before = .ok after) :
    ∃ mapped, mapSpan segment = .ok mapped ∧ spec.validateImageRange mapped = .ok () ∧
      ¬ (segment.writable && segment.executable) = true ∧
      ¬ (before.1.any fun prior => rangesOverlap mapped prior.virtualRange) = true ∧
      buildSegments spec entry rest (before.1 ++ [⟨mapped, segment.flags⟩],
        before.2 || (segment.executable && mapped.contains entry)) = .ok after := by
  unfold buildSegments at h
  cases hspan : mapSpan segment with
  | error error => simp [hspan] at h
  | ok mapped =>
    simp only [hspan] at h
    cases hvalid : spec.validateImageRange mapped with
    | error error => simp [hvalid] at h
    | ok =>
      simp only [hvalid] at h
      split_ifs at h with hflags hoverlap
      exact ⟨mapped, rfl, hvalid, hflags, hoverlap, h⟩

private theorem buildSegments_eq_ok {spec : AddressSpaceSpec} {entry : U64} {segments : List LoadSegment}
    {before after : List SegmentMapping × Bool} (h : buildSegments spec entry segments before = .ok after)
    (hbefore : before.1.Pairwise fun m m' => m.virtualRange.stop.toNat ≤ m'.virtualRange.start.toNat ∨
      m'.virtualRange.stop.toNat ≤ m.virtualRange.start.toNat) :
    (∃ planned, after.1 = before.1 ++ planned ∧ List.Forall₂ SegmentMapping.Plans segments planned) ∧
    after.1.Pairwise fun m m' => m.virtualRange.stop.toNat ≤ m'.virtualRange.start.toNat ∨
      m'.virtualRange.stop.toNat ≤ m.virtualRange.start.toNat := by
  induction segments generalizing before with
  | nil =>
    cases h
    exact ⟨⟨[], (List.append_nil _).symm, .nil⟩, hbefore⟩
  | cons segment rest ih =>
    obtain ⟨mapped, hspan, hvalid, hflags, hoverlap, hrest⟩ := buildSegments_cons h
    have hplans : SegmentMapping.Plans segment ⟨mapped, segment.flags⟩ :=
      { flags := rfl
        start := (mapSpan_eq_ok hspan).1
        stop := (mapSpan_eq_ok hspan).2
        imageBase := (validateImageRange_eq_ok hvalid).1
        guard := (validateImageRange_eq_ok hvalid).2
        exclusive := fun hboth => hflags (Bool.and_eq_true_iff.mpr hboth) }
    -- the new range is compared with all those before it
    have hapart : ∀ m ∈ before.1, m.virtualRange.stop.toNat ≤ mapped.start.toNat ∨
        mapped.stop.toNat ≤ m.virtualRange.start.toNat := by
      intro m hm
      refine rangesOverlap_eq_false (Bool.eq_false_iff.mpr fun hm' => hoverlap ?_)
      exact List.any_eq_true.mpr ⟨m, hm, hm'⟩
    obtain ⟨⟨planned, hafter, hforall⟩, hdisjoint⟩ := ih hrest (List.pairwise_append.mpr
      ⟨hbefore, List.pairwise_singleton _ _, fun m hm m' hm' => List.mem_singleton.mp hm' ▸ hapart m hm⟩)
    refine ⟨⟨⟨mapped, segment.flags⟩ :: planned, ?_, .cons hplans hforall⟩, hdisjoint⟩
    rw [hafter, List.append_assoc, List.singleton_append]

/-- What the loop has left when a plan is built. -/
private theorem build_eq_ok {spec : AddressSpaceSpec} {image : ElfImage} {plan : LoadPlan}
    (h : build spec image = .ok plan) :
    plan.entry = image.entry ∧
      buildSegments spec image.entry image.segments ([], false) = .ok (plan.segments, true) := by
  unfold build at h
  split_ifs at h with hcount
  cases hbuild : buildSegments spec image.entry image.segments ([], false) with
  | error error => simp [hbuild] at h
  | ok after =>
    obtain ⟨segments, found⟩ := after
    simp only [hbuild] at h
    split_ifs at h with hentry
    cases h
    rw [Bool.not_eq_true', Bool.not_eq_false] at hentry
    rw [hentry]
    exact ⟨rfl, rfl⟩

theorem build_lays {spec : AddressSpaceSpec} {image : ElfImage} {plan : LoadPlan} (h : build spec image = .ok plan) :
    plan.Lays image := by
  obtain ⟨hentry, hbuild⟩ := build_eq_ok h
  obtain ⟨⟨planned, hsegments, hforall⟩, hdisjoint⟩ := buildSegments_eq_ok hbuild List.Pairwise.nil
  obtain rfl : plan.segments = planned := hsegments
  exact ⟨hentry, hforall, hdisjoint⟩

end LoadPlan

/-! ### Pages -/

namespace SegmentMapping.Plans

variable {segment : LoadSegment} {m : SegmentMapping}

/-- A planned range consists of whole pages. -/
private theorem start_of_touches (h : Plans segment m) {page : Page4K} (ht : m.Touches page) :
    m.virtualRange.start.toNat ≤ page.startAddress.toNat ∧ page.startAddress.toNat < m.virtualRange.stop.toNat := by
  obtain ⟨a, ha, hle, hlt⟩ := ht
  rw [VirtRange.contains_iff] at ha
  have haligned := aligned_iff.mp page.aligned
  have hstart := h.start
  omega

private theorem covers (h : Plans segment m) {length : Nat} (hs : segment.OfFile length) :
    m.virtualRange.start % pageSize4K = 0 ∧ m.virtualRange.stop % pageSize4K = 0 ∧
    m.virtualRange.start < m.virtualRange.stop ∧ m.virtualRange.start ≤ segment.virtualRange.start ∧
    segment.virtualRange.stop ≤ m.virtualRange.stop := by
  have hstart := h.start
  have hstop := h.stop
  have hrange := hs.range
  have hnonempty := hs.nonempty
  simp only [aligned_iff, BitVec.lt_def, BitVec.le_def]
  omega

end SegmentMapping.Plans

namespace LoadPlan

variable {image : ElfImage} {plan : LoadPlan}

private theorem Lays.exclusive (h : plan.Lays image) : Exclusive SegmentMapping.Touches plan.segments := by
  refine h.disjoint.imp_of_mem fun {m m'} hm hm' hapart page hpage => ?_
  obtain ⟨segment, -, hplans⟩ := h.segments.exists_left hm
  obtain ⟨segment', -, hplans'⟩ := h.segments.exists_left hm'
  have hin := hplans.start_of_touches hpage.1
  have hin' := hplans'.start_of_touches hpage.2
  omega

/-- Nothing is planned at or above the guard of the mapped stack: the guard of the layout lies below it. -/
private theorem Lays.page_lt (h : plan.Lays image) {m : SegmentMapping} (hm : m ∈ plan.segments) {page : Page4K}
    (ht : m.Touches page) :
    page.startAddress.toNat + 4096 ≤ (userStackTop - userStackSize - userStackGuardSize).toNat := by
  obtain ⟨segment, -, hplans⟩ := h.segments.exists_left hm
  have hin := hplans.start_of_touches ht
  have hguard := hplans.guard
  have hlayout : UserAddressSpaceLayout.default.guard.start.toNat + 4096 ≤
    (userStackTop - userStackSize - userStackGuardSize).toNat := by decide
  omega

/-- The planned ranges of an accepted image are whole pages around its segments; no page is planned twice, or planned
writable and executable, or planned where the mapped stack or its guard is. -/
theorem build_pages (bytes : Bytes) (spec : AddressSpaceSpec) (image : ElfImage) (plan : LoadPlan)
    (hparse : (ElfImage.parse bytes).run = .returned (.ok image)) (hplan : LoadPlan.build spec image = .ok plan) :
    List.Forall₂ (fun segment m => m.virtualRange.start % pageSize4K = 0 ∧ m.virtualRange.stop % pageSize4K = 0 ∧
      m.virtualRange.start < m.virtualRange.stop ∧ m.virtualRange.start ≤ segment.virtualRange.start ∧
      segment.virtualRange.stop ≤ m.virtualRange.stop) image.segments plan.segments ∧
    Exclusive SegmentMapping.Touches plan.segments ∧
    (∀ m ∈ plan.segments, ∀ m' ∈ plan.segments, ∀ page, m.Touches page → m'.Touches page →
      ¬ (m.writable = true ∧ m'.executable = true)) ∧
    ∃ stack guard, UserStackPlan.build = .returned (.ok stack) ∧ userStackGuardRange = some guard ∧
      ∀ m ∈ plan.segments, ∀ page : Page4K, m.Touches page → page ∉ stack.pages ∧
        ∀ a : U64, page.startAddress.toNat ≤ a.toNat → a.toNat < page.startAddress.toNat + 4096 →
          guard.contains a = false := by
  have hlays := build_lays hplan
  have hstackStart : (userStackTop - userStackSize - userStackGuardSize).toNat ≤
    (userStackTop - userStackSize).toNat := by
    decide
  obtain ⟨-, hfile⟩ := ElfImage.ofFile_of_parse hparse
  refine ⟨hlays.segments.imp_of_mem_left fun segment hsegment m hplans => hplans.covers (hfile segment hsegment),
    hlays.exclusive, fun m hm m' hm' page ht ht' hwx => ?_, _, _, rfl, rfl, fun m hm page ht => ⟨?_, ?_⟩⟩
  -- one page, one range: its flags were checked when it was planned
  · obtain rfl := hlays.exclusive.eq_of_common hm hm' ht ht'
    obtain ⟨segment, -, hplans⟩ := hlays.segments.exists_left hm
    exact hplans.exclusive hwx
  · intro hpage
    have hbelow := hlays.page_lt hm ht
    have hstack := ((UserStackPlan.build_spec rfl).2.2 page hpage).1
    rw [BitVec.le_def] at hstack
    omega
  · intro a hle hlt
    have hbelow := hlays.page_lt hm ht
    refine Bool.eq_false_iff.mpr fun ha => ?_
    have hguard : (userStackTop - userStackSize - userStackGuardSize).toNat ≤ a.toNat :=
      (VirtRange.contains_iff.mp ha).1
    omega

/-- The two pages of the minimal image. -/
theorem build_pages_minimal : ∃ image plan, (ElfImage.parse MinimalElf.bytes).run = .returned (.ok image) ∧
    LoadPlan.build MinimalElf.spec image = .ok plan ∧
    plan.segments.map (fun m => (m.virtualRange.start, m.virtualRange.stop)) = [(0x401000, 0x403000)] ∧
    Exclusive SegmentMapping.Touches plan.segments := by
  obtain ⟨image, plan, hparse, hplan, hranges⟩ := MinimalElf.planned
  exact ⟨image, plan, hparse, hplan, hranges, (build_pages _ _ image plan hparse hplan).2.1⟩

/-! ### The entry -/

/-- No address is planned twice. -/
theorem Lays.eq_of_contains (h : plan.Lays image) {m m' : SegmentMapping} (hm : m ∈ plan.segments)
    (hm' : m' ∈ plan.segments) {a : U64} (ha : m.virtualRange.contains a = true)
    (ha' : m'.virtualRange.contains a = true) : m = m' := by
  have hexclusive : Exclusive (fun (m : SegmentMapping) (a : U64) => m.virtualRange.contains a = true)
    plan.segments := by
    refine h.disjoint.imp fun hapart a ha => ?_
    have hin := VirtRange.contains_iff.mp ha.1
    have hin' := VirtRange.contains_iff.mp ha.2
    omega
  exact hexclusive.eq_of_common hm hm' ha ha'

/-- The loop finds the entry in the planned range of an executable segment. -/
private theorem buildSegments_entry {spec : AddressSpaceSpec} {entry : U64} {segments : List LoadSegment}
    {before after : List SegmentMapping × Bool} (h : buildSegments spec entry segments before = .ok after)
    (hbefore : before.2 = true → ∃ m ∈ before.1, m.executable = true ∧ m.virtualRange.contains entry = true)
    (hafter : after.2 = true) : ∃ m ∈ after.1, m.executable = true ∧ m.virtualRange.contains entry = true := by
  induction segments generalizing before with
  | nil =>
    cases h
    exact hbefore hafter
  | cons segment rest ih =>
    obtain ⟨mapped, -, -, -, -, hrest⟩ := buildSegments_cons h
    refine ih hrest fun hfound => ?_
    rw [Bool.or_eq_true, Bool.and_eq_true] at hfound
    rcases hfound with hfound | ⟨hexecutable, hin⟩
    · obtain ⟨m, hm, hentry⟩ := hbefore hfound
      exact ⟨m, List.mem_append_left _ hm, hentry⟩
    · exact ⟨⟨mapped, segment.flags⟩, by simp, hexecutable, hin⟩

theorem build_entry {spec : AddressSpaceSpec} (h : build spec image = .ok plan) :
    ∃ m ∈ plan.segments, m.executable = true ∧ m.virtualRange.contains image.entry = true :=
  buildSegments_entry (build_eq_ok h).2 (fun hfalse => absurd hfalse Bool.false_ne_true) rfl

/-- The entry of a planned image lies in a PT_LOAD segment itself, not only in its pages, and the segment is
executable and not writable.  The segment that the parser has found and the range that the plan has found have an
address in common. -/
theorem build_entry_segment (bytes : Bytes) (spec : AddressSpaceSpec) (image : ElfImage) (plan : LoadPlan)
    (hparse : (ElfImage.parse bytes).run = .returned (.ok image)) (hplan : LoadPlan.build spec image = .ok plan) :
    plan.entry = image.entry ∧ ∃ header ∈ Elf.loadHeaders bytes, ∃ segment ∈ image.segments,
      header.DecodesTo segment ∧
      segment.virtualRange.contains image.entry = true ∧ segment.executable = true ∧ segment.writable = false := by
  obtain ⟨hwf, hrep⟩ := (ElfImage.parse_checks bytes).of_ok hparse
  have hlays := build_lays hplan
  refine ⟨hlays.entry, ?_⟩
  obtain ⟨header, hheader, hentry⟩ := hwf.entryLoaded
  obtain ⟨segment, hsegment, hdecodes⟩ := hrep.segments.exists_right hheader
  have hin : segment.virtualRange.contains image.entry = true := by
    rw [hdecodes.contains, hrep.entry]
    exact hentry
  obtain ⟨m, hm, hplans⟩ := hlays.segments.exists_right hsegment
  obtain ⟨m', hm', hexecutable, hin'⟩ := build_entry hplan
  -- the pages of the segment hold its addresses
  have hrounded : m.virtualRange.contains image.entry = true := by
    have hstart := hplans.start
    have hstop := hplans.stop
    rw [VirtRange.contains_iff] at hin ⊢
    omega
  obtain rfl := hlays.eq_of_contains hm hm' hrounded hin'
  have hflags := hplans.flags
  have hx : segment.executable = true := by
    rw [LoadSegment.executable, ← hflags]
    exact hexecutable
  refine ⟨header, hheader, segment, hsegment, hdecodes, hin, hx, Bool.eq_false_iff.mpr fun hwritable => ?_⟩
  rw [LoadSegment.writable, ← hflags] at hwritable
  exact hplans.exclusive ⟨hwritable, hexecutable⟩

/-- The entry of the minimal image. -/
theorem build_entry_segment_minimal : ∃ image plan, (ElfImage.parse MinimalElf.bytes).run = .returned (.ok image) ∧
    LoadPlan.build MinimalElf.spec image = .ok plan ∧
    ∃ segment ∈ image.segments, segment.virtualRange.contains image.entry = true ∧ segment.executable = true := by
  obtain ⟨image, plan, hparse, hplan, -⟩ := MinimalElf.planned
  obtain ⟨-, -, -, segment, hsegment, -, hin, hx, -⟩ := build_entry_segment _ _ image plan hparse hplan
  exact ⟨image, plan, hparse, hplan, segment, hsegment, hin, hx⟩

end LoadPlan

end X11Os
