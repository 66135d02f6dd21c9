import Mathlib.Data.List.Nodup
import X11Os.Lib.Hoare
import X11Os.Process.PlanLayout
import X11Os.Process.Populate

/-!
# The pages of a load

When `map_load_plan` succeeds, through whatever backend, it has mapped the pages of the planned ranges, each of them
once and in order.  The lookup of the population finds each of them under its own address.
-/

namespace X11Os

open Word Exec

variable {σ : Type}

/-- The addresses of `count` pages in a row. -/
def pagesFrom (address : U64) : Nat → List U64
  | 0 => []
  | count + 1 => address :: pagesFrom (address + pageSize4K) count

private theorem mem_pagesFrom {address b : U64} {count : Nat} (hfit : address.toNat + 4096 * count ≤ 2 ^ 64) :
    b ∈ pagesFrom address count ↔ ∃ i < count, b.toNat = address.toNat + 4096 * i := by
  induction count generalizing address with
  | zero => simp [pagesFrom]
  | succ count ih =>
    -- the page after the last one may be the end of the address space
    have hnext : count = 0 ∨ (address + pageSize4K).toNat = address.toNat + 4096 := by
      rw [BitVec.toNat_add, toNat_pageSize4K]
      omega
    have hlt := (address + pageSize4K).isLt
    rw [pagesFrom, List.mem_cons, ih (by omega), ← BitVec.toNat_inj]
    constructor
    · rintro (hb | ⟨i, hi, hb⟩)
      · exact ⟨0, by omega, by omega⟩
      · exact ⟨i + 1, by omega, by omega⟩
    · rintro ⟨i, hi, hb⟩
      cases i with
      | zero => exact .inl (by omega)
      | succ i => exact .inr ⟨i, by omega, by omega⟩

private theorem nodup_pagesFrom {address : U64} {count : Nat} (hfit : address.toNat + 4096 * count ≤ 2 ^ 64) :
    (pagesFrom address count).Nodup := by
  induction count generalizing address with
  | zero => exact List.nodup_nil
  | succ count ih =>
    have hnext : count = 0 ∨ (address + pageSize4K).toNat = address.toNat + 4096 := by
      rw [BitVec.toNat_add, toNat_pageSize4K]
      omega
    have hlt := (address + pageSize4K).isLt
    rw [pagesFrom, List.nodup_cons, mem_pagesFrom (by omega)]
    refine ⟨?_, ih (by omega)⟩
    rintro ⟨i, hi, hb⟩
    omega

/-! ### What is mapped -/

theorem failLoad_ends {mapper : PageTableMapper σ} {pages : List MappedPage} {α : Type} {error : LoadError} {s : σ}
    {Q : α → σ → Prop} : Ends (failLoad mapper pages error) s Q fun _ _ => True :=
  .bind ((Ends.trivial _ _).imp (fun _ _ _ => .throw trivial) fun _ _ _ => trivial)

theorem failBuild_ends {mapper : PageTableMapper σ} {load : LoadResult} {stack : List MappedStackPage} {α : Type}
    {error : AddressSpaceBuildError} {s : σ} {Q : α → σ → Prop} :
    Ends (failBuild mapper load stack error) s Q fun _ _ => True := by
  refine .next (Ends.trivial _ _) fun _ _ _ => ?_
  exact .bind ((Ends.trivial _ _).imp (fun _ _ _ => .throw trivial) fun _ _ _ => trivial)

/-- The pages of a planned range. -/
def SegmentMapping.pages (m : SegmentMapping) : List U64 :=
  pagesFrom m.virtualRange.start ((m.virtualRange.stop.toNat + 4095 - m.virtualRange.start.toNat) / 4096)

theorem mapSegment_pages {mapper : PageTableMapper σ} {flags : MappingFlags} {stop : U64} {room : Nat} {address : U64}
    {pages : List MappedPage} {s : σ} :
    Ends (mapSegment mapper flags stop room address pages) s
      (fun pages' _ => ∃ mapped, pages' = pages ++ mapped ∧ mapped.map MappedPage.virtualAddress =
        pagesFrom address ((stop.toNat + 4095 - address.toNat) / 4096)) fun _ _ => True := by
  have hdone : ∀ {address : U64} {pages : List MappedPage} {s : σ}, ¬ address < stop →
      Ends (Pure.pure pages : Exec σ LoadError _) s (fun pages' _ => ∃ mapped, pages' = pages ++ mapped ∧
        mapped.map MappedPage.virtualAddress = pagesFrom address ((stop.toNat + 4095 - address.toNat) / 4096))
        fun _ _ => True := by
    intro address pages s hend
    rw [BitVec.not_lt, BitVec.le_def] at hend
    have hcount : (stop.toNat + 4095 - address.toNat) / 4096 = 0 := by omega
    exact .pure ⟨[], (List.append_nil _).symm, by rw [hcount]; rfl⟩
  -- only a loop that returns matters here, whatever the mapper does in between
  induction room generalizing address pages s with
  | zero =>
    unfold mapSegment
    split_ifs with hlt
    · exact failLoad_ends
    · exact hdone hlt
  | succ room ih =>
    unfold mapSegment
    split_ifs with hlt
    · cases hpage : Page4K.fromStartAddress address with
      | none => exact failLoad_ends
      | some page =>
        refine .next (Ends.trivial _ _) fun frame s₁ _ => ?_
        cases frame with
        | none => exact failLoad_ends
        | some frame =>
          refine .lift ((Ends.trivial _ _).imp (fun _ s₂ _ => ?_) fun _ s₂ _ => failLoad_ends)
          cases hnext : checkedAdd address pageSize4K with
          | none => exact failLoad_ends
          | some next =>
            refine ih.imp (fun pages' s₃ h => ?_) fun _ _ _ => trivial
            obtain ⟨mapped, hpages, hmapped⟩ := h
            rw [BitVec.lt_def] at hlt
            rw [checkedAdd_eq_some, toNat_pageSize4K] at hnext
            have hcount : (stop.toNat + 4095 - address.toNat) / 4096 =
                (stop.toNat + 4095 - next.toNat) / 4096 + 1 := by omega
            have hsum : address + pageSize4K = next := by
              apply BitVec.eq_of_toNat_eq
              rw [BitVec.toNat_add, toNat_pageSize4K, ← hnext, Nat.mod_eq_of_lt next.isLt]
            refine ⟨⟨address, frame⟩ :: mapped, ?_, ?_⟩
            · rw [hpages, List.append_assoc, List.singleton_append]
            · rw [hcount, pagesFrom, hsum, List.map_cons, hmapped]
    · exact hdone hlt

private theorem mapSegments_pages {mapper : PageTableMapper σ} {segments : List SegmentMapping}
    {pages : List MappedPage} {s : σ} :
    Ends (mapSegments mapper segments pages) s
      (fun pages' _ => ∃ mapped, pages' = pages ++ mapped ∧ mapped.map MappedPage.virtualAddress =
        segments.flatMap SegmentMapping.pages) fun _ _ => True := by
  induction segments generalizing pages s with
  | nil => exact .pure ⟨[], (List.append_nil _).symm, rfl⟩
  | cons segment rest ih =>
    unfold mapSegments
    refine .okOr (fun _ => trivial) fun flags _ =>
      .bind (mapSegment_pages.imp (fun pages₁ s₁ h => ?_) fun _ _ _ => trivial)
    obtain ⟨mapped, rfl, hmapped⟩ := h
    refine ih.imp (fun pages₂ s₂ h => ?_) fun _ _ _ => trivial
    obtain ⟨mapped', rfl, hmapped'⟩ := h
    refine ⟨mapped ++ mapped', List.append_assoc _ _ _, ?_⟩
    rw [List.map_append, hmapped, hmapped', List.flatMap_cons]
    rfl

/-- The load has the pages of the planned ranges, in order. -/
theorem mapLoadPlan_pages {mapper : PageTableMapper σ} {plan : LoadPlan} {s s' : σ} {load : LoadResult}
    (h : (mapLoadPlan mapper plan).exec s = .returned (.ok load, s')) :
    load.pages.map MappedPage.virtualAddress = plan.segments.flatMap SegmentMapping.pages := by
  have hends : Ends (mapLoadPlan mapper plan) s (fun load _ => load.pages.map MappedPage.virtualAddress =
      plan.segments.flatMap SegmentMapping.pages) fun _ _ => True := by
    refine .next mapSegments_pages fun pages s₁ h => ?_
    obtain ⟨mapped, rfl, hmapped⟩ := h
    exact .pure hmapped
  exact hends.of_ok h

/-- The stack has the planned pages, in order. -/
theorem mapStack_pages {mapper : PageTableMapper σ} {load : LoadResult} {pages : List Page4K}
    {stack : List MappedStackPage} {s : σ} :
    Ends (mapStack mapper load pages stack) s (fun stack' _ => stack'.map MappedStackPage.virtualPage =
      stack.map MappedStackPage.virtualPage ++ pages) fun _ _ => True := by
  induction pages generalizing stack s with
  | nil => exact .pure (List.append_nil _).symm
  | cons page rest ih =>
    unfold mapStack
    refine .next (Ends.trivial _ _) fun frame s₁ _ => ?_
    cases frame with
    | none => exact failBuild_ends
    | some frame =>
      refine .lift ((Ends.trivial _ _).imp (fun _ s₂ _ => ?_) fun _ _ _ => failBuild_ends)
      refine ih.imp (fun stack' s₃ h => ?_) fun _ _ _ => trivial
      rw [h, List.map_append, List.append_assoc]
      rfl

/-! ### Lookup -/

private theorem LoadResult.page_of_lt {load : LoadResult} {index : Nat} (h : index < load.pages.length) :
    load.page index = some (load.pages.get ⟨index, h⟩) := by
  unfold LoadResult.page
  rw [if_neg (Nat.not_le.mpr h), List.getElem?_eq_getElem h]
  rfl

/-- A page is found under its address. -/
theorem findMappedPage_spec {load : LoadResult} {b : U64} (hb : b ∈ load.pages.map MappedPage.virtualAddress) :
    ∃ index mapped, findMappedPage load b = some index ∧ load.page index = some mapped ∧ mapped ∈ load.pages ∧
      mapped.virtualAddress = b := by
  obtain ⟨mapped, hmapped, rfl⟩ := List.mem_map.mp hb
  obtain ⟨⟨i, hi⟩, rfl⟩ := List.mem_iff_get.mp hmapped
  cases hfind : findMappedPage load (load.pages.get ⟨i, hi⟩).virtualAddress with
  | none =>
    have hnone := List.find?_eq_none.mp hfind i (List.mem_range.mpr hi)
    simp [LoadResult.page_of_lt hi] at hnone
  | some index =>
    have hlt : index < load.pages.length := List.mem_range.mp (List.mem_of_find?_eq_some hfind)
    have hsame := List.find?_some hfind
    rw [LoadResult.page_of_lt hlt, Option.any_some, beq_iff_eq] at hsame
    exact ⟨index, _, rfl, LoadResult.page_of_lt hlt, List.get_mem _ _, hsame⟩

/-! ### The pages of an accepted image -/

/-- The pages that a segment touches. -/
def LoadSegment.pages (segment : LoadSegment) : List U64 :=
  pagesFrom (segment.virtualRange.start &&& pageMask)
    ((segment.virtualRange.stop.toNat + 4095 - segment.virtualRange.start.toNat / 4096 * 4096) / 4096)

namespace SegmentMapping.Plans

variable {segment : LoadSegment} {m : SegmentMapping}

/-- They are the pages of its planned range. -/
theorem pages_eq (h : Plans segment m) : m.pages = segment.pages := by
  have hstart : m.virtualRange.start = segment.virtualRange.start &&& pageMask := by
    apply BitVec.eq_of_toNat_eq
    rw [toNat_and_pageMask, h.start]
  have hcount : (m.virtualRange.stop.toNat + 4095 - m.virtualRange.start.toNat) / 4096 =
      (segment.virtualRange.stop.toNat + 4095 - segment.virtualRange.start.toNat / 4096 * 4096) / 4096 := by
    rw [h.start, h.stop]
    omega
  rw [SegmentMapping.pages, LoadSegment.pages, hcount, hstart]

/-- The pages of a planned range do not go beyond the address space. -/
private theorem pages_fit (h : Plans segment m) : m.virtualRange.start.toNat +
    4096 * ((m.virtualRange.stop.toNat + 4095 - m.virtualRange.start.toNat) / 4096) ≤ 2 ^ 64 := by
  have hstart := h.start
  have hstop := h.stop
  have hlt := m.virtualRange.stop.isLt
  have hordered : m.virtualRange.start.toNat ≤ m.virtualRange.stop.toNat := m.virtualRange.ordered
  omega

theorem mem_pages (h : Plans segment m) {b : U64} : b ∈ m.pages ↔ b.toNat % 4096 = 0 ∧
    m.virtualRange.start.toNat ≤ b.toNat ∧ b.toNat < m.virtualRange.stop.toNat := by
  have hstart := h.start
  have hstop := h.stop
  rw [SegmentMapping.pages, mem_pagesFrom h.pages_fit]
  constructor
  · rintro ⟨i, hi, hb⟩
    omega
  · rintro ⟨haligned, hle, hlt⟩
    exact ⟨(b.toNat - m.virtualRange.start.toNat) / 4096, by omega, by omega⟩

private theorem nodup_pages (h : Plans segment m) : m.pages.Nodup := nodup_pagesFrom h.pages_fit

end SegmentMapping.Plans

/-- No page is mapped under the same address as another one. -/
theorem LoadPlan.Lays.nodup_pages {image : ElfImage} {plan : LoadPlan} (h : plan.Lays image) :
    (plan.segments.flatMap SegmentMapping.pages).Nodup := by
  refine List.nodup_flatMap.mpr ⟨fun m hm => ?_, ?_⟩
  · obtain ⟨segment, -, hplans⟩ := h.segments.exists_left hm
    exact hplans.nodup_pages
  · refine h.disjoint.imp_of_mem fun {m m'} hm hm' hapart => ?_
    obtain ⟨segment, -, hplans⟩ := h.segments.exists_left hm
    obtain ⟨segment', -, hplans'⟩ := h.segments.exists_left hm'
    intro b hb hb'
    rw [hplans.mem_pages] at hb
    rw [hplans'.mem_pages] at hb'
    omega

/-- The load of an accepted image has the pages that its segments touch, each of them once. -/
theorem LoadPlan.Lays.load_pages {image : ElfImage} {plan : LoadPlan} (h : plan.Lays image)
    {mapper : PageTableMapper σ} {s s' : σ} {load : LoadResult}
    (hload : (mapLoadPlan mapper plan).exec s = .returned (.ok load, s')) :
    load.pages.map MappedPage.virtualAddress = image.segments.flatMap LoadSegment.pages ∧
      (image.segments.flatMap LoadSegment.pages).Nodup := by
  have hsame : image.segments.map LoadSegment.pages = plan.segments.map SegmentMapping.pages :=
    h.segments.map_eq fun _ _ hplans => hplans.pages_eq.symm
  have hflat : plan.segments.flatMap SegmentMapping.pages = image.segments.flatMap LoadSegment.pages := by
    rw [List.flatMap_def, List.flatMap_def, hsame]
  rw [← hflat]
  exact ⟨mapLoadPlan_pages hload, h.nodup_pages⟩

/-- A segment touches the pages of its addresses. -/
theorem LoadPlan.Lays.mem_pages {image : ElfImage} {plan : LoadPlan} (h : plan.Lays image) {segment : LoadSegment}
    (hsegment : segment ∈ image.segments) {b : U64} : b ∈ segment.pages ↔ b.toNat % 4096 = 0 ∧
      segment.virtualRange.start.toNat / 4096 * 4096 ≤ b.toNat ∧
      b.toNat < (segment.virtualRange.stop.toNat + 4095) / 4096 * 4096 := by
  obtain ⟨m, -, hplans⟩ := h.segments.exists_right hsegment
  rw [← hplans.pages_eq, hplans.mem_pages, hplans.start, hplans.stop]

end X11Os
