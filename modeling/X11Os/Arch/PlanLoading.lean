import X11Os.Arch.MapperContract
import X11Os.Process.PlanMapped

/-!
# Mapping a load plan

`map_load_plan` on the tables of a new address space, over an implementation of the crate's tables.  Four frames a
page are enough for it: one that the page shows and up to three tables.  It then maps every page of the plan, with the
permissions of its segment, to a frame of its own (`mapLoadPlan_installs`).
-/

namespace X11Os

open Word Amd64 Exec TableTree

/-- The backend of a root. -/
abbrev rootMapper (tables : U64 → OffsetPageTable KernelMemory) (root : U64) : PageTableMapper KernelMemory :=
  X86PageTableMapper.mapper (tables root) userRange

variable {d : DirectMap} {tables : U64 → OffsetPageTable KernelMemory} {base s : KernelMemory} {r : U64}
  {entries : List PageEntry}

/-- The pages of the root are the entries, each with a frame of its own that was free in `base`. -/
structure Installed (d : DirectMap) (base : KernelMemory) (r : U64) (entries : List PageEntry) (s : KernelMemory) :
    Prop where
  working : Working d base [r] s
  recorded : Recorded (fun _ => none) (mappingIn (readTable s.memory) r) entries
  frames : ∀ e ∈ entries, PrivateFrame [r] s e.2.1 ∧ e.2.1.toNat ∈ base.allocator.free ∧ e.2.1.toNat < d.limit
  distinct : (entries.map fun e => e.2.1).Nodup

namespace Installed

theorem refl (h : Working d base [r] s) (hempty : ∀ page, mappingIn (readTable s.memory) r page = none) :
    Installed d base r [] s :=
  ⟨h, funext hempty ▸ .refl _, fun _ he => absurd he List.not_mem_nil, List.nodup_nil⟩

/-- A frame is there as long as one is left. -/
theorem allocate (hcontract : TableContract d tables) (h : Installed d base r entries s) (hleft : 1 ≤ s.left)
    {ε : Type} :
    ∃ frame s₁, Runs ((rootMapper tables r).allocate : Exec KernelMemory ε (Option U64)) s (some frame) s₁ ∧
      Installed d base r entries s₁ ∧ PrivateFrame [r] s₁ frame ∧ frame.toNat ∈ base.allocator.free ∧
      frame.toNat < d.limit ∧ frame ∉ (entries.map fun e => e.2.1) ∧ s.left = s₁.left + 1 ∧
      mappingIn (readTable s₁.memory) r = mappingIn (readTable s.memory) r := by
  have hspacesBefore := h.working.spaces
  obtain ⟨alloc, hspaces, hevolves, hcases⟩ := hspacesBefore.allocateFrame_cases
  rcases hcases with ⟨-, hnone, -⟩ | ⟨frame, hsome, htakes⟩
  · omega
  · refine ⟨frame, { s with allocator := alloc }, ?_, ⟨h.working.evolve hspaces hevolves, h.recorded, ?_, h.distinct⟩,
      ⟨htakes.isFrame, htakes.gone, fun huse => hspacesBefore.taken _ huse htakes.wasFree⟩,
      h.working.free htakes.wasFree, htakes.reached, ?_, htakes.cost, rfl⟩
    · show Panics.returned (Except.ok ((tables r).allocateFrame s).1, ((tables r).allocateFrame s).2) = _
      rw [hcontract.allocateFrame, hsome]
    · intro e he
      obtain ⟨hold, hwas⟩ := h.frames e he
      exact ⟨(hold.evolve hspacesBefore.trees hevolves).1, hwas⟩
    · intro hmem
      obtain ⟨e, he, heq⟩ := List.mem_map.mp hmem
      exact (h.frames e he).1.taken (heq ▸ htakes.wasFree)

/-- A page of the lower half that is not mapped gets a frame, as long as four frames are left. -/
private theorem push (hcontract : TableContract d tables) (h : Installed d base r entries s) (page : Page4K)
    {flags : MappingFlags} (hrange : X86PageTableMapper.InRange page) (hlow : page.startAddress.toNat < 2 ^ 47)
    (hbuilt : flags.Built) (hexclusive : flags.isWritableExecutable = false)
    (hnone : mappingIn (readTable s.memory) r page = none) (hleft : 4 ≤ s.left) {ε : Type} :
    ∃ frame s₁ s₂, Runs ((rootMapper tables r).allocate : Exec KernelMemory ε (Option U64)) s (some frame) s₁ ∧
      Runs ((rootMapper tables r).mapPage page frame flags) s₁ () s₂ ∧
      Installed d base r (entries ++ [(page, frame, flags)]) s₂ ∧ s.left ≤ s₂.left + 4 := by
  have hr := List.mem_singleton_self r
  obtain ⟨frame, s₁, halloc, h₁, hprivate, hwas, hreached, hnew, hcost, hsame⟩ :=
    h.allocate hcontract (ε := ε) (by omega)
  have hacc : X86PageTableMapper.Acceptable page frame flags := ⟨hrange, hexclusive, hprivate.isFrame⟩
  rcases X86PageTableMapper.mapPage_spec hcontract h₁.working.spaces hr (h₁.working.workspace hr) page frame
      hbuilt with
    ⟨hrefused, -⟩ | ⟨hpanics, -⟩ | ⟨-, -, result, s₂, hexec, hspaces, hevolves, hspends, hcases⟩
  · exact absurd hacc hrefused
  · have hframe := hprivate.isFrame.2
    rcases hpanics.2.2 with hhigh | hhigh <;> omega
  · have hless := hspends.bounded
    rcases hcases with ⟨-, -, hshort, -⟩ | ⟨-, -, hmapped⟩ | ⟨rfl, -, hpages⟩
    · omega
    · rw [hsame, hnone] at hmapped
      cases hmapped
    · refine ⟨frame, s₁, s₂, halloc, hexec, ⟨h₁.working.evolve hspaces hevolves, ?_, ?_, ?_⟩, by omega⟩
      · have hupdate : mappingIn (readTable s₂.memory) r =
            Function.update (mappingIn (readTable s₁.memory) r) page (some (frame, flags)) := by
          funext page'
          rw [hpages r hr page', Function.update_apply]
          simp only [true_and]
        rw [hupdate]
        exact h₁.recorded.push (hsame ▸ hnone) _
      · intro e he
        rcases List.mem_append.mp he with hold | hlast
        · obtain ⟨hkept, hfree⟩ := h₁.frames e hold
          exact ⟨(hkept.evolve h₁.working.spaces.trees hevolves).1, hfree⟩
        · obtain rfl := List.mem_singleton.mp hlast
          exact ⟨(hprivate.evolve h₁.working.spaces.trees hevolves).1, hwas, hreached⟩
      · rw [List.map_append]
        refine List.nodup_append.mpr ⟨h₁.distinct, List.pairwise_singleton _ _, ?_⟩
        intro f hf f' hf' heq
        rw [List.map_singleton, List.mem_singleton] at hf'
        rw [heq, hf'] at hf
        exact hnew hf

end Installed

/-! ### The loops -/

/-- The addresses of the entries. -/
def addresses (entries : List PageEntry) : List U64 := entries.map fun e => e.1.startAddress

variable (hcontract : TableContract d tables)
include hcontract

private theorem mapSegment_installs {flags : MappingFlags} (hbuilt : flags.Built)
    (hexclusive : flags.isWritableExecutable = false)
    {stop : U64} (hstop : stop.toNat ≤ 2 ^ 47) {count : Nat} (room : Nat) {address : U64} (pages : List MappedPage)
    (haligned : address.toNat % 4096 = 0) (hend : address.toNat + 4096 * count = stop.toNat)
    (hstart : 0x10000 ≤ address.toNat) (hroom : count ≤ room)
    (hnodup : (addresses entries ++ pagesFrom address count).Nodup)
    (h : Installed d base r entries s) (hleft : 4 * count ≤ s.left) :
    ∃ new s', Runs (mapSegment (rootMapper tables r) flags stop room address pages) s
        (pages ++ new.map PageEntry.mappedPage) s' ∧
      new.map PageEntry.planned = (pagesFrom address count).map (fun a => (a, flags)) ∧
      Installed d base r (entries ++ new) s' ∧ s.left ≤ s'.left + 4 * count := by
  -- a round takes the first of the pages that are left
  induction count generalizing address room pages entries s with
  | zero =>
    have hdone : ¬ address < stop := by
      rw [BitVec.lt_def]
      omega
    refine ⟨[], s, ?_, rfl, by rwa [List.append_nil], Nat.le_refl _⟩
    unfold mapSegment
    rw [if_neg hdone, List.map_nil, List.append_nil]
    exact .pure
  | succ count ih =>
    have hgo : address < stop := by
      rw [BitVec.lt_def]
      omega
    have hpage : Page4K.fromStartAddress address = some ⟨address, aligned_iff.mpr haligned⟩ :=
      Page4K.fromStartAddress_eq_some.mpr rfl
    have hnext : checkedAdd address pageSize4K = some (address + pageSize4K) :=
      checkedAdd_of_lt (by rw [toNat_pageSize4K]; omega)
    have hnextNat : (address + pageSize4K).toNat = address.toNat + 4096 := checkedAdd_eq_some.mp hnext
    obtain ⟨room, rfl⟩ : ∃ k, room = k + 1 := ⟨room - 1, by omega⟩
    rw [pagesFrom] at hnodup
    have hunmapped : mappingIn (readTable s.memory) r ⟨address, aligned_iff.mpr haligned⟩ = none := by
      rw [h.recorded.extended.kept]
      intro hmem
      obtain ⟨e, he, heq⟩ := List.mem_map.mp hmem
      have hin : address ∈ addresses entries := List.mem_map.mpr ⟨e, he, by rw [heq]⟩
      exact (List.nodup_append.mp hnodup).2.2 address hin address List.mem_cons_self rfl
    obtain ⟨frame, s₁, s₂, halloc, hmap, h₂, hcost⟩ :=
      h.push hcontract (ε := LoadError) ⟨address, aligned_iff.mpr haligned⟩
      ⟨hstart, by dsimp only; omega⟩ (by dsimp only; omega) hbuilt hexclusive hunmapped (by omega)
    have hnodup' : (addresses (entries ++ [(⟨address, aligned_iff.mpr haligned⟩, frame, flags)]) ++
        pagesFrom (address + pageSize4K) count).Nodup := by
      rw [addresses, List.map_append, List.append_assoc]
      exact hnodup
    obtain ⟨new, s', hruns, hplanned, h', hcost'⟩ := ih room (pages ++ [⟨address, frame⟩]) (by omega) (by omega)
      (by omega) (Nat.le_of_succ_le_succ hroom) hnodup' h₂ (by omega)
    have hpages : pages ++
        List.map PageEntry.mappedPage ((⟨address, aligned_iff.mpr haligned⟩, frame, flags) :: new) =
        pages ++ [⟨address, frame⟩] ++ new.map PageEntry.mappedPage := by
      rw [List.map_cons, List.append_cons]
      rfl
    refine ⟨(⟨address, aligned_iff.mpr haligned⟩, frame, flags) :: new, s', ?_, ?_, ?_, by omega⟩
    · unfold mapSegment
      rw [if_pos hgo]
      simp only [hpage]
      refine .bind halloc ?_
      refine .bind (.caught hmap) ?_
      simp only [hnext]
      rw [hpages]
      exact hruns
    · rw [List.map_cons, hplanned]
      rfl
    · rw [List.append_cons]
      exact h'

/-- What the plan asks of its segments. -/
def planned (segments : List SegmentMapping) : List (U64 × MappingFlags) :=
  segments.flatMap fun m => m.pages.map fun address => (address, m.permissions)

omit hcontract in
private theorem addresses_eq (entries : List PageEntry) :
    addresses entries = (entries.map PageEntry.planned).map Prod.fst := by
  rw [addresses, List.map_map]
  rfl

omit hcontract in
theorem map_fst_planned (segments : List SegmentMapping) :
    (planned segments).map Prod.fst = segments.flatMap SegmentMapping.pages := by
  rw [planned, List.map_flatMap]
  congr 1
  funext m
  rw [List.map_map]
  exact List.map_id _

omit hcontract in
/-- The flags of a segment that is not both writable and executable. -/
theorem SegmentMapping.permissions_built {m : SegmentMapping} (h : ¬ (m.writable = true ∧ m.executable = true)) :
    flagsFromElf m.flags = some m.permissions ∧ m.permissions.Built ∧ m.permissions.isWritableExecutable = false ∧
      m.permissions.writable = m.writable ∧ m.permissions.executable = m.executable := by
  have hw : (m.flags &&& 2 != 0) = m.writable := rfl
  have hx : (m.flags &&& 1 != 0) = m.executable := rfl
  unfold MappingFlags.Built
  simp only [flagsFromElf, hw, hx, SegmentMapping.permissions]
  cases hwritable : m.writable with
  | false => cases hexecutable : m.executable <;> decide
  | true =>
    cases hexecutable : m.executable with
    | false => decide
    | true => exact absurd ⟨hwritable, hexecutable⟩ h

private theorem mapSegments_installs {segments : List SegmentMapping} (pages : List MappedPage)
    (hplans : ∀ m ∈ segments, ∃ segment, SegmentMapping.Plans segment m)
    (hlow : ∀ m ∈ segments, m.virtualRange.stop.toNat ≤ 2 ^ 47)
    (hroom : pages.length + (segments.flatMap SegmentMapping.pages).length ≤ maxMappedPages)
    (hnodup : (addresses entries ++ segments.flatMap SegmentMapping.pages).Nodup)
    (h : Installed d base r entries s)
    (hleft : 4 * (segments.flatMap SegmentMapping.pages).length ≤ s.left) :
    ∃ new s', Runs (mapSegments (rootMapper tables r) segments pages) s (pages ++ new.map PageEntry.mappedPage) s' ∧
      new.map PageEntry.planned = planned segments ∧ Installed d base r (entries ++ new) s' ∧
      s.left ≤ s'.left + 4 * (segments.flatMap SegmentMapping.pages).length := by
  induction segments generalizing pages entries s with
  | nil =>
    refine ⟨[], s, ?_, rfl, by rwa [List.append_nil], Nat.le_refl _⟩
    rw [List.map_nil, List.append_nil]
    exact .pure
  | cons m rest ih =>
    rw [List.forall_mem_cons] at hplans hlow
    rw [List.flatMap_cons, List.length_append] at hroom hleft
    rw [List.flatMap_cons, ← List.append_assoc] at hnodup
    obtain ⟨segment, hplan⟩ := hplans.1
    obtain ⟨hflags, hbuilt, hexclusive, -, -⟩ := SegmentMapping.permissions_built hplan.exclusive
    have hstart := hplan.start
    have hstopNat := hplan.stop
    have hbase := hplan.imageBase
    have himage : userImageBase.toNat = 0x110000 := rfl
    have hordered := BitVec.le_def.mp m.virtualRange.ordered
    have hlength : m.pages.length = (m.virtualRange.stop.toNat - m.virtualRange.start.toNat) / 4096 :=
      hplan.length_pages
    have hpages : m.pages =
        pagesFrom m.virtualRange.start ((m.virtualRange.stop.toNat - m.virtualRange.start.toNat) / 4096) := by
      rw [SegmentMapping.pages]
      congr 1
      omega
    rw [hpages] at hnodup
    obtain ⟨new, s₁, hruns, hplanned, h₁, hcost⟩ := mapSegment_installs hcontract hbuilt hexclusive hlow.1
      (maxMappedPages - pages.length) pages (by omega) (by omega) (by omega) (by omega) hnodup.of_append_left h
      (by omega)
    rw [← hpages] at hplanned hnodup
    have haddresses : addresses (entries ++ new) = addresses entries ++ m.pages := by
      have hnew : addresses new = m.pages := by
        rw [addresses_eq, hplanned, List.map_map]
        exact List.map_id _
      rw [← hnew, addresses, List.map_append]
      rfl
    have hcount : (new.map PageEntry.mappedPage).length = m.pages.length := by
      have hlengths := congrArg List.length hplanned
      rw [List.length_map, List.length_map] at hlengths
      rw [List.length_map, hlengths]
    rw [← haddresses] at hnodup
    obtain ⟨new', s', hrest, hplanned', h', hcost'⟩ := ih (pages ++ new.map PageEntry.mappedPage) hplans.2 hlow.2
      (by rw [List.length_append]; omega) hnodup h₁ (by omega)
    refine ⟨new ++ new', s', ?_, ?_, ?_, ?_⟩
    · rw [List.map_append, ← List.append_assoc]
      exact .bind (.okOr hflags) (.bind hruns hrest)
    · rw [List.map_append, hplanned, hplanned']
      rfl
    · rw [← List.append_assoc]
      exact h'
    · rw [List.flatMap_cons, List.length_append]
      omega

/-- With four frames for each page, the whole plan is mapped. -/
theorem mapLoadPlan_installs {image : ElfImage} {plan : LoadPlan} (hlays : plan.Lays image)
    (hlow : ∀ m ∈ plan.segments, m.virtualRange.stop.toNat ≤ 2 ^ 47)
    (hroom : (plan.segments.flatMap SegmentMapping.pages).length ≤ maxMappedPages) (h : Installed d base r [] s)
    (hleft : 4 * (plan.segments.flatMap SegmentMapping.pages).length ≤ s.left) :
    ∃ new s', Runs (mapLoadPlan (rootMapper tables r) plan) s ⟨plan.entry, new.map PageEntry.mappedPage⟩ s' ∧
      new.map PageEntry.planned = planned plan.segments ∧ Installed d base r new s' ∧
      s.left ≤ s'.left + 4 * (plan.segments.flatMap SegmentMapping.pages).length := by
  have hplans : ∀ m ∈ plan.segments, ∃ segment, SegmentMapping.Plans segment m := by
    intro m hm
    obtain ⟨segment, -, hplan⟩ := hlays.segments.exists_left hm
    exact ⟨segment, hplan⟩
  obtain ⟨new, s', hruns, hplanned, h', hcost⟩ := mapSegments_installs hcontract [] hplans hlow (by simpa using hroom)
    (show (addresses [] ++ _).Nodup from hlays.nodup_pages) h hleft
  exact ⟨new, s', .bind hruns .pure, hplanned, h', hcost⟩

end X11Os
