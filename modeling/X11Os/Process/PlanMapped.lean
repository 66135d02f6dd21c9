import Mathlib.Data.Set.Basic
import X11Os.Lib.Journal
import X11Os.Lib.Lists
import X11Os.Process.AllOrNothing
import X11Os.Process.MappedPages

/-!
# What a successful build has mapped

When `build_address_space` returns an address space, the mappings of the backend are those from before and one for
each page of the plan: the pages of the segments with the permissions of their segment, and the pages of the stack.
Every page has a frame of its own, and the two lists of the result are the pages in the order of the plan.  The loops
are followed with the record of the entries that they have added (`FrameContract.Recording`).
-/

namespace X11Os

open Word Exec

variable {σ : Type}

/-! ### Permissions -/

/-- Read, and write and execute as the segment asks. -/
def SegmentMapping.permissions (m : SegmentMapping) : MappingFlags :=
  ⟨MappingFlags.read ||| (if m.writable then MappingFlags.write else 0) |||
    (if m.executable then MappingFlags.execute else 0)⟩

/-- A segment that has mapping flags at all has these. -/
private theorem flagsFromElf_eq_some {m : SegmentMapping} {flags : MappingFlags}
    (h : flagsFromElf m.flags = some flags) :
    flags = m.permissions := by
  have hw : (m.flags &&& 2 != 0) = m.writable := rfl
  have hx : (m.flags &&& 1 != 0) = m.executable := rfl
  simp only [flagsFromElf, hw, hx] at h
  unfold SegmentMapping.permissions
  cases hwritable : m.writable <;> cases hexecutable : m.executable <;> rw [hwritable, hexecutable] at h <;>
    cases h <;> rfl

/-! ### Backends -/

/-- What a backend promises about success: a page is mapped only where nothing was mapped, and then exactly it; a
frame that is allocated has not been allocated before. -/
structure PageTableMapper.FrameContract (mapper : PageTableMapper σ) where
  mappings : σ → Page4K → Option (U64 × MappingFlags)
  /-- the frames that have been handed out -/
  issued : σ → Set U64
  allocate : ∀ s, mappings (mapper.allocateFrame s).2 = mappings s ∧ issued s ⊆ issued (mapper.allocateFrame s).2
  fresh : ∀ s frame, (mapper.allocateFrame s).1 = some frame →
    frame ∉ issued s ∧ frame ∈ issued (mapper.allocateFrame s).2
  map : ∀ page frame flags s, Ends (mapper.mapPage page frame flags) s
    (fun _ s' => mappings s page = none ∧ mappings s' = Function.update (mappings s) page (some (frame, flags)) ∧
      issued s ⊆ issued s')
    fun _ _ => True

/-- A page with its frame and its permissions. -/
abbrev PageEntry : Type := Page4K × (U64 × MappingFlags)

namespace PageEntry

def mappedPage (e : PageEntry) : MappedPage := ⟨e.1.startAddress, e.2.1⟩

def mappedStackPage (e : PageEntry) : MappedStackPage := ⟨e.1, e.2.1⟩

/-- What the plan says of an entry. -/
def planned (e : PageEntry) : U64 × MappingFlags := (e.1.startAddress, e.2.2)

end PageEntry

namespace PageTableMapper.FrameContract

variable {mapper : PageTableMapper σ} (contract : mapper.FrameContract)
  {base : Page4K → Option (U64 × MappingFlags)} {entries : List PageEntry} {s s' : σ}

/-- The entries are what has been added to `base`, each with a frame of its own. -/
structure Recording (base : Page4K → Option (U64 × MappingFlags)) (entries : List PageEntry) (s : σ) : Prop where
  recorded : Recorded base (contract.mappings s) entries
  distinct : (entries.map fun e => e.2.1).Nodup
  taken : ∀ e ∈ entries, e.2.1 ∈ contract.issued s

private theorem Recording.refl (s : σ) : contract.Recording (contract.mappings s) [] s :=
  ⟨.refl _, List.nodup_nil, fun _ he => absurd he List.not_mem_nil⟩

/-- One round of a loop that succeeds: a frame is allocated, and the page is mapped to it. -/
private theorem Recording.push (h : contract.Recording base entries s) {page : Page4K} {frame : U64}
    {flags : MappingFlags} (hframe : (mapper.allocateFrame s).1 = some frame)
    (hmap : contract.mappings (mapper.allocateFrame s).2 page = none ∧
      contract.mappings s' =
        Function.update (contract.mappings (mapper.allocateFrame s).2) page (some (frame, flags)) ∧
      contract.issued (mapper.allocateFrame s).2 ⊆ contract.issued s') :
    contract.Recording base (entries ++ [(page, frame, flags)]) s' := by
  obtain ⟨hsame, hgrow⟩ := contract.allocate s
  obtain ⟨hnew, hissued⟩ := contract.fresh s frame hframe
  obtain ⟨hfree, hadded, hgrow'⟩ := hmap
  rw [hsame] at hfree hadded
  refine ⟨?_, ?_, fun e he => ?_⟩
  · rw [hadded]
    exact h.recorded.push hfree _
  · rw [List.map_append]
    refine List.nodup_append.mpr ⟨h.distinct, List.pairwise_singleton _ _, ?_⟩
    rintro f hf f' hf' rfl
    obtain ⟨e, he, rfl⟩ := List.mem_map.mp hf
    have heq : e.2.1 = frame := List.mem_singleton.mp hf'
    exact hnew (heq ▸ h.taken e he)
  · rcases List.mem_append.mp he with he | he
    · exact hgrow' (hgrow (h.taken e he))
    · obtain rfl := List.mem_singleton.mp he
      exact hgrow' hissued

/-! ### The segments -/

private theorem mapSegment_records {flags : MappingFlags} {stop : U64} {room : Nat} {address : U64}
    {pages : List MappedPage} (h : contract.Recording base entries s) :
    Ends (mapSegment mapper flags stop room address pages) s
      (fun pages' s' => ∃ new : List PageEntry, pages' = pages ++ new.map PageEntry.mappedPage ∧ new.length ≤ room ∧
        (∀ e ∈ new, e.2.2 = flags) ∧ contract.Recording base (entries ++ new) s') fun _ _ => True := by
  have hdone : ∀ {room : Nat} {pages : List MappedPage} {entries : List PageEntry} {s : σ},
      contract.Recording base entries s → Ends (Pure.pure pages : Exec σ LoadError _) s
        (fun pages' s' => ∃ new : List PageEntry, pages' = pages ++ new.map PageEntry.mappedPage ∧ new.length ≤ room ∧
          (∀ e ∈ new, e.2.2 = flags) ∧ contract.Recording base (entries ++ new) s') fun _ _ => True := by
    intro room pages entries s h
    exact .pure ⟨[], by simp, Nat.zero_le _, by simp, by rwa [List.append_nil]⟩
  induction room generalizing address pages entries s with
  | zero =>
    unfold mapSegment
    split_ifs
    · exact failLoad_ends
    · exact hdone h
  | succ room ih =>
    unfold mapSegment
    split_ifs
    · cases hpage : Page4K.fromStartAddress address with
      | none => exact failLoad_ends
      | some page =>
        obtain rfl := Page4K.fromStartAddress_eq_some.mp hpage
        refine .after rfl ?_
        cases hframe : (mapper.allocateFrame s).1 with
        | none => exact failLoad_ends
        | some frame =>
          refine .lift ((contract.map page frame flags _).imp (fun _ s₂ hmap => ?_) fun _ _ _ => failLoad_ends)
          have hpush := h.push contract hframe hmap
          cases checkedAdd page.startAddress pageSize4K with
          | none => exact failLoad_ends
          | some next =>
            refine (ih hpush).imp (fun pages' s₃ hnew => ?_) fun _ _ _ => trivial
            obtain ⟨new, hpages, hlength, hflags, hrecording⟩ := hnew
            refine ⟨(page, frame, flags) :: new, ?_, ?_, ?_, ?_⟩
            · rw [hpages, List.append_assoc]
              rfl
            · simpa using hlength
            · simpa using hflags
            · rwa [List.append_assoc] at hrecording
    · exact hdone h

/-- The segments are mapped in order, and never more pages than the result has room for. -/
private theorem mapSegments_records {segments : List SegmentMapping} {pages : List MappedPage}
    (h : contract.Recording base entries s) (hroom : pages.length ≤ maxMappedPages) :
    Ends (mapSegments mapper segments pages) s
      (fun pages' s' => ∃ new : List PageEntry, pages' = pages ++ new.map PageEntry.mappedPage ∧
        pages'.length ≤ maxMappedPages ∧
        new.map PageEntry.planned = segments.flatMap (fun m => m.pages.map fun address => (address, m.permissions)) ∧
        contract.Recording base (entries ++ new) s') fun _ _ => True := by
  induction segments generalizing pages entries s with
  | nil => exact .pure ⟨[], by simp, hroom, rfl, by rwa [List.append_nil]⟩
  | cons segment rest ih =>
    unfold mapSegments
    refine .okOr (fun _ => trivial) fun flags hflags => .bind ?_
    refine ((contract.mapSegment_records h).and mapSegment_pages).imp (fun pages₁ s₁ hseg => ?_) fun _ _ _ => trivial
    obtain ⟨⟨new, rfl, hlength, hnewflags, hrecording⟩, mapped, hmapped, haddresses⟩ := hseg
    obtain rfl := List.append_cancel_left hmapped
    have hroom₁ : (pages ++ new.map PageEntry.mappedPage).length ≤ maxMappedPages := by
      rw [List.length_append, List.length_map]
      omega
    have hplanned : new.map PageEntry.planned = segment.pages.map fun address => (address, segment.permissions) := by
      rw [SegmentMapping.pages, ← haddresses, List.map_map, List.map_map]
      refine List.map_congr_left fun e he => ?_
      rw [PageEntry.planned, hnewflags e he, flagsFromElf_eq_some hflags]
      rfl
    refine (ih hrecording hroom₁).imp (fun pages₂ s₂ hrest => ?_) fun _ _ _ => trivial
    obtain ⟨new', rfl, hlength', hplanned', hrecording'⟩ := hrest
    refine ⟨new ++ new', ?_, hlength', ?_, ?_⟩
    · rw [List.map_append, List.append_assoc]
    · rw [List.map_append, hplanned, hplanned', List.flatMap_cons]
    · rwa [← List.append_assoc]

private theorem mapLoadPlan_records {plan : LoadPlan} (h : contract.Recording base entries s) :
    Ends (mapLoadPlan mapper plan) s
      (fun load s' => ∃ new : List PageEntry, load.pages = new.map PageEntry.mappedPage ∧
        load.pages.length ≤ maxMappedPages ∧
        new.map PageEntry.planned =
          plan.segments.flatMap (fun m => m.pages.map fun address => (address, m.permissions)) ∧
        contract.Recording base (entries ++ new) s') fun _ _ => True := by
  refine .next (contract.mapSegments_records h (Nat.zero_le _)) fun pages s₁ hnew => ?_
  exact .pure hnew

/-! ### The stack -/

private theorem mapStack_records {load : LoadResult} {pages : List Page4K} {stack : List MappedStackPage}
    (h : contract.Recording base entries s) :
    Ends (mapStack mapper load pages stack) s
      (fun stack' s' => ∃ new : List PageEntry, stack' = stack ++ new.map PageEntry.mappedStackPage ∧
        new.map Prod.fst = pages ∧ (∀ e ∈ new, e.2.2 = .readWrite) ∧ contract.Recording base (entries ++ new) s')
      fun _ _ => True := by
  induction pages generalizing stack entries s with
  | nil => exact .pure ⟨[], by simp, rfl, by simp, by rwa [List.append_nil]⟩
  | cons page rest ih =>
    unfold mapStack
    refine .after rfl ?_
    cases hframe : (mapper.allocateFrame s).1 with
    | none => exact failBuild_ends
    | some frame =>
      refine .lift ((contract.map page frame .readWrite _).imp (fun _ s₂ hmap => ?_) fun _ _ _ => failBuild_ends)
      refine (ih (h.push contract hframe hmap)).imp (fun stack' s₃ hnew => ?_) fun _ _ _ => trivial
      obtain ⟨new, hstack, hpages, hflags, hrecording⟩ := hnew
      refine ⟨(page, frame, .readWrite) :: new, ?_, ?_, ?_, ?_⟩
      · rw [hstack, List.append_assoc]
        rfl
      · rw [List.map_cons, hpages]
      · simpa using hflags
      · rwa [List.append_assoc] at hrecording

end PageTableMapper.FrameContract

/-! ### The whole address space -/

private theorem length_pagesFrom (address : U64) (count : Nat) : (pagesFrom address count).length = count := by
  induction count generalizing address with
  | zero => rfl
  | succ count ih => rw [pagesFrom, List.length_cons, ih]

/-- The number of pages of a planned range. -/
def SegmentMapping.pageCount (m : SegmentMapping) : Nat :=
  (m.virtualRange.stop.toNat - m.virtualRange.start.toNat) / 4096

theorem SegmentMapping.Plans.length_pages {segment : LoadSegment} {m : SegmentMapping} (h : Plans segment m) :
    m.pages.length = m.pageCount := by
  have hstart := h.start
  have hstop := h.stop
  rw [SegmentMapping.pages, length_pagesFrom, SegmentMapping.pageCount]
  omega

private theorem LoadPlan.Lays.length_pages {elf : ElfImage} {plan : LoadPlan} (h : plan.Lays elf) :
    (plan.segments.flatMap SegmentMapping.pages).length = (plan.segments.map SegmentMapping.pageCount).sum := by
  rw [List.length_flatMap]
  refine congrArg List.sum (List.map_congr_left fun m hm => ?_)
  obtain ⟨segment, -, hplans⟩ := h.segments.exists_left hm
  exact hplans.length_pages

/-- The pages of a planned range, by their addresses. -/
private theorem LoadPlan.Lays.mem_pages_iff {elf : ElfImage} {plan : LoadPlan} (h : plan.Lays elf)
    {m : SegmentMapping} (hm : m ∈ plan.segments) (page : Page4K) :
    page.startAddress ∈ m.pages ↔ m.virtualRange.contains page.startAddress = true := by
  obtain ⟨segment, -, hplans⟩ := h.segments.exists_left hm
  have haligned := aligned_iff.mp page.aligned
  rw [hplans.mem_pages, VirtRange.contains_iff]
  exact and_iff_right haligned

/-- The mappings `after` are those `before` and the plan of the image, as the result records it. -/
structure BuiltAddressSpace.MapsPlan (before after : Page4K → Option (U64 × MappingFlags)) (image : ProcessImage)
    (built : BuiltAddressSpace) : Prop where
  added : ∀ page frame flags, after page = some (frame, flags) ↔ before page = some (frame, flags) ∨
    (∃ m ∈ image.loadPlan.segments, m.virtualRange.contains page.startAddress = true ∧
      ⟨page.startAddress, frame⟩ ∈ built.load.pages ∧ flags = m.permissions) ∨
    (⟨page, frame⟩ ∈ built.stackPages ∧ flags = .readWrite)
  unmapped : ∀ page, (∃ m ∈ image.loadPlan.segments, m.virtualRange.contains page.startAddress = true) ∨
    page ∈ image.stackPlan.pages → before page = none
  frames : (built.load.pages.map MappedPage.physicalAddress ++
    built.stackPages.map MappedStackPage.physicalAddress).Nodup
  once : (image.loadPlan.segments.flatMap SegmentMapping.pages).Nodup ∧ image.stackPlan.pages.Nodup
  page : ∀ index, (built.load.page index).map MappedPage.virtualAddress =
    (image.loadPlan.segments.flatMap SegmentMapping.pages)[index]?
  mappedPages : built.load.pages.length = (image.loadPlan.segments.map SegmentMapping.pageCount).sum ∧
    built.load.pages.length ≤ 128
  stackPage : ∀ index, (built.stackPage index).map MappedStackPage.virtualPage = image.stackPlan.pages[index]?

section Assembly

variable {mapper : PageTableMapper σ} {contract : mapper.FrameContract} {s' : σ}
  {before : Page4K → Option (U64 × MappingFlags)} {elf : ElfImage} {image : ProcessImage} {new stack : List PageEntry}

/-- The entries of the segments are those of the plan that the load has recorded. -/
private theorem mem_entries_iff (hlays : image.loadPlan.Lays elf)
    (hplanned : new.map PageEntry.planned =
      image.loadPlan.segments.flatMap (fun m => m.pages.map fun address => (address, m.permissions)))
    (page : Page4K) (frame : U64) (flags : MappingFlags) :
    (page, frame, flags) ∈ new ↔ ∃ m ∈ image.loadPlan.segments, m.virtualRange.contains page.startAddress = true ∧
      ⟨page.startAddress, frame⟩ ∈ new.map PageEntry.mappedPage ∧ flags = m.permissions := by
  -- every entry belongs to one segment
  have hsegment : ∀ e ∈ new, ∃ m ∈ image.loadPlan.segments, m.virtualRange.contains e.1.startAddress = true ∧
      e.2.2 = m.permissions := by
    intro e he
    have hmem : e.planned ∈ new.map PageEntry.planned := List.mem_map_of_mem he
    rw [hplanned, List.mem_flatMap] at hmem
    obtain ⟨m, hm, hin⟩ := hmem
    obtain ⟨address, haddress, heq⟩ := List.mem_map.mp hin
    obtain ⟨rfl, hflags⟩ := Prod.mk.inj heq
    exact ⟨m, hm, (hlays.mem_pages_iff hm e.1).mp haddress, hflags.symm⟩
  constructor
  · intro he
    obtain ⟨m, hm, hin, hflags⟩ := hsegment _ he
    exact ⟨m, hm, hin, List.mem_map.mpr ⟨_, he, rfl⟩, hflags⟩
  · rintro ⟨m, hm, hin, hmapped, rfl⟩
    obtain ⟨⟨page', frame', flags'⟩, he, heq⟩ := List.mem_map.mp hmapped
    obtain ⟨hpage, rfl⟩ := MappedPage.mk.inj heq
    obtain rfl : page' = page := by
      cases page'
      cases page
      cases hpage
      rfl
    obtain ⟨m', hm', hin', hflags⟩ := hsegment _ he
    obtain rfl := hlays.eq_of_contains hm hm' hin hin'
    obtain rfl : flags' = m.permissions := hflags
    exact he

private theorem PageTableMapper.FrameContract.Recording.mapsPlan {built : BuiltAddressSpace}
    (h : contract.Recording before (new ++ stack) s') (hlays : image.loadPlan.Lays elf)
    (hload : built.load.pages = new.map PageEntry.mappedPage) (hroom : built.load.pages.length ≤ maxMappedPages)
    (hplanned : new.map PageEntry.planned =
      image.loadPlan.segments.flatMap (fun m => m.pages.map fun address => (address, m.permissions)))
    (hstack : built.stackPages = stack.map PageEntry.mappedStackPage)
    (hpages : stack.map Prod.fst = image.stackPlan.pages) (hflags : ∀ e ∈ stack, e.2.2 = .readWrite) :
    built.MapsPlan before (contract.mappings s') image := by
  have haddresses : built.load.pages.map MappedPage.virtualAddress =
      image.loadPlan.segments.flatMap SegmentMapping.pages := by
    have hfst := congrArg (List.map Prod.fst) hplanned
    simp only [List.map_map, List.map_flatMap, Function.comp_def, List.map_id'] at hfst
    rw [hload, List.map_map]
    exact hfst
  have hstackPages : built.stackPages.map MappedStackPage.virtualPage = image.stackPlan.pages := by
    rw [hstack, List.map_map, ← hpages]
    rfl
  have hnodup := h.recorded.extended.nodup
  rw [List.map_append, hpages] at hnodup
  exact {
    added := by
      intro page frame flags
      have hinStack : (page, frame, flags) ∈ stack ↔ ⟨page, frame⟩ ∈ built.stackPages ∧ flags = .readWrite := by
        rw [hstack]
        constructor
        · intro he
          exact ⟨List.mem_map.mpr ⟨_, he, rfl⟩, hflags _ he⟩
        · rintro ⟨hmem, rfl⟩
          obtain ⟨⟨page', frame', flags'⟩, he, heq⟩ := List.mem_map.mp hmem
          obtain ⟨rfl, rfl⟩ := MappedStackPage.mk.inj heq
          obtain rfl : flags' = .readWrite := hflags _ he
          exact he
      rw [h.recorded.eq_some_iff, List.mem_append, mem_entries_iff hlays hplanned, hinStack, hload]
    unmapped := by
      intro page hpage
      refine (h.recorded.extended.added page ?_).1
      rw [List.map_append, List.mem_append, hpages]
      refine hpage.imp_left fun hsegment => ?_
      obtain ⟨m, hm, hin⟩ := hsegment
      have hmem : page.startAddress ∈ built.load.pages.map MappedPage.virtualAddress := by
        rw [haddresses, List.mem_flatMap]
        exact ⟨m, hm, (hlays.mem_pages_iff hm page).mpr hin⟩
      rw [hload, List.map_map] at hmem
      obtain ⟨e, he, heq⟩ := List.mem_map.mp hmem
      refine List.mem_map.mpr ⟨e, he, ?_⟩
      obtain ⟨⟨address, haligned⟩, value⟩ := e
      cases page
      cases heq
      rfl
    frames := by
      have hdistinct := h.distinct
      rw [List.map_append] at hdistinct
      rw [hload, hstack, List.map_map, List.map_map]
      exact hdistinct
    once := ⟨hlays.nodup_pages, (List.nodup_append.mp hnodup).2.1⟩
    page := by
      intro index
      rw [LoadResult.page, List.getElem?_guarded, ← haddresses, List.getElem?_map]
    mappedPages := by
      rw [← hlays.length_pages, ← haddresses, List.length_map]
      exact ⟨rfl, hroom⟩
    stackPage := by
      intro index
      rw [BuiltAddressSpace.stackPage, List.getElem?_guarded, ← hstackPages, List.getElem?_map] }

end Assembly

/-- Whatever a successful build returns, through any backend that maps only unmapped pages and never hands out a frame
twice: the mappings that it has added are exactly the plan. -/
theorem buildAddressSpace_mapsPlan (mapper : PageTableMapper σ) (contract : mapper.FrameContract) (bytes : Bytes)
    (spec spec' : AddressSpaceSpec) (image : ProcessImage)
    (himage : buildProcessImage bytes spec = .returned (.ok image)) (s s' : σ) (built : BuiltAddressSpace)
    (hbuild : (buildAddressSpace mapper spec' image).exec s = .returned (.ok built, s')) :
    built.MapsPlan (contract.mappings s) (contract.mappings s') image := by
  obtain ⟨-, -, elf, -, hplan⟩ := buildProcessImage_eq_ok himage
  have hlays := LoadPlan.build_lays hplan
  have hends : Ends (buildAddressSpace mapper spec' image) s
      (fun built s' => built.MapsPlan (contract.mappings s) (contract.mappings s') image) fun _ _ => True := by
    unfold buildAddressSpace
    refine .reject (fun _ => trivial) fun _ => .bind (.mapErr ?_)
    refine (contract.mapLoadPlan_records (.refl contract s)).imp (fun load s₁ hload => ?_) fun _ _ _ => trivial
    obtain ⟨new, hpages, hroom, hplanned, hrecording⟩ := hload
    refine .next (contract.mapStack_records hrecording) fun stack s₂ hstack => ?_
    obtain ⟨stackEntries, hstackPages, hstackPlan, hflags, hrecording⟩ := hstack
    -- the checks that follow change nothing
    refine .bind (access_ends.imp (fun entryAccess s₃ hs₃ => ?_) fun _ _ he => he)
    subst hs₃
    split_ifs
    · exact failBuild_ends
    · exact failBuild_ends
    · refine .okOr (fun _ => trivial) fun top _ =>
        .bind (access_ends.imp (fun stackAccess s₄ hs₄ => ?_) fun _ _ he => he)
      subst hs₄
      split_ifs
      · exact failBuild_ends
      · exact failBuild_ends
      · exact failBuild_ends
      · exact .pure (hrecording.mapsPlan hlays hpages hroom hplanned hstackPages hstackPlan hflags)
  exact hends.of_ok hbuild

/-! ### A table with a counter for its frames -/

/-- A table with the address of its next frame. -/
abbrev FrameTable := MapBackend U64

namespace FrameTable

def accessOf (s : FrameTable) (address : U64) : PageAccess :=
  match Page4K.fromStartAddress (address &&& pageMask) with
  | none => .unmapped
  | some page =>
    match s.table page with
    | none => .unmapped
    | some (_, flags) => ⟨true, true, true, flags.writable, flags.executable⟩

def takeNext (next : U64) : Option (U64 × U64) := (checkedAdd next pageSize4K).map fun after => (next, after)

def mapper : PageTableMapper FrameTable := MapBackend.mapper takeNext accessOf

/-- The counter moves on, or there is no frame. -/
private theorem allocateFrame_cases (s : FrameTable) :
    mapper.allocateFrame s = (none, s) ∨ ∃ next : U64, next.toNat = s.frames.toNat + 4096 ∧
      mapper.allocateFrame s = (some s.frames, { s with frames := next }) := by
  cases hnext : checkedAdd s.frames pageSize4K with
  | none => exact .inl (by simp [mapper, MapBackend.mapper, takeNext, hnext])
  | some next => exact .inr ⟨next, checkedAdd_eq_some.mp hnext, by simp [mapper, MapBackend.mapper, takeNext, hnext]⟩

def contract : mapper.FrameContract where
  mappings := MapBackend.table
  issued s := {frame | frame.toNat < s.frames.toNat}
  allocate s := by
    rcases s.allocateFrame_cases with h | ⟨next, hnext, h⟩
    · rw [h]
      exact ⟨rfl, fun _ hframe => hframe⟩
    · rw [h]
      refine ⟨rfl, fun frame hframe => ?_⟩
      have hlt : frame.toNat < s.frames.toNat := hframe
      show frame.toNat < next.toNat
      omega
  fresh s frame hframe := by
    rcases s.allocateFrame_cases with h | ⟨next, hnext, h⟩
    · rw [h] at hframe
      cases hframe
    · rw [h] at hframe ⊢
      cases hframe
      refine ⟨Nat.lt_irrefl _, ?_⟩
      show s.frames.toNat < next.toNat
      omega
  map page frame flags s := by
    refine (MapBackend.mapPage_ends takeNext accessOf page frame flags s).imp (fun _ s' hs' => ⟨hs'.1, ?_⟩)
      fun _ _ _ => trivial
    rw [hs'.2]
    exact ⟨rfl, fun _ h => h⟩

/-- The addresses and frames of the minimal image and the number of its stack pages, if it is built on an
empty table. -/
def minimal : Option (List (U64 × U64) × Nat) :=
  match buildProcessImage MinimalElf.bytes MinimalElf.spec with
  | .returned (.ok image) =>
    match (buildAddressSpace mapper MinimalElf.spec image).exec ⟨fun _ => none, 0x100000⟩ with
    | .returned (.ok built, _) =>
      some (built.load.pages.map fun p => (p.virtualAddress, p.physicalAddress), built.stackPages.length)
    | _ => none
  | _ => none

end FrameTable

/-- The minimal image on an empty table: two pages of the segment and sixteen of the stack. -/
theorem buildAddressSpace_mapsPlan_minimal : ∃ image built s',
    buildProcessImage MinimalElf.bytes MinimalElf.spec = .returned (.ok image) ∧
    (buildAddressSpace FrameTable.mapper MinimalElf.spec image).exec ⟨fun _ => none, 0x100000⟩ =
      .returned (.ok built, s') ∧
    built.load.pages.map (fun p => (p.virtualAddress, p.physicalAddress)) =
      [(0x401000, 0x100000), (0x402000, 0x101000)] ∧ built.stackPages.length = 16 ∧
    built.MapsPlan (fun _ => none) s'.table image := by
  have hbuilt : FrameTable.minimal = some ([(0x401000, 0x100000), (0x402000, 0x101000)], 16) := by decide +kernel
  unfold FrameTable.minimal at hbuilt
  split at hbuilt
  · rename_i image himage
    split at hbuilt
    · rename_i built s' hexec
      obtain ⟨hpages, hstack⟩ := Prod.mk.inj (Option.some.inj hbuilt)
      exact ⟨image, built, s', himage, hexec, hpages, hstack,
        buildAddressSpace_mapsPlan FrameTable.mapper FrameTable.contract _ _ _ image himage _ s' built hexec⟩
    · cases hbuilt
  · cases hbuilt

end X11Os
