import X11Os.Arch.ImageWriter
import X11Os.Arch.PlanLoading
import X11Os.Arch.SpaceRuns

/-!
# A loaded program in memory

The segments of an image are mapped to frames through the tables of a new address space, and their bytes written to
these frames through the direct map.  With the root of the address space active, the processor then finds the program
at the addresses of its segments, byte for byte and with the permissions of the file, and nothing anywhere else
(`loaded_image_shown`).
-/

namespace X11Os

open Word Amd64 Exec TableTree

/-! ### The program in the address space -/

/-- The address lies on a page of the segment. -/
def LoadSegment.Touches (segment : LoadSegment) (v : U64) : Prop :=
  segment.virtualRange.start.toNat / 4096 * 4096 ≤ v.toNat ∧
  v.toNat < (segment.virtualRange.stop.toNat + 4095) / 4096 * 4096

/-- What the processor finds in the lower half, with the root active: on the pages of a segment its bytes, and zero
around them, with its permissions; no other page. -/
def ElfImage.ShownIn (image : ElfImage) (root : U64) (m : Memory) : Prop :=
  ∀ v : U64, v.toNat < 2 ^ 47 →
    (∀ segment ∈ image.segments, segment.Touches v →
      ∃ w, PageWalk.descend (readTable m) v 4 (readTable m root) = some w ∧
        (∀ e ∈ w.entries, e.present = true ∧ e.userAccessible = true) ∧
        ((∀ e ∈ w.entries, e.writable = true) ↔ segment.writable = true) ∧
        ((∀ e ∈ w.entries, e.noExecute = false) ↔ segment.executable = true) ∧
        m (w.physical v) = segmentByte image.bytes segment v.toNat) ∧
    ((∀ segment ∈ image.segments, ¬ segment.Touches v) →
      PageWalk.descend (readTable m) v 4 (readTable m root) = none)

section Loading

variable {d : DirectMap} {tables : U64 → OffsetPageTable KernelMemory} {base s : KernelMemory} {r : U64}
  {entries : List PageEntry} {image : ElfImage} {plan : LoadPlan} {m : Memory}

private theorem Plans.permissions {segment : LoadSegment} {p : SegmentMapping} (h : SegmentMapping.Plans segment p) :
    p.permissions.writable = segment.writable ∧ p.permissions.executable = segment.executable := by
  obtain ⟨-, -, -, hwritable, hexecutable⟩ := SegmentMapping.permissions_built h.exclusive
  rw [hwritable, hexecutable, SegmentMapping.writable, SegmentMapping.executable, h.flags]
  exact ⟨rfl, rfl⟩

/-- The page of an address of a segment is one of the entries, with the permissions of the segment. -/
private theorem exists_entry_of_touches (hlays : plan.Lays image)
    (hplanned : entries.map PageEntry.planned = planned plan.segments)
    {segment : LoadSegment} (hsegment : segment ∈ image.segments) {v : U64} (hv : segment.Touches v) :
    (Page4K.containing v).startAddress ∈ segment.pages ∧
    ∃ frame flags, (Page4K.containing v, frame, flags) ∈ entries ∧ flags.writable = segment.writable ∧
      flags.executable = segment.executable := by
  obtain ⟨p, hp, hplans⟩ := hlays.segments.exists_right hsegment
  have hstart : (Page4K.containing v).startAddress.toNat = v.toNat / 4096 * 4096 := toNat_pageStartOf v
  have hpage : (Page4K.containing v).startAddress ∈ segment.pages := by
    rw [hlays.mem_pages hsegment, hstart]
    unfold LoadSegment.Touches at hv
    omega
  refine ⟨hpage, ?_⟩
  rw [← hplans.pages_eq] at hpage
  have hmem : ((Page4K.containing v).startAddress, p.permissions) ∈ entries.map PageEntry.planned := by
    rw [hplanned]
    exact List.mem_flatMap.mpr ⟨p, hp, List.mem_map_of_mem hpage⟩
  obtain ⟨⟨page, frame, flags⟩, hentry, heq⟩ := List.mem_map.mp hmem
  obtain ⟨haddress, rfl⟩ := Prod.mk.inj heq
  have hsame : page = Page4K.containing v := by
    cases page
    cases haddress
    rfl
  rw [hsame] at hentry
  exact ⟨frame, p.permissions, hentry, Plans.permissions hplans⟩

private theorem touches_of_entry (hlays : plan.Lays image)
    (hplanned : entries.map PageEntry.planned = planned plan.segments)
    {v frame : U64} {flags : MappingFlags} (hentry : (Page4K.containing v, frame, flags) ∈ entries) :
    ∃ segment ∈ image.segments, segment.Touches v := by
  have hmem : ((Page4K.containing v).startAddress, flags) ∈ planned plan.segments := by
    rw [← hplanned]
    exact List.mem_map_of_mem hentry
  obtain ⟨p, hp, hin⟩ := List.mem_flatMap.mp hmem
  obtain ⟨address, haddress, heq⟩ := List.mem_map.mp hin
  obtain ⟨rfl, -⟩ := Prod.mk.inj heq
  obtain ⟨segment, hsegment, hplans⟩ := hlays.segments.exists_left hp
  have hstart : (Page4K.containing v).startAddress.toNat = v.toNat / 4096 * 4096 := toNat_pageStartOf v
  rw [hplans.pages_eq, hlays.mem_pages hsegment, hstart] at haddress
  refine ⟨segment, hsegment, ?_⟩
  unfold LoadSegment.Touches
  omega

theorem LoadPlan.Lays.flatMap_pages (h : plan.Lays image) :
    plan.segments.flatMap SegmentMapping.pages = image.segments.flatMap LoadSegment.pages := by
  rw [List.flatMap_def, List.flatMap_def,
    ← h.segments.map_eq fun _ _ hplans => (SegmentMapping.Plans.pages_eq hplans).symm]

theorem LoadPlan.Lays.stop_le (h : plan.Lays image)
    (hlow : ∀ segment ∈ image.segments, segment.virtualRange.stop.toNat ≤ 2 ^ 47) :
    ∀ p ∈ plan.segments, p.virtualRange.stop.toNat ≤ 2 ^ 47 := by
  intro p hp
  obtain ⟨segment, hsegment, hplans⟩ := h.segments.exists_left hp
  have hsegmentLow := hlow segment hsegment
  rw [hplans.stop]
  omega

/-- The load that the entries stand for. -/
private theorem Installed.framed (h : Installed d base r entries s) (hlays : plan.Lays image)
    (hplanned : entries.map PageEntry.planned = planned plan.segments) (entry : U64) :
    LoadResult.Framed ⟨entry, entries.map PageEntry.mappedPage⟩ ∧
      (entries.map PageEntry.mappedPage).map MappedPage.virtualAddress =
      image.segments.flatMap LoadSegment.pages := by
  have hpages : (entries.map PageEntry.mappedPage).map MappedPage.virtualAddress =
      plan.segments.flatMap SegmentMapping.pages := by
    rw [← map_fst_planned, ← hplanned, List.map_map, List.map_map]
    rfl
  refine ⟨⟨?_, ?_, ?_⟩, hpages.trans hlays.flatMap_pages⟩
  · rw [hpages]
    exact hlays.nodup_pages
  · intro mapped hmapped
    obtain ⟨e, he, rfl⟩ := List.mem_map.mp hmapped
    exact (h.frames e he).1.isFrame.1
  · rw [List.map_map]
    exact h.distinct

/-- A byte of a page of the image. -/
private theorem patched_inside {entry : U64} (hframed : LoadResult.Framed ⟨entry, entries.map PageEntry.mappedPage⟩)
    (hpatched : Patched (image.segments.flatMap fun segment => segment.pages.map
      (pagePatch ⟨entry, entries.map PageEntry.mappedPage⟩ image.bytes segment)) m s.memory) {segment : LoadSegment}
    (hsegment : segment ∈ image.segments) {page : Page4K}
    (hpage : page.startAddress ∈ segment.pages) {frame : U64} {flags : MappingFlags}
    (hentry : (page, frame, flags) ∈ entries)
    {i : Nat} (hi : i < 4096) :
    s.memory (frame + BitVec.ofNat 64 i) = segmentByte image.bytes segment (page.startAddress.toNat + i) := by
  have hmapped : (⟨page.startAddress, frame⟩ : MappedPage) ∈ entries.map PageEntry.mappedPage :=
    List.mem_map_of_mem hentry
  have hframe := hframed.frameOf_eq hmapped
  have hsub := toNat_add_ofNat_sub (p := frame) hi
  dsimp only at hframe
  have hbyte := hpatched.inside _ (List.mem_flatMap.mpr ⟨segment, hsegment, List.mem_map_of_mem hpage⟩)
    (frame + BitVec.ofNat 64 i) (show Within (LoadResult.frameOf _ page.startAddress) 4096 _ by
      rw [hframe, Within, hsub]; exact hi)
  refine hbyte.trans ?_
  show segmentByte _ _ _ = _
  rw [hframe, hsub]

/-- Once the bytes have been written to the frames of the entries, the program is there. -/
theorem Installed.shown (h : Installed d base r entries s) (hlays : plan.Lays image)
    (hplanned : entries.map PageEntry.planned = planned plan.segments) {entry : U64}
    (hpatched : Patched (image.segments.flatMap fun segment => segment.pages.map
      (pagePatch ⟨entry, entries.map PageEntry.mappedPage⟩ image.bytes segment)) m s.memory) :
    image.ShownIn r s.memory := by
  obtain ⟨hframed, -⟩ := h.framed hlays hplanned entry
  intro v hv
  have hwalk := h.working.spaces.trees.walk_eq (List.mem_singleton_self r) v hv
  have hpagesOf : ∀ page value, mappingIn (readTable s.memory) r page = some value ↔ (page, value) ∈ entries := by
    intro page value
    rw [h.recorded.eq_some_iff]
    simp
  refine ⟨fun segment hsegment htouches => ?_, fun huntouched => ?_⟩
  · obtain ⟨hpage, frame, flags, hentry, hwritable, hexecutable⟩ :=
      exists_entry_of_touches hlays hplanned hsegment htouches
    rw [(hpagesOf _ _).mpr hentry] at hwalk
    obtain ⟨w, hdescend, hgives⟩ := hwalk
    refine ⟨w, hdescend, hgives.user, ?_, ?_, ?_⟩
    · rw [hgives.writable, hwritable]
    · rw [hgives.executable, hexecutable]
    · have hstart : (Page4K.containing v).startAddress.toNat = v.toNat / 4096 * 4096 := toNat_pageStartOf v
      rw [hgives.physical, patched_inside hframed hpatched hsegment hpage hentry (Nat.mod_lt _ (by decide)), hstart,
        Nat.div_add_mod' v.toNat 4096]
  · cases hmapping : mappingIn (readTable s.memory) r (.containing v) with
    | none =>
      rw [hmapping] at hwalk
      exact hwalk
    | some value =>
      obtain ⟨segment, hsegment, htouches⟩ := touches_of_entry hlays hplanned ((hpagesOf _ _).mp hmapping)
      exact absurd htouches (huntouched segment hsegment)

/-! ### The writer on the frames of the entries -/

/-- What is written to the frame of an entry changes no table. -/
private theorem Installed.write (h : Installed d base r entries s) {e : PageEntry} (he : e ∈ entries)
    {memory : Memory} (houtside : ∀ x, ¬ Within e.2.1 4096 x → memory x = s.memory x) :
    Installed d base r entries { s with memory } := by
  obtain ⟨hprivate, hwas, -⟩ := h.frames e he
  obtain ⟨hworking, hsame, huse⟩ := h.working.write hprivate hwas houtside
  refine ⟨hworking, ?_, fun e' he' => ?_, h.distinct⟩
  · rw [hsame r (List.mem_singleton_self r)]
    exact h.recorded
  · obtain ⟨hprivate', hrest⟩ := h.frames e' he'
    exact ⟨⟨hprivate'.isFrame, hprivate'.taken, fun hin => hprivate'.noTable ((huse _).mp hin)⟩, hrest⟩

private theorem Installed.faithfulOn (h : Installed d base r entries s) :
    (X86ImagePageWriter.writer ⟨d.offset⟩).FaithfulOn (Installed d base r entries) KernelMemory.memory
      (· ∈ entries.map fun e => e.2.1) := by
  refine X86ImagePageWriter.writer_faithfulOn ?_ ?_ ?_
  · intro p hp
    obtain ⟨e, he, rfl⟩ := List.mem_map.mp hp
    obtain ⟨hprivate, -, hreached⟩ := h.frames e he
    exact ⟨hprivate.isFrame, hreached⟩
  · intro s h p hp
    obtain ⟨e, he, rfl⟩ := List.mem_map.mp hp
    obtain ⟨hprivate, hwas, -⟩ := h.frames e he
    exact h.working.frame_stable hprivate hwas
  · intro s h p hp memory houtside
    obtain ⟨e, he, rfl⟩ := List.mem_map.mp hp
    exact h.write he houtside

end Loading

/-- The calls that make an address space for an accepted image below the hole, with a frame for the root and four for
each page: none of them fails, the pages of the plan are installed, and the bytes of the image are written to them. -/
theorem image_loads {bytes : Bytes} {spec : AddressSpaceSpec} {image : ElfImage} {plan : LoadPlan}
    (hparse : (ElfImage.parse bytes).run = .returned (.ok image)) (hplan : LoadPlan.build spec image = .ok plan)
    (hlow : ∀ segment ∈ image.segments, segment.virtualRange.stop.toNat ≤ 2 ^ 47)
    (hroom : (image.segments.flatMap LoadSegment.pages).length ≤ maxMappedPages) {d : DirectMap}
    {tables : U64 → OffsetPageTable KernelMemory} (hcontract : TableContract d tables) {roots : List U64}
    {s : KernelMemory} (hspaces : Spaces d roots s) (hground : Grounded d s)
    (hleft : 4 * (image.segments.flatMap LoadSegment.pages).length + 1 ≤ s.left) :
    ∃ root s₁ entries s₂ s₃, Runs (newUserRoot d.offset) s root s₁ ∧
      Runs (mapLoadPlan (rootMapper tables root) plan) s₁ ⟨plan.entry, entries.map PageEntry.mappedPage⟩ s₂ ∧
      Runs (populateImage (X86ImagePageWriter.writer ⟨d.offset⟩) image
        ⟨plan.entry, entries.map PageEntry.mappedPage⟩) s₂ () s₃ ∧
      entries.map PageEntry.planned = planned plan.segments ∧ Installed d s root entries s₃ ∧
      Patched (image.segments.flatMap fun segment => segment.pages.map
        (pagePatch ⟨plan.entry, entries.map PageEntry.mappedPage⟩ image.bytes segment)) s₂.memory s₃.memory := by
  have hlays := LoadPlan.build_lays hplan
  obtain ⟨rfl, hfile⟩ := ElfImage.ofFile_of_parse hparse
  have hstart : Working d s [] s := .start hground hspaces.allocator hspaces.low
  rcases hstart.newUserRoot with ⟨-, -, -, -, -, hnone, -⟩ | ⟨root, s₁, hroot, htakes, hworking, -, -, -, hempty⟩
  · omega
  · have hcost := htakes.cost
    obtain ⟨entries, s₂, hload, hplanned, hinstalled, -⟩ := mapLoadPlan_installs hcontract hlays (hlays.stop_le hlow)
      (hlays.flatMap_pages ▸ hroom) (.refl hworking hempty) (by rw [hlays.flatMap_pages]; omega)
    obtain ⟨hframed, hpages⟩ := hinstalled.framed hlays hplanned plan.entry
    obtain ⟨s₃, hpopulate, hinstalled', hpatched⟩ := populateSegments_runs hinstalled.faithfulOn hframed
      (fun mapped hmapped => by
        obtain ⟨e, he, rfl⟩ := List.mem_map.mp hmapped
        exact List.mem_map_of_mem he)
      hfile (fun b hb => by rw [hpages]; exact hb) (hpages ▸ hframed.pages) hinstalled
    exact ⟨root, s₁, entries, s₂, s₃, hroot, hload, hpopulate, hplanned, hinstalled', hpatched⟩

/-- A program in a new address space.  Over tables that keep the contract, an accepted image of at most 128 pages
below the hole is mapped and written without an error, with a frame for the root and four for each page.  With the
root active the processor finds the bytes of the file and zeros, with the permissions of the segments, and nothing
else in the lower half, and in the upper half the kernel.  The other address spaces and the frames that belong to
someone are as before. -/
theorem loaded_image_shown {bytes : Bytes} {spec : AddressSpaceSpec} {image : ElfImage} {plan : LoadPlan}
    (hparse : (ElfImage.parse bytes).run = .returned (.ok image)) (hplan : LoadPlan.build spec image = .ok plan)
    (hlow : ∀ segment ∈ image.segments, segment.virtualRange.stop.toNat ≤ 2 ^ 47)
    (hroom : (image.segments.flatMap LoadSegment.pages).length ≤ maxMappedPages) {d : DirectMap}
    {tables : U64 → OffsetPageTable KernelMemory} (hcontract : TableContract d tables) {roots : List U64}
    {s : KernelMemory} (hspaces : Spaces d roots s) (hground : Grounded d s)
    (hleft : 4 * (image.segments.flatMap LoadSegment.pages).length + 1 ≤ s.left) :
    ∃ root s₁ load s₂ s₃, Runs (newUserRoot d.offset) s root s₁ ∧
      Runs (mapLoadPlan (rootMapper tables root) plan) s₁ load s₂ ∧
      Runs (populateImage (X86ImagePageWriter.writer ⟨d.offset⟩) image load) s₂ () s₃ ∧ image.ShownIn root s₃.memory ∧
      (∀ i : Fin 512, kernelP4Start ≤ i.val → readTable s₃.memory root i = readTable s.memory s.cr3 i) ∧
      Spaces d (root :: roots) s₃ ∧ SameMappings roots s s₃ ∧
      ∀ frame, IsFrame frame → frame.toNat ∉ s.allocator.free → ∀ x, Within frame 4096 x →
        s₃.memory x = s.memory x := by
  obtain ⟨root, s₁, entries, s₂, s₃, hroot, hload, hpopulate, hplanned, hinstalled, hpatched⟩ :=
    image_loads hparse hplan hlow hroom hcontract hspaces hground hleft
  exact ⟨root, s₁, _, s₂, s₃, hroot, hload, hpopulate, hinstalled.shown (LoadPlan.build_lays hplan) hplanned hpatched,
    hinstalled.working.half root (List.mem_cons_of_mem _ (List.mem_singleton_self root)),
    hinstalled.working.others hspaces⟩

/-- The segment of the minimal image takes two pages below the hole. -/
theorem MinimalElf.extent {elf : ElfImage} (h : elf.segments = [MinimalElf.segment]) :
    (elf.segments.flatMap LoadSegment.pages).length = 2 ∧
      ∀ segment ∈ elf.segments, segment.virtualRange.stop.toNat ≤ 2 ^ 47 := by
  rw [h]
  decide

/-- The minimal image in sixteen frames: at its entry the processor finds the first byte of the file, to be run. -/
theorem loaded_image_shown_minimal : ∃ (image : ElfImage) (root : U64) (m : Memory), image.ShownIn root m ∧ ∃ w,
    PageWalk.descend (readTable m) 0x401001 4 (readTable m root) = some w ∧ (∀ e ∈ w.entries, e.noExecute = false) ∧
    m (w.physical 0x401001) = 0x7f := by
  obtain ⟨elf, image, load, t', hparse, hplan, -, hsegments, -⟩ := MinimalElf.loads
  have hbytes : elf.bytes = MinimalElf.bytes := (ElfImage.ofFile_of_parse hparse).1
  obtain ⟨hcount, hlow⟩ := MinimalElf.extent hsegments
  have hspaces := SpaceState.booted_sixteenFrames.represents.working.spaces
  obtain ⟨root, s₁, loaded, s₂, s₃, -, -, -, hshown, -⟩ :=
    loaded_image_shown hparse hplan hlow (by rw [hcount]; decide) (contract_referenceTables .gibibyte) hspaces
      SpaceState.booted_sixteenFrames.grounded (by rw [hcount]; decide)
  obtain ⟨w, hwalk, -, -, hexecutable, hbyte⟩ := (hshown 0x401001 (by decide)).1 MinimalElf.segment
    (by rw [hsegments]; exact List.mem_cons_self) ⟨by decide, by decide⟩
  rw [hbytes] at hbyte
  exact ⟨elf, root, s₃.memory, hshown, w, hwalk, hexecutable.mpr (by decide), hbyte⟩

end X11Os
