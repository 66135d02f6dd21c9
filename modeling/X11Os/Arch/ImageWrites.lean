import X11Os.Arch.ImageLoading
import X11Os.Arch.SpaceWrites

/-!
# The Write system call of a loaded program

A program that has been loaded asks for its own bytes to be written.  `ElfImage.byteAt` says, from the ELF image
alone, which byte the program has at an address: the byte of the file, zero in the rest of the pages of a segment, and
none elsewhere.  With the root of the program active, `Write` on any slice below the hole is the write on these bytes
(`loaded_image_written`), through the load plan, the page tables, the direct map, the walk and the copy in chunks.
-/

namespace X11Os

open Word Amd64 Exec TableTree

instance (segment : LoadSegment) (v : U64) : Decidable (segment.Touches v) := inferInstanceAs (Decidable (_ ∧ _))

/-- The byte of a program at an address. -/
def ElfImage.byteAt (image : ElfImage) (v : U64) : Option U8 :=
  (image.segments.find? fun segment => segment.Touches v).map fun segment => segmentByte image.bytes segment v.toNat

private theorem UserSlice.readFrom_congr {bytes bytes' : U64 → Option U8} {c : UserSlice} (hlow : c.Low)
    (h : ∀ v : U64, v.toNat < 2 ^ 47 → bytes v = bytes' v) : c.readFrom bytes = c.readFrom bytes' := by
  have hstop := hlow.2
  have hlist : ∀ l : List Nat, (∀ i ∈ l, i < c.len.toNat) →
      l.mapM (fun i => bytes (c.ptr + BitVec.ofNat 64 i)) = l.mapM fun i => bytes' (c.ptr + BitVec.ofNat 64 i) := by
    intro l
    induction l with
    | nil => intro _; rfl
    | cons i l ih =>
      intro hl
      rw [List.forall_mem_cons] at hl
      have hi : (c.ptr + BitVec.ofNat 64 i).toNat < 2 ^ 47 := by
        rw [BitVec.toNat_add, BitVec.toNat_ofNat]
        omega
      rw [List.mapM_cons, List.mapM_cons, h _ hi, ih hl.2]
  exact hlist _ fun i hi => List.mem_range.mp hi

/-- Below the hole only the bytes there matter. -/
private theorem Shows.congr {view : UserMemoryView} {backend : UserCopyBackend} {bytes bytes' : U64 → Option U8}
    (h : Shows view backend bytes) (hsame : ∀ v : U64, v.toNat < 2 ^ 47 → bytes v = bytes' v) :
    Shows view backend bytes' := by
  intro c hlen hlow
  rw [h c hlen hlow, UserSlice.readFrom_congr hlow hsame]

/-- The bytes of the address space in which a program is shown are those of the program. -/
private theorem ElfImage.ShownIn.spaceByte_eq {image : ElfImage} {d : DirectMap} {root : U64} {s : KernelMemory}
    (h : image.ShownIn root s.memory) (hspaces : Spaces d [root] s) {v : U64} (hv : v.toNat < 2 ^ 47) :
    spaceByte root s.memory v = image.byteAt v := by
  have hwalk := hspaces.trees.walk_eq (List.mem_singleton_self root) v hv
  obtain ⟨htouched, huntouched⟩ := h v hv
  unfold spaceByte spacePhysical ElfImage.byteAt
  cases hfind : image.segments.find? fun segment => segment.Touches v with
  | none =>
    have hnone : PageWalk.descend (readTable s.memory) v 4 (readTable s.memory root) = none := by
      apply huntouched
      intro segment hsegment htouches
      have := List.find?_eq_none.mp hfind segment hsegment
      simp [htouches] at this
    cases hmapping : mappingIn (readTable s.memory) root (.containing v) with
    | none => rfl
    | some mapping =>
      rw [hmapping] at hwalk
      obtain ⟨w, hw, -⟩ := hwalk
      rw [hnone] at hw
      cases hw
  | some segment =>
    have htouches : segment.Touches v := by simpa using List.find?_some hfind
    obtain ⟨w, hw, -, -, -, hbyte⟩ := htouched segment (List.mem_of_find?_eq_some hfind) htouches
    cases hmapping : mappingIn (readTable s.memory) root (.containing v) with
    | none =>
      rw [hmapping] at hwalk
      rw [hwalk] at hw
      cases hw
    | some mapping =>
      rw [hmapping] at hwalk
      obtain ⟨w', hw', hgives⟩ := hwalk
      rw [hw] at hw'
      cases hw'
      rw [hgives.physical] at hbyte
      exact congrArg some hbyte

/-- The address space of the entries can be active. -/
private theorem Installed.isActive {d : DirectMap} {base s : KernelMemory} {r : U64} {entries : List PageEntry}
    (h : Installed d base r entries s) : Active d r s := by
  have hactive := h.working.activate (List.mem_cons_of_mem _ (List.mem_singleton_self r))
  refine ⟨h.working.spaces, hactive.grounded.stable.shownBy, fun page frame flags hmapped => ?_⟩
  have hentry : (page, frame, flags) ∈ entries := by
    rw [h.recorded.eq_some_iff] at hmapped
    simpa using hmapped
  obtain ⟨hprivate, -, hreached⟩ := h.frames _ hentry
  exact ⟨hprivate.isFrame, hreached⟩

/-- An accepted image of at most 128 pages below the hole in a new address space, over tables that keep the
contract, with a frame for the root and four for each page.  With its root active, `Write` on a slice below the hole
is the write on the bytes that the file gives the program: the same result, and the same pieces to the sink,
whatever it does. -/
theorem loaded_image_written {bytes : Bytes} {spec : AddressSpaceSpec} {image : ElfImage} {plan : LoadPlan}
    (hparse : (ElfImage.parse bytes).run = .returned (.ok image)) (hplan : LoadPlan.build spec image = .ok plan)
    (hlow : ∀ segment ∈ image.segments, segment.virtualRange.stop.toNat ≤ 2 ^ 47)
    (hroom : (image.segments.flatMap LoadSegment.pages).length ≤ maxMappedPages) {d : DirectMap}
    {tables : U64 → OffsetPageTable KernelMemory} (hcontract : TableContract d tables) {roots : List U64}
    {s : KernelMemory} (hspaces : Spaces d roots s) (hground : Grounded d s)
    (hleft : 4 * (image.segments.flatMap LoadSegment.pages).length + 1 ≤ s.left) :
    ∃ root s₁ load s₂ s₃, Runs (newUserRoot d.offset) s root s₁ ∧
      Runs (mapLoadPlan (rootMapper tables root) plan) s₁ load s₂ ∧
      Runs (populateImage (X86ImagePageWriter.writer ⟨d.offset⟩) image load) s₂ () s₃ ∧
      ∀ fault : Memory, let memory := kernelView fault root s₃.memory
        ∃ user, X86ActiveUserMemory.current d.offset root memory = .returned user ∧
          ∀ (slice : UserSlice) (sink : WriteSink) (received : List (List U8)),
            slice.ptr.toNat + slice.len.toNat ≤ 2 ^ 47 →
            sysWriteWithMemory slice user.view (x86UserCopyBackend user.view ⟨d.offset⟩ memory) sink received =
              (.returned (writeFrom image.byteAt sink slice received).1,
                (writeFrom image.byteAt sink slice received).2) := by
  obtain ⟨root, s₁, entries, s₂, s₃, hroot, hload, hpopulate, hplanned, hinstalled, hpatched⟩ :=
    image_loads hparse hplan hlow hroom hcontract hspaces hground hleft
  have hshown := hinstalled.shown (LoadPlan.build_lays hplan) hplanned hpatched
  have hactive := hinstalled.isActive
  refine ⟨root, s₁, _, s₂, s₃, hroot, hload, hpopulate, fun fault =>
    ⟨_, hactive.current_eq fault, fun slice sink received hslice => ?_⟩⟩
  exact sysWrite_eq ((hactive.shows fault).congr fun v hv => hshown.spaceByte_eq hactive.spaces hv) hslice received

/-- The minimal image writes the first bytes of its own file. -/
theorem loaded_image_written_minimal : ∃ (root : U64) (m : Memory) (user : X86ActiveUserMemory),
    X86ActiveUserMemory.current 0xffff800000000000 root (kernelView (fun _ => 0) root m) = .returned user ∧
    sysWriteWithMemory ⟨0x401001, 4⟩ user.view
      (x86UserCopyBackend user.view ⟨0xffff800000000000⟩ (kernelView (fun _ => 0) root m)) ⟨fun _ _ => .ok ()⟩ [] =
      (.returned (.ok 4), [[0x7f, 0x45, 0x4c, 0x46]]) := by
  obtain ⟨elf, image, load, t', hparse, hplan, -, hsegments, -⟩ := MinimalElf.loads
  have hbytes : elf.bytes = MinimalElf.bytes := (ElfImage.ofFile_of_parse hparse).1
  obtain ⟨hcount, hlow⟩ := MinimalElf.extent hsegments
  have hspaces := SpaceState.booted_sixteenFrames.represents.working.spaces
  obtain ⟨root, s₁, loaded, s₂, s₃, -, -, -, hwrite⟩ :=
    loaded_image_written hparse hplan hlow (by rw [hcount]; decide) (contract_referenceTables .gibibyte) hspaces
      SpaceState.booted_sixteenFrames.grounded (by rw [hcount]; decide)
  have hresult : writeFrom elf.byteAt ⟨fun _ _ => .ok ()⟩ ⟨0x401001, 4⟩ [] = (.ok 4, [[0x7f, 0x45, 0x4c, 0x46]]) := by
    unfold ElfImage.byteAt
    rw [hsegments, hbytes]
    decide
  obtain ⟨user, huser, hslices⟩ := hwrite fun _ => 0
  have hslice := hslices ⟨0x401001, 4⟩ ⟨fun _ _ => .ok ()⟩ [] (by decide)
  rw [hresult] at hslice
  exact ⟨root, s₃.memory, user, huser, hslice⟩

end X11Os
