import X11Os.Arch.AddressSpaces
import X11Os.Lib.Hoare

/-!
# The page-table backend over tables in memory

`map_page` and `unmap_page` of `X86PageTableMapper` (`arch/x86_64/page_table.rs`) call `map_to` and `unmap` of
the crate.  What the crate does to the tables of a root is not modelled: it is assumed to be as `TableContract`
says, for each root by itself, and as long as the direct map stays in place whatever is written to its tables and
to free frames.

Both calls refuse a page outside the declared user range, and panic on one in the non-canonical hole; `map_page` also
panics on a physical address of more than 52 bits.  On the others they do what the tables do, with the errors of the
backend, and leave the pages of every other root alone (`mapPage_spec`, `unmapPage_spec`).
-/

namespace X11Os

open Word Amd64 Exec

/-- The flags that the constructors of the source build. -/
def MappingFlags.Built (flags : MappingFlags) : Prop :=
  flags = .readOnly ∨ flags = .readWrite ∨ flags = .readExecute ∨ flags = .readWriteExecute

/-! ### What is assumed of the crate -/

/-- `map_to` maps exactly the page that is asked for, at the cost of up to three frames for tables, or leaves the
pages of the root as they were: the page has been mapped already, or the frames have run out. -/
structure MapOutcome (d : DirectMap) (r : U64) (page : Page4K) (mapping : U64 × MappingFlags) (s : KernelMemory)
    (result : Except MapToError Unit) (s' : KernelMemory) : Prop where
  spaces : Spaces d [r] s'
  evolves : Evolves [r] s s'
  spends : Spends 3 s s'
  cases : (result = .error .frameAllocationFailed ∧ SameMappings [r] s s' ∧ s.left < 3 ∧ s'.left = 0) ∨
    (result = .error .pageAlreadyMapped ∧ SameMappings [r] s s' ∧ (mappingIn (readTable s.memory) r page).isSome) ∨
    (result = .ok () ∧ mappingIn (readTable s.memory) r page = none ∧
      mappingIn (readTable s'.memory) r = Function.update (mappingIn (readTable s.memory) r) page (some mapping))

/-- `unmap` takes away exactly the page that is asked for, or reports that it is not mapped and changes nothing. -/
def UnmapOutcome (d : DirectMap) (r : U64) (page : Page4K) (s : KernelMemory) (result : Except UnmapError U64)
    (s' : KernelMemory) : Prop :=
  (mappingIn (readTable s.memory) r page = none ∧ result = .error .pageNotMapped ∧ s' = s) ∨
    ∃ frame flags, mappingIn (readTable s.memory) r page = some (frame, flags) ∧ result = .ok frame ∧
      Spaces d [r] s' ∧ Evolves [r] s s' ∧ s'.left = s.left ∧
      mappingIn (readTable s'.memory) r = Function.update (mappingIn (readTable s.memory) r) page none

/-- The assumptions on `OffsetPageTable`, for the tables of every root.  Its frames come from the allocator
of the kernel. -/
structure TableContract (d : DirectMap) (tables : U64 → OffsetPageTable KernelMemory) : Prop where
  allocateFrame : ∀ r s, (tables r).allocateFrame s = s.allocateFrame
  mapTo : ∀ r s, Spaces d [r] s → d.StableOn s (Workspace [r] s) → ∀ (v : VirtAddr) (page : Page4K) (frame : U64)
    (flags : PageTableFlags), v.asU64 = page.startAddress → page.startAddress.toNat < 2 ^ 47 → IsFrame frame →
    flags.userAccessible = true → (flags.writable = true → flags.noExecute = true) →
    MapOutcome d r page (frame, flags.mappingFlags) s ((tables r).mapTo v frame flags s).1
      ((tables r).mapTo v frame flags s).2
  unmap : ∀ r s, Spaces d [r] s → d.StableOn s (Workspace [r] s) → ∀ (v : VirtAddr) (page : Page4K),
    v.asU64 = page.startAddress → page.startAddress.toNat < 2 ^ 47 →
    UnmapOutcome d r page s ((tables r).unmap v s).1 ((tables r).unmap v s).2

namespace X86PageTableMapper

variable {σ : Type} {d : DirectMap} {tables : U64 → OffsetPageTable KernelMemory} {roots : List U64}
  {s : KernelMemory} {r frame : U64} {page : Page4K} {flags : MappingFlags}

/-- The page lies in the declared user range. -/
def InRange (page : Page4K) : Prop :=
  0x10000 ≤ page.startAddress.toNat ∧ page.startAddress.toNat + 4096 ≤ 0xffff800000000000

private theorem checkPage_cases (page : Page4K) (s : σ) :
    (¬ InRange page ∧ ∃ error, (checkPage userRange page).exec s = .returned (.error error, s)) ∨
      (InRange page ∧ (checkPage userRange page).exec s = .returned (.ok (), s)) := by
  have hstart : userRange.start.toNat = 0x10000 := rfl
  have hstop : userRange.stop.toNat = 0xffff800000000000 := rfl
  have halign := aligned_iff.mp page.aligned
  cases hend : page.endAddress with
  | none =>
    have hrange : page.range = none := by rw [Page4K.range, hend, Option.bind_none]
    have hover := checkedAdd_eq_none.mp hend
    rw [toNat_pageSize4K] at hover
    refine .inl ⟨fun hin => ?_, .invalidVirtualAddress, ?_⟩
    · unfold InRange at hin
      omega
    · rw [checkPage, exec_bind, hrange]
      rfl
  | some stop =>
    have hstopValue := checkedAdd_eq_some.mp hend
    rw [toNat_pageSize4K] at hstopValue
    have hle : page.startAddress ≤ stop := by
      rw [BitVec.le_def]
      omega
    have hrange : page.range = some ⟨page.startAddress, stop, hle⟩ := by
      rw [Page4K.range, hend, Option.bind_some, VirtRange.new, dif_pos hle]
    have hcheck : (checkPage userRange page).exec s =
        (if page.startAddress < userRange.start ∨ stop > userRange.stop then
          Panics.returned (.error .outsideAddressSpace, s) else .returned (.ok (), s)) := by
      simp only [checkPage, exec_bind, hrange, exec_okOr_some, Panics.bind_returned, andThen_ok, exec_reject]
    rw [hcheck]
    split_ifs with hout
    · refine .inl ⟨fun hin => ?_, _, rfl⟩
      unfold InRange at hin
      rw [BitVec.lt_def, gt_iff_lt, BitVec.lt_def, hstart, hstop] at hout
      omega
    · refine .inr ⟨?_, rfl⟩
      rw [BitVec.lt_def, gt_iff_lt, BitVec.lt_def, hstart, hstop] at hout
      unfold InRange
      omega

/-- A page of the user range is taken as an address of the hardware, or panics in the hole. -/
private theorem containingAddress_cases {ε : Type} (hin : InRange page) (s : σ) :
    (2 ^ 47 ≤ page.startAddress.toNat ∧
        (containingAddress page.startAddress : Exec σ ε VirtAddr).exec s = .panicked) ∨
      (page.startAddress.toNat < 2 ^ 47 ∧ ∃ v : VirtAddr, v.asU64 = page.startAddress ∧
        (containingAddress page.startAddress : Exec σ ε VirtAddr).exec s = .returned (.ok v, s)) := by
  have hcanonical : canonical page.startAddress = true ↔ page.startAddress.toNat < 2 ^ 47 := by
    unfold InRange at hin
    simp only [canonical, Bool.or_eq_true, beq_iff_eq]
    omega
  have hexec : (containingAddress page.startAddress : Exec σ ε VirtAddr).exec s =
      (VirtAddr.new page.startAddress).bind fun a => .returned (.ok a, s) := by
    show Panics.bind (Panics.bind (VirtAddr.new page.startAddress) _) _ = _
    cases VirtAddr.new page.startAddress <;> rfl
  rw [hexec]
  by_cases hlow : page.startAddress.toNat < 2 ^ 47
  · refine .inr ⟨hlow, ⟨page.startAddress, hcanonical.mpr hlow⟩, rfl, ?_⟩
    rw [VirtAddr.new, dif_pos (hcanonical.mpr hlow)]
    rfl
  · refine .inl ⟨by omega, ?_⟩
    rw [VirtAddr.new, dif_neg fun h => hlow (hcanonical.mp h)]
    rfl

private theorem exec_call {ε α : Type} (f : σ → Except ε α × σ) (translate : ε → MappingError) (s : σ) :
    (call f translate).exec s = .returned ((f s).1.mapError translate, (f s).2) := by
  unfold call
  rw [exec_bind, exec_modifyGet, Panics.bind_returned, andThen_ok]
  cases (f s).1 <;> rfl

/-- What `map_page` asks of its arguments before it turns to the tables. -/
def Acceptable (page : Page4K) (frame : U64) (flags : MappingFlags) : Prop :=
  InRange page ∧ flags.isWritableExecutable = false ∧ IsFrame frame

/-- The arguments with which `map_page` reaches `PhysAddr::new` or `VirtAddr::new` and panics there. -/
def MapPanics (page : Page4K) (frame : U64) (flags : MappingFlags) : Prop :=
  InRange page ∧ flags.isWritableExecutable = false ∧
    (2 ^ 52 ≤ frame.toNat ∨ frame % pageSize4K = 0 ∧ 2 ^ 47 ≤ page.startAddress.toNat)

theorem mapPage_cases (inner : OffsetPageTable σ) (page : Page4K) (frame : U64) (flags : MappingFlags) (s : σ) :
    (¬ Acceptable page frame flags ∧ ¬ MapPanics page frame flags ∧
      ∃ error, (mapPage inner userRange page frame flags).exec s = .returned (.error error, s)) ∨
    (MapPanics page frame flags ∧ (mapPage inner userRange page frame flags).exec s = .panicked) ∨
    (Acceptable page frame flags ∧ page.startAddress.toNat < 2 ^ 47 ∧ ∃ v : VirtAddr, v.asU64 = page.startAddress ∧
      (mapPage inner userRange page frame flags).exec s =
        .returned ((inner.mapTo v frame (translateFlags flags true) s).1.mapError mapToError,
          (inner.mapTo v frame (translateFlags flags true) s).2)) := by
  rcases checkPage_cases page s with ⟨hout, error, hcheck⟩ | ⟨hin, hcheck⟩
  · refine .inl ⟨fun hacc => hout hacc.1, fun hpanic => hout hpanic.1, error, ?_⟩
    rw [mapPage, exec_bind, hcheck]
    rfl
  · by_cases hflags : flags.isWritableExecutable = true
    · have hnot : ¬ flags.isWritableExecutable = false := by
        rw [hflags]
        decide
      refine .inl ⟨fun hacc => hnot hacc.2.1, fun hpanic => hnot hpanic.2.1, .backendFailure, ?_⟩
      simp only [mapPage, exec_bind, hcheck, Panics.bind_returned, andThen_ok, exec_reject, hflags, if_true,
        andThen_error]
    · have hexclusive := Bool.eq_false_iff.mpr hflags
      have huser : userRange.isUser = true := by decide
      have hrun : (mapPage inner userRange page frame flags).exec s =
          ((PhysFrame.fromStartAddress frame .invalidPhysicalAddress : Exec σ MappingError U64).exec s).bind
            (andThen fun f => do
              let target ← containingAddress page.startAddress
              call (inner.mapTo target f (translateFlags flags true)) mapToError) := by
        simp only [mapPage, exec_bind, hcheck, Panics.bind_returned, andThen_ok, exec_reject, hexclusive,
          Bool.false_eq_true, ↓reduceIte, huser]
      rw [hrun]
      rcases PhysFrame.fromStartAddress_cases frame MappingError.invalidPhysicalAddress s with
        ⟨hhigh, hexec⟩ | ⟨hframe, hunaligned, hexec⟩ | ⟨hframe, haligned, hexec⟩
      · exact .inr (.inl ⟨⟨hin, hexclusive, .inl hhigh⟩, by rw [hexec, Panics.bind_panicked]⟩)
      · refine .inl ⟨fun hacc => hunaligned (aligned_iff.mpr hacc.2.2.1), fun hpanic => ?_, .invalidPhysicalAddress,
          ?_⟩
        · exact hpanic.2.2.elim (Nat.not_le.mpr hframe) fun hpage => hunaligned hpage.1
        · rw [hexec, Panics.bind_returned, andThen_error]
      · have hacc : Acceptable page frame flags := ⟨hin, hexclusive, aligned_iff.mp haligned, hframe⟩
        rw [hexec, Panics.bind_returned, andThen_ok, exec_bind]
        rcases containingAddress_cases (ε := MappingError) hin s with ⟨hhigh, hpanic⟩ | ⟨hlow, v, hv, htarget⟩
        · exact .inr (.inl ⟨⟨hin, hexclusive, .inr ⟨haligned, hhigh⟩⟩, by rw [hpanic, Panics.bind_panicked]⟩)
        · refine .inr (.inr ⟨hacc, hlow, v, hv, ?_⟩)
          rw [htarget, Panics.bind_returned, andThen_ok, exec_call]

private theorem unmapPage_cases (inner : OffsetPageTable σ) (page : Page4K) (s : σ) :
    (¬ InRange page ∧ ∃ error, (unmapPage inner userRange page).exec s = .returned (.error error, s)) ∨
    (InRange page ∧ 2 ^ 47 ≤ page.startAddress.toNat ∧ (unmapPage inner userRange page).exec s = .panicked) ∨
    (InRange page ∧ page.startAddress.toNat < 2 ^ 47 ∧ ∃ v : VirtAddr, v.asU64 = page.startAddress ∧
      (unmapPage inner userRange page).exec s =
        .returned ((inner.unmap v s).1.mapError unmapError, (inner.unmap v s).2)) := by
  rcases checkPage_cases page s with ⟨hout, error, hcheck⟩ | ⟨hin, hcheck⟩
  · refine .inl ⟨hout, error, ?_⟩
    rw [unmapPage, exec_bind, hcheck]
    rfl
  · have hrun : (unmapPage inner userRange page).exec s =
        ((containingAddress page.startAddress : Exec σ MappingError VirtAddr).exec s).bind (andThen fun target =>
          call (inner.unmap target) unmapError) := by
      simp only [unmapPage, exec_bind, hcheck, Panics.bind_returned, andThen_ok]
    rcases containingAddress_cases (ε := MappingError) hin s with ⟨hhigh, hpanic⟩ | ⟨hlow, v, hv, htarget⟩
    · exact .inr (.inl ⟨hin, hhigh, by rw [hrun, hpanic]; rfl⟩)
    · refine .inr (.inr ⟨hin, hlow, v, hv, ?_⟩)
      rw [hrun, htarget, Panics.bind_returned, andThen_ok, exec_call]

/-! ### On the trees of address spaces -/

/-- Flags that are not both writable and executable come back from the entry as they were. -/
private theorem mappingFlags_translateFlags (hbuilt : flags.Built) (hexclusive : flags.isWritableExecutable = false) :
    (translateFlags flags true).mappingFlags = flags := by
  rcases hbuilt with rfl | rfl | rfl | rfl
  · decide
  · decide
  · decide
  · exact absurd hexclusive (by decide)

private theorem translateFlags_exclusive (hexclusive : flags.isWritableExecutable = false) :
    (translateFlags flags true).writable = true → (translateFlags flags true).noExecute = true := by
  intro hwritable
  have hw : flags.writable = true := hwritable
  show (!flags.executable) = true
  rw [MappingFlags.isWritableExecutable, hw, Bool.true_and] at hexclusive
  rw [hexclusive]
  rfl

/-- What becomes of all roots when the pages of one change. -/
private theorem mappings_of_update {s' : KernelMemory} {value : Option (U64 × MappingFlags)}
    (hothers : ∀ r' ∈ roots, r' ≠ r → mappingIn (readTable s'.memory) r' = mappingIn (readTable s.memory) r')
    (hown : mappingIn (readTable s'.memory) r = Function.update (mappingIn (readTable s.memory) r) page value) :
    ∀ r' ∈ roots, ∀ page', mappingIn (readTable s'.memory) r' page' =
      if r' = r ∧ page' = page then value else mappingIn (readTable s.memory) r' page' := by
  intro r' hr' page'
  by_cases heq : r' = r
  · subst heq
    rw [hown, Function.update_apply]
    simp only [true_and]
  · rw [hothers r' hr' heq, if_neg fun hand => heq hand.1]

private theorem sameMappings_of_single {s' : KernelMemory}
    (hothers : ∀ r' ∈ roots, r' ≠ r → mappingIn (readTable s'.memory) r' = mappingIn (readTable s.memory) r')
    (hown : SameMappings [r] s s') : SameMappings roots s s' := by
  intro r' hr'
  by_cases heq : r' = r
  · subst heq
    exact hown r' (List.mem_singleton_self r')
  · exact hothers r' hr' heq

section Contract

variable (hcontract : TableContract d tables) (h : Spaces d roots s) (hr : r ∈ roots)
  (hstable : d.StableOn s (Workspace [r] s))
include hcontract h hr hstable

/-- `map_page` on a root: what it refuses, where it panics, and the three endings of the others. -/
theorem mapPage_spec (page : Page4K) (frame : U64) (hbuilt : flags.Built) :
    (¬ Acceptable page frame flags ∧ ¬ MapPanics page frame flags ∧
      ∃ error, (mapPage (tables r) userRange page frame flags).exec s = .returned (.error error, s)) ∨
    (MapPanics page frame flags ∧ (mapPage (tables r) userRange page frame flags).exec s = .panicked) ∨
    (Acceptable page frame flags ∧ page.startAddress.toNat < 2 ^ 47 ∧ ∃ result s',
      (mapPage (tables r) userRange page frame flags).exec s = .returned (result, s') ∧
      Spaces d roots s' ∧ Evolves roots s s' ∧ Spends 3 s s' ∧
      ((result = .error .frameAllocationFailed ∧ SameMappings roots s s' ∧ s.left < 3 ∧ s'.left = 0) ∨
        (result = .error .alreadyMapped ∧ SameMappings roots s s' ∧ (mappingIn (readTable s.memory) r page).isSome) ∨
        (result = .ok () ∧ mappingIn (readTable s.memory) r page = none ∧ ∀ r' ∈ roots, ∀ page',
          mappingIn (readTable s'.memory) r' page' =
            if r' = r ∧ page' = page then some (frame, flags) else mappingIn (readTable s.memory) r' page'))) := by
  rcases mapPage_cases (tables r) page frame flags s with hrefused | hpanic | ⟨hacc, hpage, v, hv, hexec⟩
  · exact .inl hrefused
  · exact .inr (.inl hpanic)
  · refine .inr (.inr ⟨hacc, hpage, ?_⟩)
    have houtcome := hcontract.mapTo r s (h.single hr) hstable v page frame (translateFlags flags true) hv hpage
      hacc.2.2 rfl
      (translateFlags_exclusive hacc.2.1)
    rw [mappingFlags_translateFlags hbuilt hacc.2.1] at houtcome
    obtain ⟨hspaces, hevolves, hothers⟩ := h.lift hr houtcome.spaces houtcome.evolves
    refine ⟨_, _, hexec, hspaces, hevolves, houtcome.spends, ?_⟩
    rcases houtcome.cases with ⟨hresult, hsame, hleft⟩ | ⟨hresult, hsame, hmapped⟩ | ⟨hresult, hnone, hmapped⟩
    · exact .inl ⟨by rw [hresult]; rfl, sameMappings_of_single hothers hsame, hleft⟩
    · exact .inr (.inl ⟨by rw [hresult]; rfl, sameMappings_of_single hothers hsame, hmapped⟩)
    · exact .inr (.inr ⟨by rw [hresult]; rfl, hnone, mappings_of_update hothers hmapped⟩)

/-- `unmap_page` on a root. -/
theorem unmapPage_spec (page : Page4K) :
    (¬ InRange page ∧ ∃ error, (unmapPage (tables r) userRange page).exec s = .returned (.error error, s)) ∨
    (InRange page ∧ 2 ^ 47 ≤ page.startAddress.toNat ∧ (unmapPage (tables r) userRange page).exec s = .panicked) ∨
    (InRange page ∧ page.startAddress.toNat < 2 ^ 47 ∧ mappingIn (readTable s.memory) r page = none ∧
      (unmapPage (tables r) userRange page).exec s = .returned (.error .notMapped, s)) ∨
    (InRange page ∧ page.startAddress.toNat < 2 ^ 47 ∧ ∃ frame flags s',
      mappingIn (readTable s.memory) r page = some (frame, flags) ∧
      (unmapPage (tables r) userRange page).exec s = .returned (.ok frame, s') ∧
      Spaces d roots s' ∧ Evolves roots s s' ∧ s'.left = s.left ∧ ∀ r' ∈ roots, ∀ page',
        mappingIn (readTable s'.memory) r' page' =
          if r' = r ∧ page' = page then none else mappingIn (readTable s.memory) r' page') := by
  rcases unmapPage_cases (tables r) page s with hrefused | hpanic | ⟨hin, hpage, v, hv, hexec⟩
  · exact .inl hrefused
  · exact .inr (.inl hpanic)
  · rcases hcontract.unmap r s (h.single hr) hstable v page hv hpage with
      ⟨hnone, hresult, hstate⟩ | ⟨frame, flags, hsome, hresult, hspaces, hevolves, hleft, hmapped⟩
    · refine .inr (.inr (.inl ⟨hin, hpage, hnone, ?_⟩))
      rw [hexec, hresult, hstate]
      rfl
    · obtain ⟨hspaces, hevolves, hothers⟩ := h.lift hr hspaces hevolves
      refine .inr (.inr (.inr ⟨hin, hpage, frame, flags, _, hsome, ?_, hspaces, hevolves, hleft,
        mappings_of_update hothers hmapped⟩))
      rw [hexec, hresult]
      rfl

end Contract

end X86PageTableMapper

end X11Os
