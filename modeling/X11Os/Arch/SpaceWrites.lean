import X11Os.Arch.PageWalk
import X11Os.Arch.SpaceIsolation

/-!
# The Write system call over an address space

With a user root active, `Write` validates pages, walks the tables, and copies through the direct map, a piece of a
page and a buffer at a time.  `writeFrom` is the same call on a partial map from addresses to bytes.  After every run
of the kernel over address spaces the two agree, with the bytes of the active address space for the map
(`write_observes_space`): `Write` shows the caller its own pages and nothing else, whatever the sink does.
-/

namespace X11Os

open Word Amd64 TableTree

/-! ### Write on a partial map -/

section Abstract

variable (bytes : U64 → Option U8) (sink : WriteSink)

/-- The bytes of a slice, if all of them are there. -/
def UserSlice.readFrom (slice : UserSlice) : Option (List U8) :=
  (List.range slice.len.toNat).mapM fun i => bytes (slice.ptr + BitVec.ofNat 64 i)

/-- The slices go to the sink one by one, until a byte is not there or the sink refuses. -/
def emitFrom (total : U64) : List UserSlice → List (List U8) → SyscallResult × List (List U8)
  | [], received => (.ok total, received)
  | slice :: rest, received =>
    match slice.readFrom bytes with
    | none => (.error (.invalidUserMemory .unmapped), received)
    | some piece =>
      match sink.write received piece with
      | .error error => (.error error, received)
      | .ok () => emitFrom total rest (received ++ [piece])

/-- A write of at most 256 bytes at a time. -/
def writeFrom (slice : UserSlice) (received : List (List U8)) : SyscallResult × List (List U8) :=
  match validateSlice slice with
  | .error error => (.error (.invalidUserRange error), received)
  | .ok _ => emitFrom bytes sink slice.len slice.chunks received

end Abstract

/-- A slice of the user range below the hole. -/
def UserSlice.Low (slice : UserSlice) : Prop := 0x10000 ≤ slice.ptr.toNat ∧ slice.ptr.toNat + slice.len.toNat ≤ 2 ^ 47

/-- The copy of a low slice gives its bytes, or reports that one of them is not mapped. -/
def Shows (view : UserMemoryView) (backend : UserCopyBackend) (bytes : U64 → Option U8) : Prop :=
  ∀ c : UserSlice, c.len ≠ 0 → c.Low → copyFromUser view backend c c.len.toNat =
    .returned (match c.readFrom bytes with
      | some piece => .ok piece
      | none => .error .unmapped)

section Emission

variable {view : UserMemoryView} {backend : UserCopyBackend} {bytes : U64 → Option U8} {sink : WriteSink}

private theorem emitChunks_eq (h : Shows view backend bytes) (total : U64) {chunks : List UserSlice}
    (hchunks : ∀ c ∈ chunks, c.len ≠ 0 ∧ c.Low) (received : List (List U8)) :
    emitChunks view backend sink total chunks received =
      (.returned (emitFrom bytes sink total chunks received).1, (emitFrom bytes sink total chunks received).2) := by
  induction chunks generalizing received with
  | nil => rfl
  | cons c rest ih =>
    rw [List.forall_mem_cons] at hchunks
    have hcopy := h c hchunks.1.1 hchunks.1.2
    unfold emitChunks emitFrom
    rw [hcopy]
    cases c.readFrom bytes with
    | none => rfl
    | some piece =>
      dsimp only
      cases sink.write received piece with
      | error error => rfl
      | ok _ => exact ih hchunks.2 _

private theorem UserSlice.low_chunk {slice : UserSlice} (hlow : slice.Low) {c : UserSlice} (hc : c ∈ slice.chunks) :
    c.Low := by
  obtain ⟨k, hk, rfl⟩ := UserSlice.mem_chunks.mp hc
  have hfits : slice.Fits := by
    unfold UserSlice.Fits
    have := hlow.2
    omega
  have hptr := UserSlice.toNat_chunk_ptr hfits hk
  have hlen := UserSlice.toNat_chunk_len slice k
  have hcount : 256 * k < slice.len.toNat := by
    unfold UserSlice.chunkCount at hk
    omega
  unfold UserSlice.Low at hlow ⊢
  omega

/-- On a slice that ends below the hole, the system call is the write on the map. -/
theorem sysWrite_eq (h : Shows view backend bytes) {slice : UserSlice}
    (hlow : slice.ptr.toNat + slice.len.toNat ≤ 2 ^ 47) (received : List (List U8)) :
    sysWriteWithMemory slice view backend sink received =
      (.returned (writeFrom bytes sink slice received).1, (writeFrom bytes sink slice received).2) := by
  by_cases hlen : slice.len = 0
  · have hnone : slice.chunks = [] := by
      rw [UserSlice.chunks, UserSlice.chunkCount, hlen]
      rfl
    simp [sysWriteWithMemory, writeFrom, validateSlice, UserSlice.isEmpty, hlen, hnone, emitFrom]
  · cases hok : validateSlice slice with
    | error error => simp only [sysWriteWithMemory, writeFrom, hok]
    | ok range =>
      obtain ⟨-, -, hstart, -⟩ := (validateSlice_eq_ok hlen).mp hok
      rw [sysWriteWithMemory_eq hok hlen, writeFrom, hok]
      refine emitChunks_eq h slice.len (fun c hc => ⟨?_, UserSlice.low_chunk ⟨?_, hlow⟩ hc⟩) received
      · obtain ⟨k, hk, rfl⟩ := UserSlice.mem_chunks.mp hc
        exact UserSlice.chunk_len_ne_zero hk
      · omega

end Emission

/-! ### The view of an address space -/

/-- `X86ActiveUserMemory::current`, with a root in CR3 and the memory that the kernel reads. -/
def X86ActiveUserMemory.current (physicalOffset cr3 : U64) (view : Memory) : Panics X86ActiveUserMemory :=
  match checkedAdd cr3 physicalOffset with
  | none => .panicked
  | some tableAddress => .returned ⟨readTable view tableAddress, physicalOffset, readTable view⟩

/-- Where the direct map reaches the tables of a walk, the walker goes on to its end. -/
private theorem X86ActiveUserMemory.flagsWalk_of_descend (mem : X86ActiveUserMemory) (a : VirtAddr) {n : Nat}
    (hn : n ≤ 4) {table : PageTable} {w : PageWalk}
    (hw : PageWalk.descend (fun p => mem.tableAt (mem.physicalOffset + p)) a.asU64 n table = some w)
    (hreach : ∀ e ∈ w.upper, mem.physicalOffset.toNat + e.addr.toNat < 2 ^ 64) (flags : PageTableFlags) :
    mem.flagsWalk (indexesFrom a n) table flags ≠ none := by
  induction n generalizing table flags w with
  | zero => cases hw
  | succ n ih =>
    have hindex : PageWalk.index a.asU64 (12 + 9 * n) = tableIndex a (12 + 9 * n) := rfl
    simp only [indexesFrom, flagsWalk]
    simp only [PageWalk.descend, hindex] at hw
    generalize table (tableIndex a (12 + 9 * n)) = entry at hw ⊢
    cases hpresent : entry.present with
    | false =>
      rw [hpresent] at hw
      cases hw
    | true =>
      simp only [hpresent, Bool.not_true, Bool.false_eq_true, if_false, isLeaf_iff (show n ≤ 3 by omega)] at hw ⊢
      by_cases hleaf : n = 0 ∨ (n ≤ 2 ∧ entry.hugePage = true)
      · simp only [hleaf, if_true]
        exact Option.some_ne_none _
      · simp only [hleaf, if_false] at hw ⊢
        obtain ⟨rest, hrest, rfl⟩ := Option.map_eq_some_iff.mp hw
        have hnext : checkedAdd mem.physicalOffset entry.addr = some (mem.physicalOffset + entry.addr) :=
          checkedAdd_of_lt (hreach entry List.mem_cons_self)
        simp only [hnext]
        exact ih (by omega) hrest (fun e he => hreach e (List.mem_cons_of_mem _ he)) _

/-- The physical address that an address space gives an address. -/
def spacePhysical (r : U64) (m : Memory) (v : U64) : Option U64 :=
  (mappingIn (readTable m) r (.containing v)).map fun mapping => mapping.1 + BitVec.ofNat 64 (v.toNat % 4096)

/-- The byte that an address space holds at an address. -/
def spaceByte (r : U64) (m : Memory) (v : U64) : Option U8 := (spacePhysical r m v).map m

/-- Inside a page the physical address moves with the address. -/
private theorem spacePhysical_add {r : U64} {m : Memory} {v : U64} {k : Nat} (hpage : v.toNat % 4096 + k < 4096) :
    spacePhysical r m (v + BitVec.ofNat 64 k) = (spacePhysical r m v).map fun p => p + BitVec.ofNat 64 k := by
  have hv := v.isLt
  have hsum : (v + BitVec.ofNat 64 k).toNat = v.toNat + k := by
    rw [BitVec.toNat_add, BitVec.toNat_ofNat]
    omega
  have hstart : pageStartOf (v + BitVec.ofNat 64 k) = pageStartOf v := by
    apply BitVec.eq_of_toNat_eq
    rw [toNat_pageStartOf, toNat_pageStartOf]
    omega
  have hsame : Page4K.containing (v + BitVec.ofNat 64 k) = .containing v := by
    simp only [Page4K.containing, hstart]
  have hmod : (v.toNat + k) % 4096 = v.toNat % 4096 + k := by omega
  rw [spacePhysical, spacePhysical, hsame, hsum, hmod, Option.map_map]
  congr 1
  funext mapping
  rw [Function.comp, BitVec.ofNat_add, BitVec.add_assoc]

/-- The root of an address space that shows the direct map, and maps frames that the direct map reaches. -/
structure Active (d : DirectMap) (r : U64) (s : KernelMemory) : Prop where
  spaces : Spaces d [r] s
  shown : d.ShownBy s.memory r
  frames : ∀ page frame flags, mappingIn (readTable s.memory) r page = some (frame, flags) →
    IsFrame frame ∧ frame.toNat < d.limit

/-- What the kernel makes of the root in CR3. -/
def activeMemory (d : DirectMap) (r : U64) (view : Memory) : X86ActiveUserMemory :=
  ⟨readTable view (d.offset + r), d.offset, readTable view⟩

namespace Active

variable {d : DirectMap} {r : U64} {s : KernelMemory} (h : Active d r s) (fault : Memory)
include h

theorem current_eq : X86ActiveUserMemory.current d.offset r (kernelView fault r s.memory) =
    .returned (activeMemory d r (kernelView fault r s.memory)) := by
  have hreached := h.spaces.reached r (occupied_root (List.mem_singleton_self r))
  have hfits := d.fits
  have hsum : checkedAdd r d.offset = some (d.offset + r) := by
    rw [checkedAdd_of_lt (by omega), BitVec.add_comm]
  rw [X86ActiveUserMemory.current, hsum]
  rfl

/-- Through the direct map the kernel reads the tables of the address space. -/
private theorem readTable_eq {a : U64} (ha : InUse (readTable s.memory) [r] a) :
    readTable (kernelView fault r s.memory) (d.offset + a) = readTable s.memory a := by
  have hframe := h.spaces.trees.isFrame_of_inUse ha
  have hreached := h.spaces.reached a ha
  funext i
  refine congrArg PageTableEntry.mk (read64_eq fun k hk => ?_)
  have hi := i.isLt
  have hsum : a + BitVec.ofNat 64 (8 * i.val) + k = a + BitVec.ofNat 64 (8 * i.val + k.toNat) := by
    rw [BitVec.ofNat_add, BitVec.ofNat_toNat, BitVec.setWidth_eq, BitVec.add_assoc]
  rw [entryAddress, entryAddress, BitVec.add_assoc, BitVec.add_assoc, ← BitVec.add_assoc a, hsum]
  exact h.shown.kernelView_eq (DirectMap.toNat_frame_add hframe hreached (by omega)).2 fault

/-- The walk of the kernel ends where the address space says. -/
private theorem walk_eq {v : U64} (hlow : v.toNat < 2 ^ 47) :
    match mappingIn (readTable s.memory) r (.containing v) with
    | none => (activeMemory d r (kernelView fault r s.memory)).walk v = none
    | some (frame, flags) => ∃ w, (activeMemory d r (kernelView fault r s.memory)).walk v = some w ∧
    w.Gives v frame flags ∧
        ∀ e ∈ w.upper, e.addr.toNat < d.limit := by
  have hr := List.mem_singleton_self r
  have htables : ∀ a, InUse (readTable s.memory) [r] a →
      readTable (kernelView fault r s.memory) (d.offset + a) = readTable s.memory a :=
        fun a ha => h.readTable_eq fault ha
  have htrees : UserTrees (fun p => readTable (kernelView fault r s.memory) (d.offset + p)) [r] :=
    h.spaces.trees.congr htables
  have hwalk := htrees.walk_eq hr v hlow
  rw [UserTrees.mappingIn_congr hr htables] at hwalk
  cases hmapping : mappingIn (readTable s.memory) r (.containing v) with
  | none =>
    rw [hmapping] at hwalk
    exact hwalk
  | some mapping =>
    rw [hmapping] at hwalk
    obtain ⟨w, hw, hgives⟩ := hwalk
    refine ⟨w, hw, hgives, fun e he => h.spaces.reached e.addr ?_⟩
    have huse := htrees.inUse_of_walk hr hlow hw e he
    exact (Occupied.congr fun r' hr' q => UserTrees.tableAt_congr hr' htables q).mp huse

/-- What the view says of an address below the hole. -/
private theorem view_eq {v : U64} (hstart : 0x10000 ≤ v.toNat) (hlow : v.toNat < 2 ^ 47) :
    match spacePhysical r s.memory v with
    | none => (activeMemory d r (kernelView fault r s.memory)).pageAccess v = .returned .unmapped
    | some p => (activeMemory d r (kernelView fault r s.memory)).translate v = .returned (some p) ∧
        ∃ access, (activeMemory d r (kernelView fault r s.memory)).pageAccess v = .returned access ∧
          checkAccess access = .ok () := by
  have hwalk := h.walk_eq fault hlow
  generalize hmem : activeMemory d r (kernelView fault r s.memory) = mem at hwalk ⊢
  have hoffset : mem.physicalOffset = d.offset := hmem ▸ rfl
  have huser : userRange.contains v = true := userRange_contains.mpr ⟨hstart, by omega⟩
  have hcanonical : canonical v = true := by
    simp only [canonical, Bool.or_eq_true, beq_iff_eq]
    omega
  have hat : ∀ {α : Type} (walk : VirtAddr → Option α), atUserAddress v walk = .returned (walk ⟨v, hcanonical⟩) := by
    intro α walk
    rw [atUserAddress, huser, VirtAddr.new, dif_pos hcanonical]
    rfl
  rw [X86ActiveUserMemory.pageAccess, X86ActiveUserMemory.flags, hat, X86ActiveUserMemory.translate, hat,
    pageIndexes_eq, spacePhysical]
  rcases mem.walkers_agree ⟨v, hcanonical⟩ (Nat.le_refl 4) mem.table ⟨true, true, false⟩ with
    ⟨hflags, -⟩ | ⟨w, flags, p, hw, hflags, hp, hreports⟩
  · cases hmapping : mappingIn (readTable s.memory) r (.containing v) with
    | none =>
      rw [hflags]
      rfl
    | some mapping =>
      rw [hmapping] at hwalk
      obtain ⟨w, hw, -, hreached⟩ := hwalk
      have hfits := d.fits
      refine absurd hflags (mem.flagsWalk_of_descend ⟨v, hcanonical⟩ (Nat.le_refl 4) hw (fun e he => ?_) _)
      have hlt := hreached e he
      rw [hoffset]
      omega
  · replace hw : mem.walk v = some w := hw
    cases hmapping : mappingIn (readTable s.memory) r (.containing v) with
    | none =>
      rw [hmapping] at hwalk
      cases hwalk.symm.trans hw
    | some mapping =>
      obtain ⟨frame, permissions⟩ := mapping
      rw [hmapping] at hwalk
      obtain ⟨w', hw', hgives, -⟩ := hwalk
      cases hw.symm.trans hw'
      have hphysical : p = frame + BitVec.ofNat 64 (v.toNat % 4096) :=
        (hreports.physical hgives.aligned).trans hgives.physical
      have hflagsUser : flags.userAccessible = true := hreports.user.mpr ⟨rfl, fun e he => (hgives.user e he).2⟩
      refine ⟨?_, ⟨true, flags.userAccessible, true, flags.writable, !flags.noExecute⟩, ?_, ?_⟩
      · exact (congrArg Panics.returned hp).trans (congrArg (fun p => Panics.returned (some p)) hphysical)
      · rw [hflags]
        rfl
      · rw [checkAccess_eq_ok]
        exact ⟨rfl, hflagsUser, rfl⟩

omit fault in
private theorem spacePhysical_lt {v p : U64} (hp : spacePhysical r s.memory v = some p) : p.toNat < d.limit := by
  obtain ⟨⟨frame, flags⟩, hmapped, rfl⟩ := Option.map_eq_some_iff.mp hp
  obtain ⟨hframe, hreached⟩ := h.frames _ _ _ hmapped
  exact (DirectMap.toNat_frame_add hframe hreached (Nat.mod_lt _ (by decide))).2

section Copy

variable {c : UserSlice} (hlen : c.len ≠ 0) (hlow : c.Low)
include hlow

/-- The pages of the bytes that are there are readable. -/
private theorem readable {v p : U64} (hv : c.Contains v) (hp : spacePhysical r s.memory v = some p) :
    (activeMemory d r (kernelView fault r s.memory)).view.Readable (pageStartOf v) ∧
      (activeMemory d r (kernelView fault r s.memory)).view.translate v = .returned (some p) := by
  obtain ⟨hle, hlt⟩ := hv
  obtain ⟨hstart, hstop⟩ := hlow
  have hview := h.view_eq fault (v := v) (by omega) (by omega)
  rw [hp] at hview
  obtain ⟨htranslate, access, haccess, hcheck⟩ := hview
  have hpage : (activeMemory d r (kernelView fault r s.memory)).view.pageAccess (pageStartOf v) =
    .returned access := by
    rw [← haccess]
    exact X86ActiveUserMemory.pageAccess_congr _ (by rw [toNat_pageStartOf]; omega)
  exact ⟨(readable_iff hpage).mpr hcheck, htranslate⟩

include hlen

private theorem copyFromUser_mapped {phys : U64 → U64}
    (hphys : ∀ v, c.Contains v → spacePhysical r s.memory v = some (phys v)) :
    copyFromUser (activeMemory d r (kernelView fault r s.memory)).view
      (x86UserCopyBackend (activeMemory d r (kernelView fault r s.memory)).view ⟨d.offset⟩
        (kernelView fault r s.memory)) c
      c.len.toNat =
      .returned (.ok (readBytes (fun v => kernelView fault r s.memory (d.offset + phys v)) c.ptr c.len.toNat)) := by
  have hview := fun v hv => h.readable fault hlow hv (hphys v hv)
  obtain ⟨hstart, hstop⟩ := hlow
  have hadd : ∀ (v : U64) (k : Nat), c.ptr.toNat ≤ v.toNat → v.toNat + k < c.ptr.toNat + c.len.toNat →
      v.toNat % 4096 + k < 4096 → phys (v + BitVec.ofNat 64 k) = phys v + BitVec.ofNat 64 k := by
    intro v k hle hlt hpage
    have hin : c.Contains (v + BitVec.ofNat 64 k) := by
      unfold UserSlice.Contains
      rw [BitVec.toNat_add, BitVec.toNat_ofNat]
      omega
    have hnext : spacePhysical r s.memory (v + BitVec.ofNat 64 k) =
        (spacePhysical r s.memory v).map fun p => p + BitVec.ofNat 64 k := spacePhysical_add hpage
    rw [hphys _ hin, hphys v ⟨hle, by omega⟩] at hnext
    exact Option.some.inj hnext
  have hreached : copyChunks (activeMemory d r (kernelView fault r s.memory)).view ⟨d.offset⟩
    (kernelView fault r s.memory)
      c.ptr c.len.toNat c.len.toNat [] ≠ .returned (.error .backendFailure) := by
    refine copyChunks_reached fun v hle hlt => ?_
    have hbound := h.spacePhysical_lt (hphys v ⟨hle, hlt⟩)
    have hfits := d.fits
    exact ⟨phys v, d.offset + phys v, (hview v ⟨hle, hlt⟩).2,
      checkedAdd_of_lt (show d.offset.toNat + (phys v).toNat < 2 ^ 64 by omega)⟩
  have hcopy := copyChunks_reads ⟨d.offset⟩ (kernelView fault r s.memory) (by omega)
    (fun v hle hlt => (hview v ⟨hle, hlt⟩).2) hadd (show ([] : List U8).length ≤ c.len.toNat from Nat.zero_le _)
    (Nat.le_add_left _ _)
  rw [List.nil_append, List.length_nil, Nat.sub_zero, BitVec.add_zero] at hcopy
  rw [copyFromUser_eq_ok]
  refine ⟨(validateReadableRange_eq_ok hlen).mpr ⟨?_, fun v hv => (hview v hv).1⟩, hcopy.resolve_left hreached⟩
  exact (validateSlice_isOk_iff hlen).mpr ⟨hstart, by omega⟩

/-- The validation ends at the first page that is not mapped. -/
private theorem copyFromUser_unmapped {v : U64} (hv : c.Contains v) (hnone : spacePhysical r s.memory v = none) :
    copyFromUser (activeMemory d r (kernelView fault r s.memory)).view
      (x86UserCopyBackend (activeMemory d r (kernelView fault r s.memory)).view ⟨d.offset⟩
        (kernelView fault r s.memory)) c
      c.len.toNat = .returned (.error .unmapped) := by
  have hstop := hlow.2
  obtain ⟨range, hrange⟩ := (validateSlice_isOk_iff hlen).mpr ⟨hlow.1, by omega⟩
  obtain ⟨-, hrangeStop, -, hrangeHigh⟩ := (validateSlice_eq_ok hlen).mp hrange
  rw [← hrangeStop] at hrangeHigh
  have hlt := pageStart_lt_stop hlen hrange
  have hstartNat := toNat_pageStartOf c.ptr
  have hstart := hlow.1
  have hviews := fun v hstart hlow => h.view_eq fault (v := v) hstart hlow
  generalize activeMemory d r (kernelView fault r s.memory) = mem at hviews ⊢
  suffices hvalidate : validateReadableRange mem.view c = .returned (.error .unmapped) by
    rw [copyFromUser, if_neg (not_not.mpr rfl), hvalidate]
    rfl
  -- a page that the loop refuses lies below the hole, so that it can only be one that is not mapped
  rw [validateReadableRange_of_range hlen hrange]
  have hcases := validatePages_cases mem.view (by omega) hlt hrangeHigh (fuel_enough hlt)
  generalize validatePages mem.view range.stop (pagesUpTo range.stop (pageStartOf c.ptr)) (pageStartOf c.ptr) =
    verdict at hcases ⊢
  rcases hcases with ⟨-, hall⟩ | ⟨q, hq, hle, hqlt, hrefuses, -⟩
  · obtain ⟨hvle, hvlt⟩ := hv
    have hview := hviews v (by omega) (by omega)
    rw [hnone] at hview
    obtain ⟨access, haccess, hmapped, -⟩ := hall v (by omega) (by omega)
    have hsame : mem.view.pageAccess (pageStartOf v) = .returned .unmapped := by
      rw [← hview]
      exact mem.pageAccess_congr (by rw [toNat_pageStartOf]; omega)
    rw [hsame] at haccess
    cases haccess
    cases hmapped
  · have hview := hviews q (by omega) (by omega)
    cases hphys : spacePhysical r s.memory q with
    | some p =>
      rw [hphys] at hview
      obtain ⟨-, access, haccess, hcheck⟩ := hview
      exact absurd ((readable_iff haccess).mpr hcheck) hrefuses.not_readable
    | none =>
      rw [hphys] at hview
      cases hrefuses with
      | panics hpanic => cases hview.symm.trans hpanic
      | fails haccess hcheck =>
        cases hview.symm.trans haccess
        cases hcheck
        rfl

end Copy

/-- The view and the copy show the bytes of the address space. -/
theorem shows : Shows (activeMemory d r (kernelView fault r s.memory)).view
    (x86UserCopyBackend (activeMemory d r (kernelView fault r s.memory)).view ⟨d.offset⟩
      (kernelView fault r s.memory))
    (spaceByte r s.memory) := by
  intro c hlen hlow
  have hstop := hlow.2
  by_cases hall : ∀ v, c.Contains v → spacePhysical r s.memory v ≠ none
  · have hphys : ∀ v, c.Contains v → spacePhysical r s.memory v = some ((spacePhysical r s.memory v).getD 0) := by
      intro v hv
      obtain ⟨p, hp⟩ := Option.ne_none_iff_exists'.mp (hall v hv)
      rw [hp, Option.getD_some]
    have hread : c.readFrom (spaceByte r s.memory) = some (readBytes
        (fun v => kernelView fault r s.memory (d.offset + (spacePhysical r s.memory v).getD 0)) c.ptr
          c.len.toNat) := by
      refine List.mapM_eq_some_map fun i hi => ?_
      have hi := List.mem_range.mp hi
      have hin : c.Contains (c.ptr + BitVec.ofNat 64 i) := by
        unfold UserSlice.Contains
        rw [BitVec.toNat_add, BitVec.toNat_ofNat]
        omega
      rw [spaceByte, hphys _ hin, Option.map_some]
      exact congrArg some (h.shown.kernelView_eq (h.spacePhysical_lt (hphys _ hin)) fault).symm
    rw [h.copyFromUser_mapped fault hlen hlow hphys, hread]
  · push Not at hall
    obtain ⟨v, hv, hnone⟩ := hall
    have hread : c.readFrom (spaceByte r s.memory) = none := by
      obtain ⟨hle, hlt⟩ := hv
      refine List.mapM_eq_none_of_mem (List.mem_range.mpr (show v.toNat - c.ptr.toNat < _ by omega)) ?_
      have hback : c.ptr + BitVec.ofNat 64 (v.toNat - c.ptr.toNat) = v := by
        apply BitVec.eq_of_toNat_eq
        rw [BitVec.toNat_add, BitVec.toNat_ofNat]
        omega
      rw [hback, spaceByte, hnone]
      rfl
    rw [h.copyFromUser_unmapped fault hlen hlow hv hnone, hread]

end Active

/-! ### After any run -/

/-- The byte of an address space at an address. -/
def UserSpaces.byteAt (a : UserSpaces) (r v : U64) : Option U8 :=
  (a.pages r (.containing v)).map fun mapping => a.content mapping.1 (v.toNat % 4096)

section Runs

variable {d : DirectMap} {base : KernelMemory} {r : U64} {s : SpaceState} {a : UserSpaces} (h : Represents d base a s)
  (hexclusive : a.Exclusive) (hr : r ∈ s.roots)
include h hexclusive hr

private theorem Represents.spaceByte_eq : spaceByte r s.frames.memory = a.byteAt r := by
  funext v
  rw [spaceByte, spacePhysical, UserSpaces.byteAt, h.pages r hr, Option.map_map]
  cases hpage : a.pages r (.containing v) with
  | none => rfl
  | some mapping =>
    obtain ⟨frame, flags⟩ := mapping
    have hgranted := hexclusive.owned r (h.roots ▸ hr) _ frame flags hpage
    rw [h.granted] at hgranted
    exact congrArg some (h.content frame hgranted (v.toNat % 4096) (Nat.mod_lt _ (by decide)))

/-- Every address space of a disciplined run can be active. -/
private theorem Represents.isActive : X11Os.Active d r s.frames := by
  have hactive := h.working.activate (List.mem_cons_of_mem _ hr)
  refine ⟨h.working.spaces.single hr, hactive.grounded.stable.shownBy, fun page frame flags hmapped => ?_⟩
  rw [h.pages r hr] at hmapped
  have hgranted := hexclusive.owned r (h.roots ▸ hr) page frame flags hmapped
  rw [h.granted] at hgranted
  obtain ⟨hprivate, -, hreached⟩ := h.frames frame hgranted
  exact ⟨hprivate.isFrame, hreached⟩

end Runs

/-- After every disciplined run over address spaces, and with any of their roots active, `Write` on a slice below
the hole is the write on the bytes of that address space: the same result, and the same pieces to the sink,
whatever it does. -/
theorem write_observes_space {d : DirectMap} {tables : U64 → OffsetPageTable KernelMemory} {s₀ s : SpaceState}
    {history : List (SpaceCall × SpaceOutcome)} (hcontract : TableContract d tables) (hboot : s₀.Booted d)
    (hrun : Trace (SpaceState.OwnedStep d.offset tables s₀.frames.cr3) s₀ history s) :
    ∃ a, Trace UserSpaces.Step (.initial s₀.frames.cr3 s₀.frames.left) history a ∧
      ∀ r ∈ s.roots, ∀ fault : Memory, let memory := kernelView fault r s.frames.memory
        ∃ user, X86ActiveUserMemory.current d.offset r memory = .returned user ∧
          ∀ (slice : UserSlice) (sink : WriteSink) (received : List (List U8)),
            slice.ptr.toNat + slice.len.toNat ≤ 2 ^ 47 →
            sysWriteWithMemory slice user.view (x86UserCopyBackend user.view ⟨d.offset⟩ memory) sink received =
              (.returned (writeFrom (a.byteAt r) sink slice received).1,
                (writeFrom (a.byteAt r) sink slice received).2) := by
  obtain ⟨a, hsteps, h, hexclusive⟩ := hboot.ownedRun hcontract hrun
  refine ⟨a, hsteps, fun r hr fault => ?_⟩
  have hactive := h.isActive hexclusive hr
  refine ⟨_, hactive.current_eq fault, fun slice sink received hlow => ?_⟩
  rw [← h.spaceByte_eq hexclusive hr]
  exact sysWrite_eq (hactive.shows fault) hlow received

/-- Two bytes of the page that has been mapped. -/
theorem write_observes_space_mapped : ∃ root frame s a user,
    Trace (SpaceState.OwnedStep 0xffff800000000000 referenceTables 0x1000) SpaceState.sixteenFrames
      (SpaceState.mappedHistory root frame) s ∧
    Trace UserSpaces.Step (.initial 0x1000 16) (SpaceState.mappedHistory root frame) a ∧
    X86ActiveUserMemory.current 0xffff800000000000 root (kernelView (fun _ => 0) root s.frames.memory) =
      .returned user ∧
    sysWriteWithMemory ⟨0x400ffe, 2⟩ user.view
        (x86UserCopyBackend user.view ⟨0xffff800000000000⟩ (kernelView (fun _ => 0) root s.frames.memory))
        SplitWrite.sink [] =
      (.returned (writeFrom (a.byteAt root) SplitWrite.sink ⟨0x400ffe, 2⟩ []).1,
        (writeFrom (a.byteAt root) SplitWrite.sink ⟨0x400ffe, 2⟩ []).2) := by
  obtain ⟨root, frame, s, a', hrun, h, haroots, -⟩ := SpaceState.owned_mappedHistory
  have hroot : root ∈ s.roots := by
    rw [← h.roots, haroots]
    exact List.mem_singleton_self root
  obtain ⟨a, hsteps, hwrite⟩ :=
    write_observes_space (contract_referenceTables .gibibyte) SpaceState.booted_sixteenFrames hrun
  obtain ⟨user, huser, hslices⟩ := hwrite root hroot fun _ => 0
  exact ⟨root, frame, s, a, user, hrun, hsteps, huser, hslices ⟨0x400ffe, 2⟩ SplitWrite.sink [] (by decide)⟩

end X11Os
