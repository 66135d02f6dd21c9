import X11Os.Arch.UserMemory
import X11Os.Syscall.Emission

/-!
# The page walk and the user copy

The page walk of the processor, written down on its own, next to the two walkers of the source: `flags`, which
validation asks once per page, and `translate`, which the copy asks once per chunk.  Both follow the walk on every
tree, so that a validated slice is copied from the addresses that the walk gives, all of them accessible to user mode.
-/

namespace X11Os

open Word

/-! ### The walk -/

/-- A completed walk: the entries that lead to the leaf, from the root down, and the leaf, which maps a page of `2 ^
shift` bytes. -/
structure PageWalk where
  upper : List PageTableEntry
  leaf : PageTableEntry
  shift : Nat

namespace PageWalk

def entries (w : PageWalk) : List PageTableEntry := w.upper ++ [w.leaf]

private theorem entries_cons (w : PageWalk) (e : PageTableEntry) :
    entries { w with upper := e :: w.upper } = e :: w.entries := rfl

/-- The page of the leaf starts at a multiple of its size; for a huge page this includes the PAT bit. -/
def Aligned (w : PageWalk) : Prop := w.leaf.addr.toNat % 2 ^ w.shift = 0

/-- The frame bits of the leaf and the offset bits of the address. -/
def physical (w : PageWalk) (a : U64) : U64 :=
  BitVec.ofNat 64 (w.leaf.addr.toNat / 2 ^ w.shift * 2 ^ w.shift + a.toNat % 2 ^ w.shift)

/-- Nine bits of the address. -/
def index (a : U64) (shift : Nat) : Fin 512 := ⟨a.toNat / 2 ^ shift % 512, Nat.mod_lt _ (by decide)⟩

/-- The walk with `n` levels left, over the tables at physical addresses.  Bit 7 ends it on the second and on the
third level; reserved bits are not looked at. -/
def descend (tables : U64 → PageTable) (a : U64) : Nat → PageTable → Option PageWalk
  | 0, _ => none
  | n + 1, table =>
    let entry := table (index a (12 + 9 * n))
    if !entry.present then none
    else if n = 0 ∨ (n ≤ 2 ∧ entry.hugePage = true) then some ⟨[], entry, 12 + 9 * n⟩
    else (descend tables a n (tables entry.addr)).map fun w => { w with upper := entry :: w.upper }

end PageWalk

/-- The walk of the active tree; tables are reached through the direct map. -/
def X86ActiveUserMemory.walk (mem : X86ActiveUserMemory) (a : U64) : Option PageWalk :=
  PageWalk.descend (fun p => mem.tableAt (mem.physicalOffset + p)) a 4 mem.table

/-! ### The two walkers follow it -/

/-- The indexes of the last `n` levels, as the walkers enumerate them. -/
def indexesFrom (a : VirtAddr) : Nat → List (Nat × Fin 512)
  | 0 => []
  | n + 1 => (3 - n, tableIndex a (12 + 9 * n)) :: indexesFrom a n

theorem pageIndexes_eq (a : VirtAddr) : pageIndexes a = indexesFrom a 4 := rfl

theorem PageTableEntry.toNat_addr_lt (e : PageTableEntry) : e.addr.toNat < 2 ^ 52 := by
  rw [PageTableEntry.addr, BitVec.toNat_and]
  exact Nat.lt_of_le_of_lt Nat.and_le_right (by decide)

namespace X86ActiveUserMemory

theorem isLeaf_iff {n : Nat} (hn : n ≤ 3) {entry : PageTableEntry} :
    isLeaf (3 - n) entry = true ↔ n = 0 ∨ (n ≤ 2 ∧ entry.hugePage = true) := by
  match n, hn with
  | 0, _ => simp [isLeaf]
  | 1, _ => simp [isLeaf]
  | 2, _ => simp [isLeaf]
  | 3, _ => simp [isLeaf]

/-- The offset bits of an address in the page of a leaf. -/
private theorem toNat_and_pageSizeAt {n : Nat} (hn : n ≤ 2) (a : U64) :
    (a &&& (pageSizeAt (3 - n) - 1)).toNat = a.toNat % 2 ^ (12 + 9 * n) := by
  have hmask : pageSizeAt (3 - n) - 1 = BitVec.ofNat 64 (2 ^ (12 + 9 * n) - 1) := by
    match n, hn with
    | 0, _ => rfl
    | 1, _ => rfl
    | 2, _ => rfl
  rw [hmask, toNat_and_low a (by omega)]

/-- What the walkers report of a walk: the accumulated user bit, and the address. -/
structure Reports (w : PageWalk) (a : U64) (flags flags' : PageTableFlags) (p : U64) : Prop where
  present : ∀ e ∈ w.entries, e.present = true
  user : flags'.userAccessible = true ↔ flags.userAccessible = true ∧ ∀ e ∈ w.entries, e.userAccessible = true
  shift : 12 ≤ w.shift ∧ w.shift ≤ 30
  physical : w.Aligned → p = w.physical a

/-- Both walkers stop, or both complete the walk. -/
theorem walkers_agree (mem : X86ActiveUserMemory) (a : VirtAddr) {n : Nat} (hn : n ≤ 4) (table : PageTable)
    (flags : PageTableFlags) :
    (mem.flagsWalk (indexesFrom a n) table flags = none ∧ mem.translateWalk a.asU64 (indexesFrom a n) table = none) ∨
      ∃ w flags' p, PageWalk.descend (fun p => mem.tableAt (mem.physicalOffset + p)) a.asU64 n table = some w ∧
        mem.flagsWalk (indexesFrom a n) table flags = some flags' ∧
        mem.translateWalk a.asU64 (indexesFrom a n) table = some p ∧ Reports w a.asU64 flags flags' p := by
  -- the levels that are left; the flags are those of the entries above
  induction n generalizing table flags with
  | zero => exact .inl ⟨rfl, rfl⟩
  | succ n ih =>
    have hindex : PageWalk.index a.asU64 (12 + 9 * n) = tableIndex a (12 + 9 * n) := rfl
    simp only [indexesFrom, flagsWalk, translateWalk, PageWalk.descend, hindex]
    generalize table (tableIndex a (12 + 9 * n)) = entry
    cases hpresent : entry.present with
    | false => exact .inl ⟨rfl, rfl⟩
    | true =>
      simp only [Bool.not_true, Bool.false_eq_true, if_false, isLeaf_iff (show n ≤ 3 by omega)]
      by_cases hleaf : n = 0 ∨ (n ≤ 2 ∧ entry.hugePage = true)
      · have hoffset := toNat_and_pageSizeAt (show n ≤ 2 by omega) a.asU64
        have haddr := entry.toNat_addr_lt
        have hsmall : a.asU64.toNat % 2 ^ (12 + 9 * n) < 2 ^ 30 :=
          Nat.lt_of_lt_of_le (Nat.mod_lt _ (Nat.two_pow_pos _)) (Nat.pow_le_pow_right (by decide) (by omega))
        have hsum := checkedAdd_of_lt (a := entry.addr) (b := a.asU64 &&& (pageSizeAt (3 - n) - 1)) (by omega)
        simp only [hleaf, if_true, hsum]
        refine .inr ⟨_, _, _, rfl, rfl, rfl, ?_, ?_, ⟨by simp, by simp; omega⟩, fun haligned => ?_⟩
        · simpa [PageWalk.entries] using hpresent
        · simp [PageWalk.entries]
        · apply BitVec.eq_of_toNat_eq
          rw [checkedAdd_eq_some.mp hsum, hoffset, PageWalk.physical, BitVec.toNat_ofNat,
            Nat.div_mul_cancel (Nat.dvd_of_mod_eq_zero haligned)]
          exact (Nat.mod_eq_of_lt (by omega)).symm
      · simp only [hleaf, if_false]
        cases hnext : checkedAdd mem.physicalOffset entry.addr with
        | none => exact .inl ⟨rfl, rfl⟩
        | some next =>
          obtain rfl := eq_add_of_checkedAdd hnext
          rcases ih (by omega) (mem.tableAt (mem.physicalOffset + entry.addr)) ⟨flags.userAccessible &&
            entry.userAccessible, flags.writable && entry.writable, flags.noExecute || entry.noExecute⟩ with
              ⟨hflags, htranslate⟩ | ⟨w, flags', p, hw, hflags, htranslate, hreports⟩
          · exact .inl ⟨hflags, htranslate⟩
          · refine .inr ⟨{ w with upper := entry :: w.upper }, flags', p, by rw [hw]; rfl, hflags, htranslate, ?_, ?_,
              hreports.shift, hreports.physical⟩
            · rw [PageWalk.entries_cons, List.forall_mem_cons]
              exact ⟨hpresent, hreports.present⟩
            · rw [PageWalk.entries_cons, List.forall_mem_cons, hreports.user, Bool.and_eq_true, and_assoc]

/-! ### The same answer on every address of a page -/

theorem index_congr {a b : U64} (h : a.toNat / 4096 = b.toNat / 4096) (n : Nat) :
    PageWalk.index a (12 + 9 * n) = PageWalk.index b (12 + 9 * n) := by
  have hdiv : ∀ k : Nat, k / 2 ^ (12 + 9 * n) = k / 4096 / 2 ^ (9 * n) := fun k => by
    rw [Nat.div_div_eq_div_mul, Nat.pow_add]
  simp only [PageWalk.index, hdiv, h]

private theorem indexesFrom_congr {a b : VirtAddr} (h : a.asU64.toNat / 4096 = b.asU64.toNat / 4096) (n : Nat) :
    indexesFrom a n = indexesFrom b n := by
  induction n with
  | zero => rfl
  | succ n ih =>
    have hindex : tableIndex a (12 + 9 * n) = tableIndex b (12 + 9 * n) := index_congr h n
    rw [indexesFrom, indexesFrom, hindex, ih]

private theorem walk_congr (mem : X86ActiveUserMemory) {a b : U64} (h : a.toNat / 4096 = b.toNat / 4096) :
    mem.walk a = mem.walk b := by
  suffices hdescend : ∀ n table, PageWalk.descend (fun p => mem.tableAt (mem.physicalOffset + p)) a n table =
      PageWalk.descend (fun p => mem.tableAt (mem.physicalOffset + p)) b n table from hdescend 4 mem.table
  intro n
  induction n with
  | zero => exact fun _ => rfl
  | succ n ih =>
    intro table
    rw [PageWalk.descend, PageWalk.descend, index_congr h]
    simp only [ih]

private theorem atUserAddress_eq_some {α : Type} {a : U64} {walk : VirtAddr → Option α} {x : α} :
    atUserAddress a walk = .returned (some x) ↔
      userRange.contains a = true ∧ ∃ h : canonical a = true, walk ⟨a, h⟩ = some x := by
  unfold atUserAddress VirtAddr.new
  cases userRange.contains a with
  | false => simp
  | true =>
    by_cases h : canonical a = true
    · simp [h]
    · simp [h]

/-- The range checks do not tell the addresses of a page apart. -/
private theorem atUserAddress_congr {α : Type} {a b : U64} {walk walk' : VirtAddr → Option α}
    (h : a.toNat / 4096 = b.toNat / 4096) (hwalk : ∀ ha hb, walk ⟨a, ha⟩ = walk' ⟨b, hb⟩) :
    atUserAddress a walk = atUserAddress b walk' := by
  have huser : userRange.contains a = userRange.contains b := by
    rw [Bool.eq_iff_iff, userRange_contains, userRange_contains]
    omega
  have hcanonical : canonical a = canonical b := by
    have hdiv : a.toNat / 2 ^ 47 = b.toNat / 2 ^ 47 := by omega
    unfold canonical
    rw [hdiv]
  unfold atUserAddress VirtAddr.new
  rw [huser]
  by_cases hb : canonical b = true
  · rw [dif_pos (hcanonical.trans hb), dif_pos hb, Panics.bind_returned, Panics.bind_returned, hwalk]
  · rw [dif_neg (by rw [hcanonical]; exact hb), dif_neg hb]
    rfl

theorem pageAccess_congr (mem : X86ActiveUserMemory) {a b : U64} (h : a.toNat / 4096 = b.toNat / 4096) :
    mem.pageAccess a = mem.pageAccess b := by
  have hflags : mem.flags a = mem.flags b := by
    refine atUserAddress_congr h fun ha hb => ?_
    have hindexes : indexesFrom ⟨a, ha⟩ 4 = indexesFrom ⟨b, hb⟩ 4 := indexesFrom_congr h 4
    rw [pageIndexes_eq, pageIndexes_eq, hindexes]
  rw [pageAccess, pageAccess, hflags]

/-! ### Validated addresses -/

/-- `page_access` reports a mapping exactly for the addresses that `translate` translates. -/
private theorem mapped_iff_translates (mem : X86ActiveUserMemory) (a : U64) :
    (∃ access, mem.pageAccess a = .returned access ∧ access.mapped = true) ↔
      ∃ p, mem.translate a = .returned (some p) := by
  have hflags : (∃ access, mem.pageAccess a = .returned access ∧ access.mapped = true) ↔
      ∃ flags, mem.flags a = .returned (some flags) := by
    unfold pageAccess
    cases mem.flags a with
    | panicked => simp
    | returned flags => cases flags <;> simp [PageAccess.unmapped]
  rw [hflags]
  simp only [flags, translate, atUserAddress_eq_some, pageIndexes_eq]
  constructor
  · rintro ⟨flags, huser, hcanonical, hwalk⟩
    rcases mem.walkers_agree ⟨a, hcanonical⟩ (Nat.le_refl 4) mem.table ⟨true, true, false⟩ with
      ⟨hnone, -⟩ | ⟨w, flags', p, -, -, htranslate, -⟩
    · rw [hnone] at hwalk
      cases hwalk
    · exact ⟨p, huser, hcanonical, htranslate⟩
  · rintro ⟨p, huser, hcanonical, hwalk⟩
    rcases mem.walkers_agree ⟨a, hcanonical⟩ (Nat.le_refl 4) mem.table ⟨true, true, false⟩ with
      ⟨-, hnone⟩ | ⟨w, flags', p', -, hflags', -, -⟩
    · rw [hnone] at hwalk
      cases hwalk
    · exact ⟨flags', huser, hcanonical, hflags'⟩

/-- The address of a readable page has a walk through entries that are present and accessible to user mode, and
`translate` gives its address. -/
private theorem walk_of_readable (mem : X86ActiveUserMemory) {a : U64} (h : mem.view.Readable (pageStartOf a)) :
    ∃ w p, mem.walk a = some w ∧ mem.translate a = .returned (some p) ∧
      (∀ e ∈ w.entries, e.present = true ∧ e.userAccessible = true) ∧ 12 ≤ w.shift ∧
      (w.Aligned → p = w.physical a) := by
  -- validation has asked for the start of the page, the copy asks for the address itself
  obtain ⟨access, haccess, -, huserBit, -⟩ := h
  have haccess : mem.pageAccess a = .returned access := by
    rw [← haccess]
    exact mem.pageAccess_congr (by rw [toNat_pageStartOf]; omega)
  unfold pageAccess at haccess
  cases hflags : mem.flags a with
  | panicked => simp [hflags] at haccess
  | returned result =>
    cases result with
    | none =>
      rw [hflags, Panics.bind_returned] at haccess
      cases haccess
      cases huserBit
    | some flags =>
      rw [hflags, Panics.bind_returned] at haccess
      cases haccess
      obtain ⟨huser, hcanonical, hwalk⟩ := atUserAddress_eq_some.mp hflags
      rcases mem.walkers_agree ⟨a, hcanonical⟩ (Nat.le_refl 4) mem.table ⟨true, true, false⟩ with
        ⟨hnone, -⟩ | ⟨w, flags', p, hw, hflags', htranslate, hreports⟩
      · rw [pageIndexes_eq, hnone] at hwalk
        cases hwalk
      · cases hflags'.symm.trans hwalk
        have hlevels := (hreports.user.mp huserBit).2
        exact ⟨w, p, hw, atUserAddress_eq_some.mpr ⟨huser, hcanonical, htranslate⟩,
          fun e he => ⟨hreports.present e he, hlevels e he⟩, hreports.shift.1, hreports.physical⟩

end X86ActiveUserMemory

/-! ### The copy -/

/-- Inside a page the walk moves with the address. -/
private theorem PageWalk.physical_add (w : PageWalk) (hshift : 12 ≤ w.shift) {a : U64} {k : Nat}
    (hpage : a.toNat % 4096 + k < 4096) : w.physical (a + BitVec.ofNat 64 k) = w.physical a + BitVec.ofNat 64 k := by
  obtain ⟨s, hs⟩ := Nat.exists_eq_add_of_le hshift
  have hpow : 2 ^ w.shift = 4096 * 2 ^ s := by rw [hs, Nat.pow_add]
  have ha := a.isLt
  have hsum : (a + BitVec.ofNat 64 k).toNat = a.toNat + k := by
    rw [BitVec.toNat_add, BitVec.toNat_ofNat]
    omega
  have hmod : (a.toNat + k) % 2 ^ w.shift = a.toNat % 2 ^ w.shift + k := by
    rw [hpow, Nat.mod_mul, Nat.mod_mul]
    have hdiv : (a.toNat + k) / 4096 = a.toNat / 4096 := by omega
    rw [hdiv]
    omega
  rw [physical, physical, hsum, hmod, ← Nat.add_assoc, BitVec.ofNat_add]

/-- A copy whose addresses the direct map reaches does not fail in it. -/
theorem copyChunks_reached {view : UserMemoryView} {physicalMemory : PhysicalMemoryMapping} {memory : U64 → U8}
    {src : U64}
    {len fuel : Nat} {done : List U8} (hview : ∀ a : U64, src.toNat ≤ a.toNat → a.toNat < src.toNat + len →
      ∃ p q, view.translate a = .returned (some p) ∧ physicalMemory.translate p = some q) :
    copyChunks view physicalMemory memory src len fuel done ≠ .returned (.error .backendFailure) := by
  induction fuel generalizing done with
  | zero => simp [copyChunks]
  | succ fuel ih =>
    unfold copyChunks
    dsimp only
    split_ifs with hlt
    · split
      · simp
      · rename_i va hva
        have hva := checkedAdd_eq_some.mp hva
        have hofs : (BitVec.ofNat 64 done.length).toNat ≤ done.length := by
          rw [BitVec.toNat_ofNat]
          exact Nat.mod_le _ _
        obtain ⟨p, q, htranslate, hkernel⟩ := hview va (by omega) (by omega)
        rw [htranslate, Panics.bind_returned]
        simp only [hkernel]
        exact ih
    · simp

section Copy

variable {view : UserMemoryView} (physicalMemory : PhysicalMemoryMapping) (memory : U64 → U8) {src : U64} {len : Nat}

/-- If the view translates every address of the source, and addresses of one page alike, the copy reads through the
direct map what is at the translated addresses, or fails in the direct map. -/
theorem copyChunks_reads {phys : U64 → U64} (hfits : src.toNat + len ≤ 2 ^ 64)
    (htranslate : ∀ a : U64, src.toNat ≤ a.toNat → a.toNat < src.toNat + len →
      view.translate a = .returned (some (phys a)))
    (hpage : ∀ (a : U64) (k : Nat), src.toNat ≤ a.toNat → a.toNat + k < src.toNat + len → a.toNat % 4096 + k < 4096 →
      phys (a + BitVec.ofNat 64 k) = phys a + BitVec.ofNat 64 k)
    {fuel : Nat} {done : List U8} (hdone : done.length ≤ len) (hfuel : len ≤ done.length + fuel) :
    copyChunks view physicalMemory memory src len fuel done = .returned (.error .backendFailure) ∨
      copyChunks view physicalMemory memory src len fuel done = .returned (.ok (done ++
        readBytes (fun a => memory (physicalMemory.offset + phys a)) (src + BitVec.ofNat 64 done.length)
          (len - done.length))) := by
  -- the bytes that are done are those before the cursor; a round adds the rest of a page
  induction fuel generalizing done with
  | zero =>
    rw [Nat.sub_eq_zero_of_le (by omega)]
    exact .inr (by rw [copyChunks]; simp [readBytes])
  | succ fuel ih =>
    unfold copyChunks
    by_cases hlt : done.length < len
    · have hsrc := src.isLt
      have hva : (src + BitVec.ofNat 64 done.length).toNat = src.toNat + done.length := by
        rw [BitVec.toNat_add, BitVec.toNat_ofNat]
        omega
      have hadd : checkedAdd src (BitVec.ofNat 64 done.length) = some (src + BitVec.ofNat 64 done.length) := by
        rw [checkedAdd_eq_some, hva, BitVec.toNat_ofNat]
        omega
      generalize hvaEq : src + BitVec.ofNat 64 done.length = va at *
      simp only [hlt, if_true, hadd, htranslate va (by omega) (by omega), Panics.bind_returned]
      cases hmap : physicalMemory.translate (phys va) with
      | none => exact .inl rfl
      | some kernel =>
        obtain rfl : kernel = physicalMemory.offset + phys va := eq_add_of_checkedAdd hmap
        dsimp only
        generalize hchunk : min (4096 - va.toNat % 4096) (len - done.length) = chunk
        -- the bytes of the round are those at the translated addresses
        have hread : readBytes memory (physicalMemory.offset + phys va) chunk =
            readBytes (fun a => memory (physicalMemory.offset + phys a)) va chunk := by
          refine List.map_congr_left fun k hk => ?_
          rw [List.mem_range] at hk
          show _ = memory (physicalMemory.offset + phys (va + BitVec.ofNat 64 k))
          rw [hpage va k (by omega) (by omega) (by omega), BitVec.add_assoc]
        have hlength : (done ++ readBytes memory (physicalMemory.offset + phys va) chunk).length =
          done.length + chunk := by
          simp
        have hnext : src + BitVec.ofNat 64 (done.length + chunk) = va + BitVec.ofNat 64 chunk := by
          rw [BitVec.ofNat_add, ← BitVec.add_assoc, hvaEq]
        have hsplit : len - done.length = chunk + (len - (done.length + chunk)) := by omega
        have hdone' : (done ++ readBytes memory (physicalMemory.offset + phys va) chunk).length ≤ len := by omega
        rcases ih hdone' (by omega) with hfail | hok
        · exact .inl hfail
        · refine .inr (hok.trans ?_)
          rw [hlength, hnext, hsplit, readBytes_add, hread, List.append_assoc]
    · rw [if_neg hlt, Nat.sub_eq_zero_of_le (by omega)]
      exact .inr (by simp [readBytes])

end Copy

namespace X86ActiveUserMemory

/-- Every page that a walk of the tree ends in is naturally aligned. -/
def NaturallyAligned (mem : X86ActiveUserMemory) : Prop := ∀ a w, mem.walk a = some w → w.Aligned

/-- The address that the walk gives. -/
def physicalOf (mem : X86ActiveUserMemory) (a : U64) : U64 := ((mem.walk a).map fun w => w.physical a).getD 0

private theorem physicalOf_eq {mem : X86ActiveUserMemory} {a : U64} {w : PageWalk} (h : mem.walk a = some w) :
    mem.physicalOf a = w.physical a := by
  rw [physicalOf, h]
  rfl

/-- What user memory holds at an address, read through the direct map. -/
def userByte (mem : X86ActiveUserMemory) (physicalMemory : PhysicalMemoryMapping) (memory : U64 → U8) (a : U64) :
    U8 :=
  memory (physicalMemory.offset + mem.physicalOf a)

/-- On a validated slice the copy reads the bytes of user memory, or fails at an address that the direct map does not
reach. -/
private theorem copyFromUser_of_validated {mem : X86ActiveUserMemory} (haligned : mem.NaturallyAligned)
    (physicalMemory : PhysicalMemoryMapping) (memory : U64 → U8) {slice : UserSlice}
    (hvalid : validateReadableRange mem.view slice = .returned (.ok ())) :
    ((x86UserCopyBackend mem.view physicalMemory memory).copyFromUser slice.ptr slice.len.toNat =
        .returned (.error .backendFailure) ∧
      ∃ a, slice.Contains a ∧ physicalMemory.translate (mem.physicalOf a) = none) ∨
    (x86UserCopyBackend mem.view physicalMemory memory).copyFromUser slice.ptr slice.len.toNat =
      .returned (.ok (slice.bytes (mem.userByte physicalMemory memory))) := by
  by_cases hlen : slice.len = 0
  · refine .inr ?_
    rw [UserSlice.bytes, hlen]
    rfl
  · obtain ⟨⟨range, hrange⟩, hreadable⟩ := (validateReadableRange_eq_ok hlen).mp hvalid
    obtain ⟨-, -, -, hhigh⟩ := (validateSlice_eq_ok hlen).mp hrange
    have htranslate : ∀ a : U64, slice.ptr.toNat ≤ a.toNat → a.toNat < slice.ptr.toNat + slice.len.toNat →
        mem.view.translate a = .returned (some (mem.physicalOf a)) := by
      intro a hle hlt
      obtain ⟨w, p, hw, htranslate, -, -, hp⟩ := mem.walk_of_readable (hreadable a ⟨hle, hlt⟩)
      rw [physicalOf_eq hw, ← hp (haligned a w hw)]
      exact htranslate
    have hpage : ∀ (a : U64) (k : Nat), slice.ptr.toNat ≤ a.toNat → a.toNat + k < slice.ptr.toNat + slice.len.toNat →
        a.toNat % 4096 + k < 4096 →
        mem.physicalOf (a + BitVec.ofNat 64 k) = mem.physicalOf a + BitVec.ofNat 64 k := by
      intro a k hle hlt hpage
      obtain ⟨w, p, hw, -, -, hshift, -⟩ := mem.walk_of_readable (hreadable a ⟨hle, by omega⟩)
      have hnext : mem.walk (a + BitVec.ofNat 64 k) = some w := by
        rw [← hw]
        refine mem.walk_congr ?_
        rw [BitVec.toNat_add, BitVec.toNat_ofNat]
        omega
      rw [physicalOf_eq hw, physicalOf_eq hnext, w.physical_add hshift hpage]
    have hcopy := copyChunks_reads physicalMemory memory (by omega) htranslate hpage
      (show ([] : List U8).length ≤ _ from Nat.zero_le _) (Nat.le_add_left _ _)
    rw [List.length_nil, BitVec.add_zero] at hcopy
    refine hcopy.imp_left fun hfails => ⟨hfails, ?_⟩
    by_contra hreached
    refine copyChunks_reached (fun a hle hlt => ?_) hfails
    obtain ⟨q, hq⟩ := Option.ne_none_iff_exists'.mp fun hnone => hreached ⟨a, ⟨hle, hlt⟩, hnone⟩
    exact ⟨_, q, htranslate a hle hlt, hq⟩

/-- The copy backend over the active tables is one that copies what user memory holds, or fails. -/
theorem copiesOrFails {mem : X86ActiveUserMemory} (haligned : mem.NaturallyAligned)
    (physicalMemory : PhysicalMemoryMapping) (memory : U64 → U8) :
    CopiesOrFails mem.view (x86UserCopyBackend mem.view physicalMemory memory) (mem.userByte physicalMemory memory) :=
  fun _ hvalid => (copyFromUser_of_validated haligned physicalMemory memory hvalid).symm.imp_right fun h => ⟨_, h.1⟩

/-- Once a slice is validated, its copy reads for every offset the byte that the walk assigns to it, over levels that
are all present and accessible to user mode.  It fails only where the walk leads to an address that the direct map
does not reach.  The two walkers agree on what is mapped, and their answer is the same on all addresses of a page. -/
theorem validated_copy_follows_walk (mem : X86ActiveUserMemory) (haligned : mem.NaturallyAligned)
    (physicalMemory : PhysicalMemoryMapping) (memory : U64 → U8) (slice : UserSlice)
    (hvalid : validateReadableRange mem.view slice = .returned (.ok ())) :
    ((x86UserCopyBackend mem.view physicalMemory memory).copyFromUser slice.ptr slice.len.toNat =
          .returned (.error .backendFailure) ∧
        (∃ i < slice.len.toNat, ∃ w, mem.walk (slice.ptr + BitVec.ofNat 64 i) = some w ∧
          physicalMemory.translate (w.physical (slice.ptr + BitVec.ofNat 64 i)) = none) ∨
      ∃ bytes, (x86UserCopyBackend mem.view physicalMemory memory).copyFromUser slice.ptr slice.len.toNat =
          .returned (.ok bytes) ∧
        ∀ i < slice.len.toNat, ∃ w, mem.walk (slice.ptr + BitVec.ofNat 64 i) = some w ∧
          bytes[i]? = some (memory (physicalMemory.offset + w.physical (slice.ptr + BitVec.ofNat 64 i)))) ∧
    (∀ i < slice.len.toNat, ∃ w, mem.walk (slice.ptr + BitVec.ofNat 64 i) = some w ∧
      ∀ e ∈ w.entries, e.present = true ∧ e.userAccessible = true) ∧
    (∀ a, (∃ access, mem.pageAccess a = .returned access ∧ access.mapped = true) ↔
      ∃ p, mem.translate a = .returned (some p)) ∧
    ∀ a b : U64, a.toNat / 4096 = b.toNat / 4096 → mem.pageAccess a = mem.pageAccess b := by
  have hwalk : ∀ i < slice.len.toNat, ∃ w, mem.walk (slice.ptr + BitVec.ofNat 64 i) = some w ∧
      ∀ e ∈ w.entries, e.present = true ∧ e.userAccessible = true := by
    intro i hi
    have hlen : slice.len ≠ 0 := by
      rintro hzero
      rw [hzero] at hi
      exact absurd hi (Nat.not_lt_zero i)
    obtain ⟨⟨range, hrange⟩, hreadable⟩ := (validateReadableRange_eq_ok hlen).mp hvalid
    obtain ⟨-, -, -, hhigh⟩ := (validateSlice_eq_ok hlen).mp hrange
    have hcontains : slice.Contains (slice.ptr + BitVec.ofNat 64 i) := by
      unfold UserSlice.Contains
      rw [BitVec.toNat_add, BitVec.toNat_ofNat]
      omega
    obtain ⟨w, p, hw, -, hlevels, -, -⟩ := mem.walk_of_readable (hreadable _ hcontains)
    exact ⟨w, hw, hlevels⟩
  refine ⟨?_, hwalk, mem.mapped_iff_translates, fun a b => mem.pageAccess_congr⟩
  rcases copyFromUser_of_validated haligned physicalMemory memory hvalid with ⟨hfails, a, ⟨hle, hlt⟩, hnone⟩ | hok
  · have ha : slice.ptr + BitVec.ofNat 64 (a.toNat - slice.ptr.toNat) = a := by
      apply BitVec.eq_of_toNat_eq
      rw [BitVec.toNat_add, BitVec.toNat_ofNat]
      omega
    obtain ⟨w, hw, -⟩ := hwalk (a.toNat - slice.ptr.toNat) (by omega)
    refine .inl ⟨hfails, a.toNat - slice.ptr.toNat, by omega, w, hw, ?_⟩
    rw [ha] at hw ⊢
    rw [← physicalOf_eq hw, hnone]
  · refine .inr ⟨_, hok, fun i hi => ?_⟩
    obtain ⟨w, hw, -⟩ := hwalk i hi
    refine ⟨w, hw, ?_⟩
    rw [UserSlice.bytes, readBytes, List.getElem?_map, List.getElem?_range hi, Option.map_some, userByte,
      physicalOf_eq hw]

/-! ### A huge page -/

namespace HugePage

/-- Every address is mapped, to the 2 MiB page at `0x200000`. -/
def mem : X86ActiveUserMemory where
  table _ := ⟨0x1007⟩
  physicalOffset := 0
  tableAt p _ := if p = 0x1000 then ⟨0x2007⟩ else ⟨0x200087⟩

private theorem walk_eq (a : U64) : mem.walk a = some ⟨[⟨0x1007⟩, ⟨0x2007⟩], ⟨0x200087⟩, 21⟩ := by
  simp [walk, PageWalk.descend, mem, PageTableEntry.present, PageTableEntry.hugePage, PageTableEntry.addr]

/-- Four bytes around the end of a page. -/
def slice : UserSlice := ⟨0x400ffe, 4⟩

theorem validated_copy_crosses_page :
    validateReadableRange mem.view slice = .returned (.ok ()) ∧
      (x86UserCopyBackend mem.view ⟨0⟩ fun a => a.setWidth 8).copyFromUser slice.ptr 4 =
        .returned (.ok [0xfe, 0xff, 0x00, 0x01]) ∧
      ∃ w, mem.walk (slice.ptr + 3#64) = some w ∧ w.physical (slice.ptr + 3#64) = 0x201001 ∧
        ∀ e ∈ w.entries, e.present = true ∧ e.userAccessible = true := by
  have haligned : mem.NaturallyAligned := by
    intro a w hw
    rw [walk_eq] at hw
    cases hw
    rfl
  have hvalid : validateReadableRange mem.view slice = .returned (.ok ()) := by decide +kernel
  obtain ⟨w, hw, hlevels⟩ := (validated_copy_follows_walk mem haligned ⟨0⟩ (fun a => a.setWidth 8) slice hvalid).2.1 3
    (by decide)
  refine ⟨hvalid, by decide +kernel, w, hw, ?_, hlevels⟩
  have hsame : mem.walk (slice.ptr + BitVec.ofNat 64 3) = some w := hw
  rw [walk_eq] at hsame
  cases hsame
  decide +kernel

end HugePage

end X86ActiveUserMemory

end X11Os
