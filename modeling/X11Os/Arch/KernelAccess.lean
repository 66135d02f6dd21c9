import X11Os.Arch.TableMemory
import X11Os.Lib.MappedMemory
import X11Os.Lib.Transaction

/-!
# Accesses of the kernel through the active root

The kernel reaches physical memory at addresses of its own, which the processor translates with the root in CR3.  An
access that is not translated, or a store that is not allowed, ends in the page-fault handler, which does not return.

The direct map shows the first `limit` bytes of physical memory from `offset` on, in the upper half.  It is part of
the kernel half of a root, and is shown by every root with the same kernel half (`DirectMap.ShownBy.of_half`).
-/

namespace X11Os

open Word Amd64 Exec MappedMemory

/-- A walk looks at one entry of its first table. -/
private theorem PageWalk.descend_congr_entry {tables : U64 → PageTable} {a : U64} {n : Nat} {table table' : PageTable}
    (h : table (index a (12 + 9 * n)) = table' (index a (12 + 9 * n))) :
    descend tables a (n + 1) table = descend tables a (n + 1) table' := by
  unfold descend
  simp only [h]

/-- The walk of the processor for an address that the kernel uses. -/
def kernelWalk (m : Memory) (root v : U64) : Option PageWalk :=
  if canonical v = true then PageWalk.descend (readTable m) v 4 (readTable m root) else none

/-- Where a load goes. -/
def loadAddress (root : U64) (m : Memory) (v : U64) : Option U64 := (kernelWalk m root v).map fun w => w.physical v

/-- Where a store goes, over entries that allow it. -/
def storeAddress (root : U64) (m : Memory) (v : U64) : Option U64 :=
  (kernelWalk m root v).bind fun w => if w.entries.all PageTableEntry.writable then some (w.physical v) else none

/-- What the kernel reads at its own addresses with a root active.  A load that is not translated does not return;
`fault` stands for what it would have read. -/
def kernelView (fault : Memory) (root : U64) (m : Memory) : Memory :=
  fun v => ((loadAddress root m v).map m).getD (fault v)

section Accesses

variable {ε : Type}

def kernelLoad (v : U64) (n : Nat) : Exec KernelMemory ε (List U8) := ExceptT.lift fun s =>
  match loadBytes (loadAddress s.cr3 s.memory) s.memory v n with
  | some bytes => .returned (bytes, s)
  | none => .panicked

def kernelStore (v : U64) (bytes : List U8) : Exec KernelMemory ε Unit := ExceptT.lift fun s =>
  match storeBytes (storeAddress s.cr3) v bytes s.memory with
  | some memory => .returned ((), { s with memory })
  | none => .panicked

private theorem kernelLoad_runs {s : KernelMemory} {v : U64} {n : Nat} {bytes : List U8}
    (h : loadBytes (loadAddress s.cr3 s.memory) s.memory v n = some bytes) :
    Runs (kernelLoad v n : Exec KernelMemory ε (List U8)) s bytes s := by
  have hlift : (kernelLoad v n : Exec KernelMemory ε (List U8)).exec s =
      (match loadBytes (loadAddress s.cr3 s.memory) s.memory v n with
        | some bytes => Panics.returned (bytes, s)
        | none => .panicked).bind fun r => .returned (.ok r.1, r.2) := rfl
  rw [Runs, hlift, h]
  rfl

private theorem kernelStore_runs {s : KernelMemory} {v : U64} {bytes : List U8} {memory : Memory}
    (h : storeBytes (storeAddress s.cr3) v bytes s.memory = some memory) :
    Runs (kernelStore v bytes : Exec KernelMemory ε Unit) s () { s with memory } := by
  have hlift : (kernelStore v bytes : Exec KernelMemory ε Unit).exec s =
      (match storeBytes (storeAddress s.cr3) v bytes s.memory with
        | some memory => Panics.returned ((), ({ s with memory } : KernelMemory))
        | none => .panicked).bind fun r => .returned (.ok r.1, r.2) := rfl
  rw [Runs, hlift, h]
  rfl

end Accesses

/-! ### Copies inside a page -/

section Copies

variable {m : Memory} {base x : U64} {k : Nat} {bytes : List U8} (hfit : k + bytes.length ≤ 4096)
include hfit

/-- What a write inside a page leaves at an address, by its distance from the page. -/
theorem copyBytes_apply : copyBytes m (base + BitVec.ofNat 64 k) bytes x =
    if k ≤ (x - base).toNat then (bytes[(x - base).toNat - k]?).getD (m x) else m x := by
  have hb := base.isLt
  have hx := x.isLt
  have hdistance : (x - (base + BitVec.ofNat 64 k)).toNat =
      if k ≤ (x - base).toNat then (x - base).toNat - k else 2 ^ 64 + (x - base).toNat - k := by
    simp only [BitVec.toNat_sub, BitVec.toNat_add, BitVec.toNat_ofNat]
    split_ifs <;> omega
  rw [copyBytes, hdistance]
  split_ifs with hle
  · rfl
  · rw [List.getElem?_eq_none (by omega), Option.getD_none]

theorem copyBytes_outside (hx : ¬ Within base 4096 x) : copyBytes m (base + BitVec.ofNat 64 k) bytes x = m x := by
  have hfar : ¬ (x - base).toNat < 4096 := hx
  rw [copyBytes_apply hfit, List.getElem?_eq_none (by omega), Option.getD_none, ite_self]

end Copies

/-! ### The direct map -/

/-- A direct map of the first `limit` bytes of physical memory, in the upper half of every address space. -/
structure DirectMap where
  offset : U64
  limit : Nat
  upper : 0xffff800000000000 ≤ offset.toNat
  fits : offset.toNat + limit < 2 ^ 64
  whole : limit % 4096 = 0

namespace DirectMap

variable (d : DirectMap)

/-- With the root active, the kernel can read and write every byte of the direct map. -/
def ShownBy (m : Memory) (root : U64) : Prop := ∀ p : U64, p.toNat < d.limit → ∃ w,
  kernelWalk m root (d.offset + p) = some w ∧ w.physical (d.offset + p) = p ∧ ∀ e ∈ w.entries, e.writable = true

/-- The direct map is there, whatever a part of the memory holds. -/
def StableOn (s : KernelMemory) (part : U64 → Prop) : Prop :=
  ∀ m', (∀ x, ¬ part x → m' x = s.memory x) → d.ShownBy m' s.cr3

variable {d} {s : KernelMemory} {m : Memory} {root p : U64}

theorem toNat_offset (hp : p.toNat < d.limit) : (d.offset + p).toNat = d.offset.toNat + p.toNat := by
  have hfits := d.fits
  rw [BitVec.toNat_add]
  omega

theorem canonical_offset (hp : p.toNat < d.limit) : canonical (d.offset + p) = true := by
  have hupper := d.upper
  have hfits := d.fits
  simp only [canonical, Bool.or_eq_true, beq_iff_eq, toNat_offset hp]
  omega

theorem limit_lt (d : DirectMap) : d.limit < 2 ^ 47 := by
  have hupper := d.upper
  have hfits := d.fits
  omega

theorem StableOn.shownBy {part : U64 → Prop} (h : d.StableOn s part) : d.ShownBy s.memory s.cr3 := h _ fun _ _ => rfl

/-- What is written to the part leaves the direct map as stable as it was. -/
theorem StableOn.written {part : U64 → Prop} (h : d.StableOn s part) (houtside : ∀ x, ¬ part x → m x = s.memory x) :
    d.StableOn { s with memory := m } part := fun m' hm' => h m' fun x hx => (hm' x hx).trans (houtside x hx)

theorem StableOn.mono {part part' : U64 → Prop} (h : d.StableOn s part) (hpart : ∀ x, part' x → part x) :
    d.StableOn s part' := fun m' hm' => h m' fun x hx => hm' x fun hx' => hx (hpart x hx')

namespace ShownBy

private theorem loadAddress_eq (h : d.ShownBy m root) (hp : p.toNat < d.limit) :
    loadAddress root m (d.offset + p) = some p := by
  obtain ⟨w, hwalk, hphysical, -⟩ := h p hp
  rw [loadAddress, hwalk, Option.map_some, hphysical]

theorem kernelView_eq (h : d.ShownBy m root) (hp : p.toNat < d.limit) (fault : Memory) :
    kernelView fault root m (d.offset + p) = m p := by
  rw [kernelView, h.loadAddress_eq hp]
  rfl

private theorem storeAddress_eq (h : d.ShownBy m root) (hp : p.toNat < d.limit) :
    storeAddress root m (d.offset + p) = some p := by
  obtain ⟨w, hwalk, hphysical, hwritable⟩ := h p hp
  rw [storeAddress, hwalk, Option.bind_some, if_pos (List.all_eq_true.mpr hwritable), hphysical]

/-- Only the kernel half of a root takes part in the walks of the direct map. -/
theorem of_half {root' : U64} (h : d.ShownBy m root)
    (hhalf : ∀ i : Fin 512, kernelP4Start ≤ i.val → readTable m root' i = readTable m root i) :
    d.ShownBy m root' := by
  intro p hp
  obtain ⟨w, hwalk, hrest⟩ := h p hp
  refine ⟨w, ?_, hrest⟩
  have hindex : kernelP4Start ≤ (PageWalk.index (d.offset + p) 39).val := by
    have hupper := d.upper
    have hfits := d.fits
    show 256 ≤ (d.offset + p).toNat / 2 ^ 39 % 512
    rw [toNat_offset hp]
    omega
  rw [← hwalk, kernelWalk, kernelWalk, if_pos (canonical_offset hp), if_pos (canonical_offset hp)]
  exact PageWalk.descend_congr_entry (hhalf _ hindex)

end ShownBy

/-! ### Accesses to a frame -/

section Frame

variable {ε : Type} {k : Nat} (hp : IsFrame p) (hreached : p.toNat < d.limit)
include hp hreached

/-- The direct map reaches the whole frame. -/
theorem toNat_frame_add {i : Nat} (hi : i < 4096) :
    (p + BitVec.ofNat 64 i).toNat = p.toNat + i ∧ (p + BitVec.ofNat 64 i).toNat < d.limit := by
  have halign := hp.1
  have hwhole := d.whole
  have hlimit := d.limit_lt
  rw [BitVec.toNat_add, BitVec.toNat_ofNat]
  omega

theorem frame_load_runs (h : d.ShownBy s.memory s.cr3) {n : Nat} (hfit : k + n ≤ 4096) :
    Runs (kernelLoad (d.offset + p + BitVec.ofNat 64 k) n : Exec KernelMemory ε (List U8)) s
      ((List.range n).map fun i => s.memory (p + BitVec.ofNat 64 k + BitVec.ofNat 64 i)) s := by
  refine kernelLoad_runs (loadBytes_eq fun i hi => ?_)
  have hsum : p + BitVec.ofNat 64 k + BitVec.ofNat 64 i = p + BitVec.ofNat 64 (k + i) := by
    rw [BitVec.ofNat_add, BitVec.add_assoc]
  rw [BitVec.add_assoc, BitVec.add_assoc, ← BitVec.add_assoc p, hsum]
  exact h.loadAddress_eq (toNat_frame_add hp hreached (by omega)).2

/-- A write to a frame that takes no part in the direct map. -/
theorem frame_store_runs (h : d.StableOn s (Within p 4096)) {bytes : List U8} (hfit : k + bytes.length ≤ 4096) :
    Runs (kernelStore (d.offset + p + BitVec.ofNat 64 k) bytes : Exec KernelMemory ε Unit) s ()
      { s with memory := copyBytes s.memory (p + BitVec.ofNat 64 k) bytes } := by
  have hsum : ∀ i, p + BitVec.ofNat 64 k + BitVec.ofNat 64 i = p + BitVec.ofNat 64 (k + i) := by
    intro i
    rw [BitVec.ofNat_add, BitVec.add_assoc]
  have hwindow : ∀ i < bytes.length, Within p 4096 (p + BitVec.ofNat 64 k + BitVec.ofNat 64 i) := by
    intro i hi
    rw [hsum, within_add, BitVec.toNat_ofNat]
    omega
  refine kernelStore_runs (storeBytes_eq (by omega) (fun m' hm' i hi => ?_) hwindow)
  rw [BitVec.add_assoc, BitVec.add_assoc, ← BitVec.add_assoc p, hsum]
  exact (h m' hm').storeAddress_eq (toNat_frame_add hp hreached (by omega)).2

end Frame

end DirectMap

end X11Os
