import X11Os.Arch.PageTable
import X11Os.Arch.PageWalk
import X11Os.Memory.FrameRuns
import X11Os.Process.Population

/-!
# Page tables in memory

Physical memory, the allocator of its frames, and CR3.  A page table is what one frame of the memory holds.
-/

namespace X11Os

open Word Amd64

/-- The memory by physical address, what is left of its frames, and the root that is active. -/
structure KernelMemory where
  memory : Memory
  allocator : EarlyFrameAllocator
  cr3 : U64

def PageTableEntry.unused : PageTableEntry := ⟨0⟩

/-- The address of an entry of the table at `table`. -/
def entryAddress (table : U64) (index : Fin 512) : U64 := table + BitVec.ofNat 64 (8 * index.val)

/-- The table in a frame of the memory. -/
def readTable (m : Memory) (table : U64) : PageTable := fun index => ⟨read64 m (entryAddress table index)⟩

/-- The entries of a level-4 root from the first one on belong to the kernel. -/
def kernelP4Start : Nat := 256
def kernelP4End : Nat := 512

/-- A page of physical memory. -/
def IsFrame (p : U64) : Prop := p.toNat % 4096 = 0 ∧ p.toNat < 2 ^ 52

variable {p q : U64} {i : Fin 512} {m m' : Memory}

/-- An entry lies in the frame of its table. -/
theorem within_frame_of_entry {x : U64} (hx : Within (entryAddress p i) 8 x) : Within p 4096 x := by
  have hi := i.isLt
  refine within_of_offset ?_ hx
  rw [BitVec.toNat_ofNat]
  omega

/-- A table is what its frame holds. -/
theorem readTable_congr (h : ∀ x, Within p 4096 x → m' x = m x) : readTable m' p = readTable m p := by
  funext i
  exact congrArg PageTableEntry.mk (read64_congr fun x hx => h x (within_frame_of_entry hx))

/-- Two frames share no byte. -/
theorem frames_apart (hp : IsFrame p) (hq : IsFrame q) (hne : p ≠ q) : Apart p 4096 q 4096 :=
  fun _ hx hx' => hne (eq_of_within hp.1 hq.1 hx hx')

/-- The tables after a write to one entry. -/
theorem readTable_of_write (hp : IsFrame p) (hq : IsFrame q) {e : PageTableEntry} {j : Fin 512}
    (houtside : ∀ x, ¬ Within (entryAddress p i) 8 x → m' x = m x) (hvalue : readTable m' p i = e) :
    readTable m' q j = if q = p ∧ j = i then e else readTable m q j := by
  split_ifs with h
  · obtain ⟨rfl, rfl⟩ := h
    exact hvalue
  · refine congrArg PageTableEntry.mk (read64_congr fun x hx => houtside x fun hx' => h ?_)
    by_cases hpq : q = p
    · subst hpq
      refine ⟨rfl, Fin.ext ?_⟩
      unfold Within entryAddress at hx hx'
      have hxlt := x.isLt
      have h₁ := hq.1
      have h₂ := hq.2
      have hi := i.isLt
      have hj := j.isLt
      simp only [BitVec.toNat_sub, BitVec.toNat_add, BitVec.toNat_ofNat] at hx hx'
      omega
    · exact absurd (within_frame_of_entry hx') (frames_apart hq hp hpq x (within_frame_of_entry hx))

private theorem read64_zero (a : U64) : read64 (fun _ => 0) a = 0 := by
  show (0 : U8) ++ (0 : U8) ++ (0 : U8) ++ (0 : U8) ++ (0 : U8) ++ (0 : U8) ++ (0 : U8) ++ (0 : U8) = (0 : U64)
  decide

/-- The tables after a frame has been cleared. -/
theorem readTable_of_clear (hp : IsFrame p) (hq : IsFrame q) {j : Fin 512}
    (houtside : ∀ x, ¬ Within p 4096 x → m' x = m x) (hzero : ∀ x, Within p 4096 x → m' x = 0) :
    readTable m' q j = if q = p then .unused else readTable m q j := by
  split_ifs with h
  · subst h
    have hread : read64 m' (entryAddress q j) = read64 (fun _ => 0) (entryAddress q j) :=
      read64_congr fun x hx => hzero x (within_frame_of_entry hx)
    exact congrArg PageTableEntry.mk (hread.trans (read64_zero _))
  · exact congrFun (readTable_congr fun x hx => houtside x (frames_apart hq hp h x hx)) j

/-! ### The address in an entry -/

theorem getLsbD_addressMask {k : Nat} (hk : k < 64) :
    (0x000ffffffffff000 : U64).getLsbD k = decide (12 ≤ k ∧ k < 52) := by
  have hall : ∀ k : Fin 64, (0x000ffffffffff000 : U64).getLsbD k = decide (12 ≤ k.val ∧ k.val < 52) := by decide
  exact hall ⟨k, hk⟩

theorem PageTableEntry.isFrame_addr (e : PageTableEntry) : IsFrame e.addr := by
  refine ⟨?_, e.toNat_addr_lt⟩
  have hmod : e.addr.toNat % 2 ^ 12 = 0 := by
    apply Nat.eq_of_testBit_eq
    intro k
    rw [Nat.testBit_mod_two_pow, Nat.zero_testBit]
    by_cases hk : k < 12
    · have hmask := getLsbD_addressMask (show k < 64 by omega)
      have hbit : e.addr.getLsbD k = (e.raw.getLsbD k && (0x000ffffffffff000 : U64).getLsbD k) :=
        BitVec.getLsbD_and
      rw [hmask, decide_eq_false (by omega), Bool.and_false] at hbit
      rw [show e.addr.toNat.testBit k = false from hbit, Bool.and_false]
    · rw [decide_eq_false hk, Bool.false_and]
  exact hmod

end X11Os
