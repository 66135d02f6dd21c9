import Mathlib.Algebra.Ring.Nat

/-!
# Machine words

Fixed-width unsigned words and the checked arithmetic on them.  A word is a `BitVec`; `checkedAdd`, `checkedSub`
and `checkedMul` return `none` exactly when the mathematical result does not fit, so a caller reasons about
`toNat` with `omega`.
-/

namespace Word

abbrev U8 := BitVec 8
abbrev U16 := BitVec 16
abbrev U32 := BitVec 32
abbrev U64 := BitVec 64
abbrev U128 := BitVec 128

/-- The largest value of a 32-bit word. -/
def u32Max : U32 := BitVec.allOnes 32

def checkedAdd {w : Nat} (a b : BitVec w) : Option (BitVec w) := if a + b < a then none else some (a + b)

def checkedSub {w : Nat} (a b : BitVec w) : Option (BitVec w) := if a < b then none else some (a - b)

theorem toNat_pos {w : Nat} {a : BitVec w} (h : a ≠ 0) : 0 < a.toNat := by
  rw [Nat.pos_iff_ne_zero]
  intro hzero
  exact h (BitVec.eq_of_toNat_eq (by rw [hzero]; exact BitVec.toNat_zero.symm))

/-- A sum wraps around exactly when it comes out below an operand. -/
private theorem add_lt_iff {w : Nat} {a b : BitVec w} : a + b < a ↔ 2 ^ w ≤ a.toNat + b.toNat := by
  have ha := a.isLt
  have hb := b.isLt
  rw [BitVec.lt_def, BitVec.toNat_add]
  rcases Nat.lt_or_ge (a.toNat + b.toNat) (2 ^ w) with h | h
  · rw [Nat.mod_eq_of_lt h]
    omega
  · rw [Nat.mod_eq_sub_mod h, Nat.mod_eq_of_lt (by omega)]
    omega

theorem checkedAdd_eq_some {w : Nat} {a b c : BitVec w} :
    checkedAdd a b = some c ↔ c.toNat = a.toNat + b.toNat := by
  unfold checkedAdd
  split
  · rename_i h
    rw [add_lt_iff] at h
    have := c.isLt
    simp only [reduceCtorEq, false_iff]
    omega
  · rename_i h
    rw [add_lt_iff, Nat.not_le] at h
    have hab : (a + b).toNat = a.toNat + b.toNat := by
      rw [BitVec.toNat_add, Nat.mod_eq_of_lt h]
    rw [Option.some.injEq, ← BitVec.toNat_inj, hab]
    exact eq_comm

theorem checkedAdd_of_lt {w : Nat} {a b : BitVec w} (h : a.toNat + b.toNat < 2 ^ w) :
    checkedAdd a b = some (a + b) := by
  rw [checkedAdd_eq_some, BitVec.toNat_add, Nat.mod_eq_of_lt h]

theorem eq_add_of_checkedAdd {w : Nat} {a b c : BitVec w} (h : checkedAdd a b = some c) : c = a + b := by
  unfold checkedAdd at h
  split at h
  · cases h
  · exact (Option.some.inj h).symm

theorem checkedAdd_eq_none {w : Nat} {a b : BitVec w} :
    checkedAdd a b = none ↔ 2 ^ w ≤ a.toNat + b.toNat := by
  unfold checkedAdd
  rw [← add_lt_iff]
  split <;> simp_all

theorem checkedSub_eq_some {w : Nat} {a b c : BitVec w} :
    checkedSub a b = some c ↔ a.toNat = b.toNat + c.toNat := by
  have ha := a.isLt
  have hc := c.isLt
  unfold checkedSub
  split
  · rename_i h
    rw [BitVec.lt_def] at h
    simp only [reduceCtorEq, false_iff]
    omega
  · rename_i h
    rw [BitVec.not_lt, BitVec.le_def] at h
    rw [Option.some.injEq, ← BitVec.toNat_inj, BitVec.toNat_sub_of_le h]
    omega

def checkedMul {w : Nat} (a b : BitVec w) : Option (BitVec w) :=
  if a.toNat * b.toNat < 2 ^ w then some (a * b) else none

theorem checkedMul_eq_some {w : Nat} {a b c : BitVec w} :
    checkedMul a b = some c ↔ c.toNat = a.toNat * b.toNat := by
  have hc := c.isLt
  unfold checkedMul
  split
  · rename_i h
    rw [Option.some.injEq, ← BitVec.toNat_inj, BitVec.toNat_mul, Nat.mod_eq_of_lt h]
    exact eq_comm
  · simp only [reduceCtorEq, false_iff]
    omega

theorem checkedMul_of_lt {w : Nat} {a b : BitVec w} (h : a.toNat * b.toNat < 2 ^ w) : checkedMul a b = some (a * b) :=
  if_pos h

/-- A product and a sum that are both checked. -/
theorem checkedMul_bind_checkedAdd_eq_some {w : Nat} {a b c d : BitVec w} :
    ((checkedMul a b).bind fun product => checkedAdd product c) = some d ↔ d.toNat = a.toNat * b.toNat + c.toNat := by
  have hd := d.isLt
  rw [Option.bind_eq_some_iff]
  constructor
  · intro h
    obtain ⟨product, hproduct, hsum⟩ := h
    rw [checkedMul_eq_some] at hproduct
    rw [checkedAdd_eq_some, hproduct] at hsum
    exact hsum
  · intro h
    have hfits : a.toNat * b.toNat < 2 ^ w := by omega
    refine ⟨a * b, checkedMul_of_lt hfits, ?_⟩
    rw [checkedAdd_eq_some, BitVec.toNat_mul, Nat.mod_eq_of_lt hfits]
    exact h

theorem checkedMul_bind_checkedAdd_div_eq_some {w : Nat} {a b c d n : BitVec w} (h : a.toNat * b.toNat < 2 ^ w) :
    ((checkedMul a b).bind fun product => checkedAdd c (product / n)) = some d ↔
      d.toNat = c.toNat + a.toNat * b.toNat / n.toNat := by
  rw [checkedMul_of_lt h, Option.bind_some, checkedAdd_eq_some, BitVec.toNat_udiv, BitVec.toNat_mul,
    Nat.mod_eq_of_lt h]

/-- The same number in a word of another width, where it fits. -/
def tryFrom {v : Nat} (w : Nat) (a : BitVec v) : Option (BitVec w) :=
  if a.toNat < 2 ^ w then some (a.setWidth w) else none

theorem tryFrom_eq_some {v w : Nat} {a : BitVec v} {b : BitVec w} : tryFrom w a = some b ↔ b.toNat = a.toNat := by
  have hb := b.isLt
  unfold tryFrom
  split
  · rename_i h
    rw [Option.some.injEq, ← BitVec.toNat_inj, BitVec.toNat_setWidth, Nat.mod_eq_of_lt h]
    exact eq_comm
  · simp only [reduceCtorEq, false_iff]
    omega

/-! ### Masks of low bits -/

theorem toNat_and_low {w : Nat} (a : BitVec w) {k : Nat} (hk : k < w) :
    (a &&& BitVec.ofNat w (2 ^ k - 1)).toNat = a.toNat % 2 ^ k := by
  have hlt : 2 ^ k - 1 < 2 ^ w := Nat.lt_of_le_of_lt (Nat.sub_le _ _) (Nat.pow_lt_pow_right (by decide) hk)
  rw [BitVec.toNat_and, BitVec.toNat_ofNat, Nat.mod_eq_of_lt hlt, Nat.and_two_pow_sub_one_eq_mod]

theorem toNat_and_not_low {w : Nat} (a : BitVec w) (k : Nat) :
    (a &&& ~~~(BitVec.ofNat w (2 ^ k - 1))).toNat = a.toNat / 2 ^ k * 2 ^ k := by
  have hshift : a &&& ~~~(BitVec.ofNat w (2 ^ k - 1)) = a >>> k <<< k := by
    apply BitVec.eq_of_getLsbD_eq
    intro i hi
    rw [BitVec.getLsbD_and, BitVec.getLsbD_not, BitVec.getLsbD_ofNat, Nat.testBit_two_pow_sub_one,
      BitVec.getLsbD_shiftLeft, BitVec.getLsbD_ushiftRight]
    rcases Nat.lt_or_ge i k with h | h
    · simp [h, hi]
    · simp [Nat.not_lt.mpr h, Nat.add_sub_cancel' h, hi]
  have hle : a.toNat / 2 ^ k * 2 ^ k < 2 ^ w := Nat.lt_of_le_of_lt (Nat.div_mul_le_self _ _) a.isLt
  rw [hshift, BitVec.toNat_shiftLeft, BitVec.toNat_ushiftRight, Nat.shiftRight_eq_div_pow, Nat.shiftLeft_eq,
    Nat.mod_eq_of_lt hle]

end Word
