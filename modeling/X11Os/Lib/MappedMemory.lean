import Mathlib.Data.BitVec
import Mathlib.Logic.Function.Basic
import X11Os.Lib.Lists

/-!
# Memory behind a translation

Loads and stores at addresses that a translation sends to places of a memory.  The translation may be read off the
memory itself, as that of a processor is, so that a store can change where the next one goes.

If what is written takes no part in the translation of the addresses that are used, a series of stores is a copy of
its bytes to the places behind them (`storeBytes_eq`).
-/

namespace MappedMemory

variable {w : Nat} {B : Type}

/-- The memory with a list of bytes from a place on. -/
def copyBytes (m : BitVec w → B) (destination : BitVec w) (bytes : List B) : BitVec w → B := fun x =>
  (bytes[(x - destination).toNat]?).getD (m x)

/-- The bytes are stored one after the other; there is no result if one of the addresses is not translated. -/
def storeBytes (translate : (BitVec w → B) → BitVec w → Option (BitVec w)) :
    BitVec w → List B → (BitVec w → B) → Option (BitVec w → B)
  | _, [], m => some m
  | v, b :: bytes, m => (translate m v).bind fun p => storeBytes translate (v + 1) bytes (Function.update m p b)

def loadBytes (translate : BitVec w → Option (BitVec w)) (m : BitVec w → B) (v : BitVec w) (n : Nat) :
    Option (List B) :=
  (List.range n).mapM fun i => (translate (v + BitVec.ofNat w i)).map m

/-! ### Copies -/

private theorem toNat_zero_sub_one : ((0 : BitVec w) - 1).toNat = 2 ^ w - 1 := by
  have hall : (-1 : BitVec w) = BitVec.allOnes w := BitVec.neg_one_eq_allOnes
  rw [zero_sub, hall, BitVec.toNat_allOnes]

private theorem toNat_eq_pred_add_one {d : BitVec w} (hd : d ≠ 0) : d.toNat = (d - 1).toNat + 1 := by
  have hlt := d.isLt
  have hpos : d.toNat ≠ 0 := fun hzero => hd (BitVec.eq_of_toNat_eq hzero)
  have hone : (1 : BitVec w).toNat = 1 := by
    show 1 % 2 ^ w = 1
    exact Nat.mod_eq_of_lt (by omega)
  rw [BitVec.toNat_sub, hone, show 2 ^ w - 1 + d.toNat = 2 ^ w + (d.toNat - 1) by omega, Nat.add_mod_left,
    Nat.mod_eq_of_lt (by omega)]
  omega

private theorem copyBytes_cons (m : BitVec w → B) (p : BitVec w) (b : B) {bytes : List B}
    (hfits : bytes.length < 2 ^ w) :
    copyBytes m p (b :: bytes) = copyBytes (Function.update m p b) (p + 1) bytes := by
  funext x
  rw [copyBytes, copyBytes, sub_add_eq_sub_sub]
  by_cases heq : x = p
  · have hfar : bytes.length ≤ ((0 : BitVec w) - 1).toNat := by
      rw [toNat_zero_sub_one]
      omega
    rw [heq, sub_self, List.getElem?_eq_none hfar, Function.update_self]
    rfl
  · rw [toNat_eq_pred_add_one (sub_ne_zero.mpr heq), List.getElem?_cons_succ, Function.update_of_ne heq]

/-! ### Stores and loads -/

/-- Stores to a window that takes no part in the translation of their addresses. -/
theorem storeBytes_eq {translate : (BitVec w → B) → BitVec w → Option (BitVec w)} {window : BitVec w → Prop}
    {m : BitVec w → B} {v p : BitVec w} {bytes : List B} (hfits : bytes.length ≤ 2 ^ w)
    (htranslate : ∀ m', (∀ x, ¬ window x → m' x = m x) → ∀ i < bytes.length,
      translate m' (v + BitVec.ofNat w i) = some (p + BitVec.ofNat w i))
    (hwindow : ∀ i < bytes.length, window (p + BitVec.ofNat w i)) :
    storeBytes translate v bytes m = some (copyBytes m p bytes) := by
  -- after a store the memory still agrees outside the window
  induction bytes generalizing v p m with
  | nil => rfl
  | cons b bytes ih =>
    rw [List.length_cons] at hfits htranslate hwindow
    have hnext : ∀ (a : BitVec w) (i : Nat), a + 1 + BitVec.ofNat w i = a + BitVec.ofNat w (i + 1) := by
      intro a i
      rw [Nat.add_comm i 1, BitVec.ofNat_add, BitVec.add_assoc]
      rfl
    have hfirst := htranslate m (fun _ _ => rfl) 0 (Nat.succ_pos _)
    have hhere := hwindow 0 (Nat.succ_pos _)
    rw [BitVec.add_zero, BitVec.add_zero] at hfirst
    rw [BitVec.add_zero] at hhere
    rw [storeBytes, hfirst, Option.bind_some, copyBytes_cons m p b (by omega)]
    refine ih (by omega) (fun m' hm' i hi => ?_) fun i hi => ?_
    · rw [hnext, hnext]
      refine htranslate m' (fun x hx => ?_) (i + 1) (by omega)
      rw [hm' x hx, Function.update_of_ne fun heq : x = p => hx (heq ▸ hhere)]
    · rw [hnext]
      exact hwindow (i + 1) (by omega)

theorem loadBytes_eq {translate : BitVec w → Option (BitVec w)} {m : BitVec w → B} {v p : BitVec w} {n : Nat}
    (h : ∀ i < n, translate (v + BitVec.ofNat w i) = some (p + BitVec.ofNat w i)) :
    loadBytes translate m v n = some ((List.range n).map fun i => m (p + BitVec.ofNat w i)) := by
  refine List.mapM_eq_some_map fun i hi => ?_
  rw [h i (List.mem_range.mp hi), Option.map_some]

end MappedMemory
