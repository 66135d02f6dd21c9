import X11Os.Lib.Panics
import X11Os.Lib.Word

/-!
# Byte strings and sizes

Sizes and offsets (`usize`) are natural numbers below `2 ^ 64`; the checked operations report an overflow, the plain
ones panic on it.  A byte string is shorter than `2 ^ 63`, as every slice of the source language is.
-/

open Word

namespace Usize

def checkedAdd (a b : Nat) : Option Nat := if a + b < 2 ^ 64 then some (a + b) else none

def checkedMul (a b : Nat) : Option Nat := if a * b < 2 ^ 64 then some (a * b) else none

def add (a b : Nat) : Panics Nat := if a + b < 2 ^ 64 then .returned (a + b) else .panicked

def mul (a b : Nat) : Panics Nat := if a * b < 2 ^ 64 then .returned (a * b) else .panicked

variable {a b c : Nat}

theorem add_of_lt (h : a + b < 2 ^ 64) : add a b = .returned (a + b) := if_pos h

theorem mul_of_lt (h : a * b < 2 ^ 64) : mul a b = .returned (a * b) := if_pos h

theorem checkedAdd_eq_some : checkedAdd a b = some c ↔ a + b = c ∧ a + b < 2 ^ 64 := by
  rw [checkedAdd, Option.ite_none_right_eq_some, Option.some.injEq, and_comm]

theorem checkedAdd_eq_none : checkedAdd a b = none ↔ 2 ^ 64 ≤ a + b := by
  simp only [checkedAdd, ite_eq_right_iff, reduceCtorEq, imp_false, not_lt]

theorem checkedMul_eq_some : checkedMul a b = some c ↔ a * b = c ∧ a * b < 2 ^ 64 := by
  rw [checkedMul, Option.ite_none_right_eq_some, Option.some.injEq, and_comm]

theorem checkedMul_eq_none : checkedMul a b = none ↔ 2 ^ 64 ≤ a * b := by
  simp only [checkedMul, ite_eq_right_iff, reduceCtorEq, imp_false, not_lt]

end Usize

structure Bytes where
  toList : List U8
  length_lt : toList.length < 2 ^ 63

namespace Bytes

def len (bytes : Bytes) : Nat := bytes.toList.length

/-- `bytes[i]`. -/
def index (bytes : Bytes) (i : Nat) : Panics U8 :=
  match bytes.toList[i]? with
  | some b => .returned b
  | none => .panicked

/-- `bytes.get(start..stop)`. -/
def get (bytes : Bytes) (start stop : Nat) : Option (List U8) :=
  if start ≤ stop ∧ stop ≤ bytes.len then some ((bytes.toList.drop start).take (stop - start)) else none

/-- `bytes[start..stop]`. -/
def range (bytes : Bytes) (start stop : Nat) : Panics (List U8) :=
  match bytes.get start stop with
  | some l => .returned l
  | none => .panicked

private theorem length_take_drop_lt (bytes : Bytes) (start k : Nat) :
    ((bytes.toList.drop start).take k).length < 2 ^ 63 := by
  refine Nat.lt_of_le_of_lt ?_ bytes.length_lt
  rw [List.length_take, List.length_drop]
  omega

/-- `&bytes[start..stop]`. -/
def slice (bytes : Bytes) (start stop : Nat) : Panics Bytes :=
  if start ≤ stop ∧ stop ≤ bytes.len then
    .returned ⟨(bytes.toList.drop start).take (stop - start), bytes.length_take_drop_lt start (stop - start)⟩
  else .panicked

end Bytes

/-- The value of bytes in little-endian order. -/
def leValue : List U8 → Nat
  | [] => 0
  | b :: bs => b.toNat + 256 * leValue bs

/-- `from_le_bytes(bytes[start..stop].try_into().unwrap())`, for a word of `k` bytes. -/
def Bytes.fromLe (k : Nat) (bytes : Bytes) (start stop : Nat) : Panics (BitVec (8 * k)) :=
  (bytes.range start stop).bind fun l => if l.length = k then
    .returned (BitVec.ofNat (8 * k) (leValue l)) else .panicked

/-- The `k` bytes at an offset as a little-endian word. -/
def Bytes.readLe (k : Nat) (bytes : Bytes) (offset : Nat) : Option (BitVec (8 * k)) :=
  match Usize.checkedAdd offset k with
  | none => none
  | some stop => (bytes.get offset stop).map fun l => BitVec.ofNat (8 * k) (leValue l)

/-! ### Reading -/

/-- The number in the `k` bytes at an offset, in little-endian order. -/
def Bytes.leAt (k : Nat) (bytes : Bytes) (offset : Nat) : Nat := leValue ((bytes.toList.drop offset).take k)

/-- The `k` entries of a list at an offset, as a word. -/
def leWord (k : Nat) (l : List U8) (offset : Nat) : BitVec (8 * k) :=
  BitVec.ofNat (8 * k) (leValue ((l.drop offset).take k))

theorem leWord_take (l : List U8) {k n i : Nat} (h : i + k ≤ n) : leWord k (l.take n) i = leWord k l i := by
  rw [leWord, leWord, List.drop_take, List.take_take, Nat.min_eq_left (Nat.le_sub_of_add_le' h)]

theorem leWord_drop (l : List U8) (k start i : Nat) : leWord k (l.drop start) i = leWord k l (start + i) := by
  rw [leWord, leWord, List.drop_drop]

private theorem leValue_lt (l : List U8) : leValue l < 2 ^ (8 * l.length) := by
  induction l with
  | nil => decide
  | cons b bs ih =>
    have hb := b.isLt
    have hpow : 2 ^ (8 * (b :: bs).length) = 256 * 2 ^ (8 * bs.length) := by
      rw [List.length_cons, Nat.mul_add, Nat.pow_add, Nat.mul_comm]
    rw [leValue, hpow]
    omega

namespace Bytes

variable {bytes : Bytes} {k offset : Nat}

theorem get_of_le (h : offset + k ≤ bytes.len) :
    bytes.get offset (offset + k) = some ((bytes.toList.drop offset).take k) := by
  rw [get, if_pos ⟨Nat.le_add_right _ _, h⟩, Nat.add_sub_cancel_left]

/-- Inside the string, the word that is read has the value of its bytes. -/
theorem readLe_of_le (bytes : Bytes) (k offset : Nat) (h : offset + k ≤ bytes.len) :
    ∃ w : BitVec (8 * k), bytes.readLe k offset = some w ∧ w.toNat = bytes.leAt k offset := by
  have hlen : bytes.len < 2 ^ 63 := bytes.length_lt
  have hlt : bytes.leAt k offset < 2 ^ (8 * k) := by
    refine Nat.lt_of_lt_of_le (leValue_lt _) (Nat.pow_le_pow_right (by decide) ?_)
    exact Nat.mul_le_mul_left 8 (List.length_take_le _ _)
  refine ⟨BitVec.ofNat (8 * k) (bytes.leAt k offset), ?_, ?_⟩
  · rw [readLe, Usize.checkedAdd, if_pos (by omega)]
    simp only [get_of_le h, Option.map_some, leAt]
  · rw [BitVec.toNat_ofNat, Nat.mod_eq_of_lt hlt]

theorem get_eq_iff {i : Nat} (h : i < bytes.len) {b : U8} :
    bytes.toList.get ⟨i, h⟩ = b ↔ bytes.toList[i]? = some b := by
  rw [List.getElem?_eq_getElem h, Option.some.injEq]
  rfl

theorem index_of_lt {i : Nat} (h : i < bytes.len) : bytes.index i = .returned (bytes.toList.get ⟨i, h⟩) := by
  rw [index, List.getElem?_eq_getElem h]
  rfl

theorem range_of_le {start stop : Nat} (h : start ≤ stop) (h' : stop ≤ bytes.len) :
    bytes.range start stop = .returned ((bytes.toList.drop start).take (stop - start)) := by
  rw [range, get, if_pos ⟨h, h'⟩]

theorem slice_of_le {start stop : Nat} (h : start ≤ stop) (h' : stop ≤ bytes.len) :
    ∃ part, bytes.slice start stop = .returned part ∧ part.toList = (bytes.toList.drop start).take (stop - start) :=
  ⟨_, if_pos ⟨h, h'⟩, rfl⟩

theorem fromLe_of_le (bytes : Bytes) (k start : Nat) (h : start + k ≤ bytes.len) :
    bytes.fromLe k start (start + k) = .returned (leWord k bytes.toList start) := by
  have hlength : ((bytes.toList.drop start).take k).length = k := by
    rw [List.length_take, List.length_drop]
    exact Nat.min_eq_left (Nat.le_sub_of_add_le' h)
  rw [fromLe, range_of_le (Nat.le_add_right _ _) h, Nat.add_sub_cancel_left, Panics.bind_returned, if_pos hlength,
    leWord]

theorem index_eq_leWord (bytes : Bytes) (i : Nat) (h : i < bytes.len) :
    bytes.index i = .returned (leWord 1 bytes.toList i) := by
  have hfront : (bytes.toList.drop i).take 1 = [bytes.toList.get ⟨i, h⟩] := by
    rw [List.drop_eq_getElem_cons h]
    rfl
  rw [index_of_lt h, leWord, hfront]
  congr 1
  apply BitVec.eq_of_toNat_eq
  have hlt := (bytes.toList.get ⟨i, h⟩).isLt
  simp only [leValue, BitVec.toNat_ofNat]
  omega

end Bytes
