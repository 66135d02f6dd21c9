import X11Os.Lib.Panics
import X11Os.Serial.Port
import Mathlib.Data.Nat.Digits.Lemmas

/-!
# Numbers on the serial port

`write_usize` and `write_hex` fill a buffer from its end with the digits of a number, and write the part of the buffer
that they have filled.  A buffer of 20 or 16 bytes is large enough for every number, and what is written is the
numeral of the number, without leading zeros (`serial_numbers_read_back`).
-/

namespace X11Os

open Word

namespace Serial

/-! ### The two functions -/

/-- The loop of both functions; `low` is the last digit of a number and `next` the number without it. -/
def fillDigits (low : U64 → U8) (next : U64 → U64) : Nat → U64 → List U8 → Panics (List U8)
  | index, value, digits =>
    if value = 0 then .returned (digits.drop index)
    else
      match index with
      | 0 => .panicked
      | index + 1 => fillDigits low next index (next value) (digits.set index (low value))

def writeNumber (low : U64 → U8) (next : U64 → U64) (buffer : List U8) (value : U64) : Panics (List Call) :=
  if value = 0 then .returned [.writeByte 0x30]
  else (fillDigits low next buffer.length value buffer).bind fun digits => .returned (writeBytes digits)

def decimalDigit (n : Nat) : U8 := 0x30 + BitVec.ofNat 8 n

/-- The bytes of `0123456789abcdef`. -/
def hexDigits : List U8 :=
  [0x30, 0x31, 0x32, 0x33, 0x34, 0x35, 0x36, 0x37, 0x38, 0x39, 0x61, 0x62, 0x63, 0x64, 0x65, 0x66]

def hexDigit (n : Nat) : U8 := hexDigits.getD n 0

def writeUsize (value : U64) : Panics (List Call) :=
  writeNumber (fun value => decimalDigit (value % 10).toNat) (· / 10) (List.replicate 20 0) value

def writeHex (value : U64) : Panics (List Call) :=
  writeNumber (fun value => hexDigit (value &&& 0xf).toNat) (· >>> 4) (List.replicate 16 0x30) value

/-! ### Numerals -/

/-- The digits of a number, the first one first. -/
def numeral (base : Nat) (digit : Nat → U8) (n : Nat) : List U8 := (Nat.digits base n).reverse.map digit

/-- The number that a digit stands for, decimal or hexadecimal. -/
def digitValue (byte : U8) : Nat := if byte.toNat < 0x3a then byte.toNat - 0x30 else byte.toNat - 0x57

def readNumeral (base : Nat) (bytes : List U8) : Nat := Nat.ofDigits base (bytes.reverse.map digitValue)

section Base

variable {base : Nat} {digit : Nat → U8}

private theorem numeral_eq (hbase : 1 < base) {n : Nat} (hn : n ≠ 0) :
    numeral base digit n = numeral base digit (n / base) ++ [digit (n % base)] := by
  rw [numeral, numeral, Nat.digits_def' hbase (Nat.pos_of_ne_zero hn), List.reverse_cons, List.map_append]
  rfl

private theorem readNumeral_numeral (hbase : 1 < base) (hdigit : ∀ n, n < base → digitValue (digit n) = n) (n : Nat) :
    readNumeral base (numeral base digit n) = n := by
  have hvalues : ((Nat.digits base n).map digit).map digitValue = Nat.digits base n := by
    rw [List.map_map]
    conv_rhs => rw [← List.map_id (Nat.digits base n)]
    exact List.map_congr_left fun d hd => hdigit d (Nat.digits_lt_base hbase hd)
  rw [readNumeral, numeral, ← List.map_reverse, List.reverse_reverse, hvalues, Nat.ofDigits_digits]

private theorem head?_numeral (hbase : 1 < base) (hdigit : ∀ n, n < base → digitValue (digit n) = n) {n : Nat}
    (hn : n ≠ 0) {byte : U8} (h : (numeral base digit n).head? = some byte) : digitValue byte ≠ 0 := by
  have hnil : Nat.digits base n ≠ [] := Nat.digits_ne_nil_iff_ne_zero.mpr hn
  rw [numeral, List.head?_map, List.head?_reverse, List.getLast?_eq_some_getLast hnil] at h
  obtain rfl : digit ((Nat.digits base n).getLast hnil) = byte := Option.some.inj h
  rw [hdigit _ (Nat.digits_lt_base hbase (List.getLast_mem hnil))]
  exact Nat.getLast_digit_ne_zero base hn

/-- The loop writes the digits of a number for which there is room before what is in the buffer. -/
private theorem fillDigits_eq (hbase : 1 < base) {low : U64 → U8} {next : U64 → U64}
    (hlow : ∀ value, low value = digit (value.toNat % base))
    (hnext : ∀ value, (next value).toNat = value.toNat / base)
    {index : Nat} {value : U64} {digits : List U8} (hroom : value.toNat < base ^ index)
    (hindex : index ≤ digits.length) :
    fillDigits low next index value digits = .returned (numeral base digit value.toNat ++ digits.drop index) := by
  induction index generalizing value digits with
  | zero =>
    have hzero : value = 0 := BitVec.eq_of_toNat_eq (by simpa using hroom)
    subst hzero
    simp [fillDigits, numeral]
  | succ index ih =>
    unfold fillDigits
    by_cases hzero : value = 0
    · subst hzero
      simp [numeral]
    · have hne : value.toNat ≠ 0 := by
        intro h
        exact hzero (BitVec.eq_of_toNat_eq h)
      have hless : (next value).toNat < base ^ index := by
        rw [hnext]
        exact Nat.div_lt_of_lt_mul (by rw [← Nat.pow_succ']; exact hroom)
      have hdrop : (digits.set index (low value)).drop index = low value :: digits.drop (index + 1) := by
        rw [List.drop_eq_getElem_cons (by rw [List.length_set]; omega), List.getElem_set_self,
          List.drop_set_of_lt (by omega)]
      rw [if_neg hzero]
      dsimp only
      rw [ih hless (by rw [List.length_set]; omega), hdrop, hnext, numeral_eq hbase hne, hlow, List.append_assoc]
      rfl

/-- What is written of a number that fits in the buffer. -/
private theorem writeNumber_spec (hbase : 1 < base) (hdigit : ∀ n, n < base → digitValue (digit n) = n)
    (hzero : digit 0 = 0x30)
    {low : U64 → U8} {next : U64 → U64} (hlow : ∀ value, low value = digit (value.toNat % base))
    (hnext : ∀ value, (next value).toNat = value.toNat / base) {buffer : List U8} {value : U64}
    (hroom : value.toNat < base ^ buffer.length) :
    ∃ bytes, writeNumber low next buffer value = .returned (writeBytes bytes) ∧ bytes ≠ [] ∧
      readNumeral base bytes = value.toNat ∧ (bytes.head? = some 0x30 → value = 0) ∧ ∀ byte ∈ bytes, ∃ n, n < base ∧
      byte = digit n := by
  have hread : digitValue 0x30 = 0 := by decide
  by_cases hvalue : value = 0
  · subst hvalue
    refine ⟨[0x30], by simp [writeNumber, writeBytes], List.cons_ne_nil _ _, ?_, fun _ => rfl, fun byte hbyte => ?_⟩
    · show Nat.ofDigits base [digitValue 0x30] = 0
      rw [hread]
      simp
    · exact ⟨0, by omega, by rw [hzero]; exact List.mem_singleton.mp hbyte⟩
  · have hne : value.toNat ≠ 0 := fun h => hvalue (BitVec.eq_of_toNat_eq h)
    refine ⟨numeral base digit value.toNat, ?_, ?_, readNumeral_numeral hbase hdigit _, fun hhead => ?_,
      fun byte hbyte => ?_⟩
    · rw [writeNumber, if_neg hvalue, fillDigits_eq hbase hlow hnext hroom (Nat.le_refl _), List.drop_length,
        List.append_nil]
      rfl
    · rw [numeral_eq hbase hne]
      exact List.append_ne_nil_of_right_ne_nil _ (List.cons_ne_nil _ _)
    · exact absurd hread (head?_numeral hbase hdigit hne hhead)
    · obtain ⟨d, hd, rfl⟩ := List.mem_map.mp hbyte
      exact ⟨d, Nat.digits_lt_base hbase (List.mem_reverse.mp hd), rfl⟩

end Base

/-- Every number is written without a panic, in one or more decimal and hexadecimal digits that read back as the
number, and a zero comes first for zero only. -/
theorem serial_numbers_read_back (value : U64) : ∃ decimal hex,
    writeUsize value = .returned (writeBytes decimal) ∧ writeHex value = .returned (writeBytes hex) ∧
      decimal ≠ [] ∧ hex ≠ [] ∧ readNumeral 10 decimal = value.toNat ∧ readNumeral 16 hex = value.toNat ∧
      (decimal.head? = some 0x30 ∨ hex.head? = some 0x30 → value = 0) ∧
      (∀ byte ∈ decimal, ∃ n, n < 10 ∧ byte = decimalDigit n) ∧ ∀ byte ∈ hex, ∃ n, n < 16 ∧ byte = hexDigit n := by
  have hvalue := value.isLt
  have hdecimal : ∀ n, n < 10 → digitValue (decimalDigit n) = n := by decide
  have hhex : ∀ n, n < 16 → digitValue (hexDigit n) = n := by decide
  have hlow : ∀ value : U64, decimalDigit (value % 10).toNat = decimalDigit (value.toNat % 10) := by
    intro value
    rw [BitVec.toNat_umod]
    rfl
  have hnext : ∀ value : U64, (value / 10).toNat = value.toNat / 10 := by
    intro value
    rw [BitVec.toNat_udiv]
    rfl
  have hlow' : ∀ value : U64, hexDigit (value &&& 0xf).toNat = hexDigit (value.toNat % 16) := by
    intro value
    rw [BitVec.toNat_and]
    exact congrArg hexDigit (Nat.and_two_pow_sub_one_eq_mod value.toNat 4)
  have hnext' : ∀ value : U64, (value >>> 4).toNat = value.toNat / 16 := by
    intro value
    rw [BitVec.toNat_ushiftRight, Nat.shiftRight_eq_div_pow]
  have hroom : value.toNat < 10 ^ (List.replicate 20 (0 : U8)).length := by
    rw [List.length_replicate]
    omega
  have hroom' : value.toNat < 16 ^ (List.replicate 16 (0x30 : U8)).length := by
    rw [List.length_replicate]
    omega
  obtain ⟨decimal, hwrite, hne, hread, hhead, hdigits⟩ := writeNumber_spec (by decide) hdecimal rfl hlow hnext hroom
  obtain ⟨hex, hwrite', hne', hread', hhead', hdigits'⟩ := writeNumber_spec (by decide) hhex rfl hlow' hnext' hroom'
  exact ⟨decimal, hex, hwrite, hwrite', hne, hne', hread, hread', fun h => h.elim hhead hhead', hdigits, hdigits'⟩

end Serial

end X11Os
