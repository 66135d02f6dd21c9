import Mathlib.Logic.Function.Basic
import X11Os.Lib.Word

/-!
# A byte-addressed 64-bit machine

General-purpose registers, little-endian byte memory with wrapping addresses, and the instructions of straight-line
code that moves words between registers, memory and the stack.  The instruction pointer is the target of the last
control transfer; the instructions between two transfers are given as a list.

A word or a block of words occupies a range of addresses, `Within a n`.  Writes are described by what they make
readable at their own range (`read64_write64`, `read64_writeWords`) and by the addresses they leave alone
(`write64_of_not_within`, `writeWords_of_not_within`).
-/

namespace Amd64

open Word

inductive Reg where
  | rax | rbx | rcx | rdx | rsi | rdi | rbp | rsp
  | r8 | r9 | r10 | r11 | r12 | r13 | r14 | r15
deriving DecidableEq, Repr

abbrev Memory := U64 → U8

/-! ### Ranges of addresses -/

/-- The address `x` is one of the `n` addresses from `a` on. -/
def Within (a : U64) (n : Nat) (x : U64) : Prop := (x - a).toNat < n

instance (a : U64) (n : Nat) (x : U64) : Decidable (Within a n x) := inferInstanceAs (Decidable (_ < _))

/-- The two ranges share no address. -/
def Apart (a : U64) (n : Nat) (b : U64) (k : Nat) : Prop := ∀ x, Within a n x → ¬ Within b k x

/-- A range that ends before the other begins, the other not wrapping around. -/
theorem apart_of_le {a b : U64} {n k : Nat} (h : a.toNat + n ≤ b.toNat) (hwrap : b.toNat + k ≤ 2 ^ 64) :
    Apart a n b k := by
  intro x hx hx'
  unfold Within at *
  have hxlt := x.isLt
  have ha := a.isLt
  simp only [BitVec.toNat_sub] at hx hx'
  omega

/-- A word that starts inside a block and ends inside it lies in the block. -/
theorem within_of_offset {a i x : U64} {n : Nat} (hi : i.toNat + 8 ≤ n) (hx : Within (a + i) 8 x) : Within a n x := by
  unfold Within at *
  have ha := a.isLt
  have hilt := i.isLt
  have hxlt := x.isLt
  simp only [BitVec.toNat_sub, BitVec.toNat_add] at hx ⊢
  omega

/-! ### Words in memory -/

def read64 (m : Memory) (a : U64) : U64 :=
  m (a + 7) ++ m (a + 6) ++ m (a + 5) ++ m (a + 4) ++ m (a + 3) ++ m (a + 2) ++ m (a + 1) ++ m a

def write64 (m : Memory) (a v : U64) : Memory := fun x =>
  if Within a 8 x then v.extractLsb' (8 * (x - a).toNat) 8 else m x

theorem write64_of_not_within {m : Memory} {a v x : U64} (h : ¬ Within a 8 x) : write64 m a v x = m x :=
  if_neg h

theorem within_add {a i : U64} {n : Nat} : Within a n (a + i) ↔ i.toNat < n := by
  unfold Within
  rw [BitVec.add_comm, BitVec.add_sub_cancel]

/-- A word is its eight bytes. -/
theorem read64_eq {m m' : Memory} {a b : U64} (h : ∀ i : U64, i.toNat < 8 → m (a + i) = m' (b + i)) :
    read64 m a = read64 m' b := by
  have hfirst : m a = m' b := by simpa using h 0 (by decide)
  unfold read64
  rw [h 7 (by decide), h 6 (by decide), h 5 (by decide), h 4 (by decide), h 3 (by decide), h 2 (by decide),
    h 1 (by decide), hfirst]

theorem read64_congr {m m' : Memory} {a : U64} (h : ∀ x, Within a 8 x → m x = m' x) : read64 m a = read64 m' a :=
  read64_eq fun _ hi => h _ (within_add.mpr hi)

theorem read64_write64 (m : Memory) (a v : U64) : read64 (write64 m a v) a = v := by
  have hbyte : ∀ i : U64, i.toNat < 8 → write64 m a v (a + i) = v.extractLsb' (8 * i.toNat) 8 := by
    intro i hi
    have hofs : a + i - a = i := by rw [BitVec.add_comm, BitVec.add_sub_cancel]
    rw [write64, if_pos (within_add.mpr hi), hofs]
  have hfirst : write64 m a v a = v.extractLsb' 0 8 := by simpa using hbyte 0 (by decide)
  have hjoin : ∀ start n : Nat, v.extractLsb' (start + 8) n ++ v.extractLsb' start 8 = v.extractLsb' start (n + 8) :=
    fun start n => BitVec.extractLsb'_append_extractLsb'_eq_extractLsb' rfl
  have hall : (v.extractLsb' 56 8 ++ v.extractLsb' 48 8 ++ v.extractLsb' 40 8 ++ v.extractLsb' 32 8 ++
      v.extractLsb' 24 8 ++ v.extractLsb' 16 8 ++ v.extractLsb' 8 8 ++ v.extractLsb' 0 8 : U64) = v := by
    rw [hjoin 48 8, hjoin 40, hjoin 32, hjoin 24, hjoin 16, hjoin 8, hjoin 0]
    exact BitVec.extractLsb'_eq_self
  unfold read64
  rw [hbyte 7 (by decide), hbyte 6 (by decide), hbyte 5 (by decide), hbyte 4 (by decide), hbyte 3 (by decide),
    hbyte 2 (by decide), hbyte 1 (by decide), hfirst]
  exact hall

/-! ### Blocks of words -/

/-- Word `i` of the list goes to address `a + 8 * i`. -/
def writeWords (m : Memory) (a : U64) : List U64 → Memory
  | [] => m
  | v :: vs => writeWords (write64 m a v) (a + 8) vs

private theorem add_word (a : U64) (i : Nat) :
    a + BitVec.ofNat 64 (8 * (i + 1)) = a + 8 + BitVec.ofNat 64 (8 * i) := by
  have : BitVec.ofNat 64 (8 * (i + 1)) = 8 + BitVec.ofNat 64 (8 * i) := by
    apply BitVec.eq_of_toNat_eq
    simp only [BitVec.toNat_ofNat, BitVec.toNat_add, show (8 : U64).toNat = 8 from rfl]
    omega
  rw [this, BitVec.add_assoc]

theorem writeWords_of_not_within {m : Memory} {a x : U64} {vs : List U64} (hn : 8 * vs.length ≤ 2 ^ 64)
    (h : ¬ Within a (8 * vs.length) x) : writeWords m a vs x = m x := by
  induction vs generalizing m a with
  | nil => rfl
  | cons v vs ih =>
    rw [List.length_cons] at h hn
    have hhead : ¬ Within a 8 x := fun hx => h (Nat.lt_of_lt_of_le hx (by omega))
    have htail : ¬ Within (a + 8) (8 * vs.length) x := by
      unfold Within at *
      have ha := a.isLt
      have hx := x.isLt
      simp only [BitVec.toNat_sub, BitVec.toNat_add, show (8 : U64).toNat = 8 from rfl] at h hhead ⊢
      omega
    rw [writeWords, ih (by omega) htail, write64_of_not_within hhead]

theorem read64_writeWords {m : Memory} {a : U64} {vs : List U64} (hn : 8 * vs.length ≤ 2 ^ 64) {i : Nat}
    (hi : i < vs.length) : read64 (writeWords m a vs) (a + BitVec.ofNat 64 (8 * i)) = vs[i] := by
  induction vs generalizing m a i with
  | nil => cases hi
  | cons v vs ih =>
    rw [List.length_cons] at hn hi
    cases i with
    | zero =>
      have hkeep : ∀ x, Within a 8 x → writeWords (write64 m a v) (a + 8) vs x = write64 m a v x := by
        intro x hx
        refine writeWords_of_not_within (by omega) ?_
        unfold Within at *
        have ha := a.isLt
        have hxlt := x.isLt
        simp only [BitVec.toNat_sub, BitVec.toNat_add, show (8 : U64).toNat = 8 from rfl] at hx ⊢
        omega
      have hzero : a + BitVec.ofNat 64 (8 * 0) = a := by simp
      rw [hzero, writeWords, read64_congr hkeep, read64_write64, List.getElem_cons_zero]
    | succ i =>
      rw [add_word, writeWords, ih (by omega) (by omega), List.getElem_cons_succ]

theorem writeWords_concat (m : Memory) (a : U64) (vs : List U64) (v : U64) :
    writeWords m a (vs ++ [v]) = write64 (writeWords m a vs) (a + BitVec.ofNat 64 (8 * vs.length)) v := by
  induction vs generalizing m a with
  | nil => simp [writeWords]
  | cons w vs ih => rw [List.cons_append, writeWords, writeWords, ih, List.length_cons, add_word]

/-! ### Instructions -/

structure Machine where
  reg : Reg → U64
  mem : Memory
  /-- Where the last control transfer went. -/
  rip : U64

inductive Instr where
  /-- `mov [base + disp], src` -/
  | store (base : Reg) (disp : U64) (src : Reg)
  /-- `mov dst, [base + disp]` -/
  | load (dst base : Reg) (disp : U64)
  /-- `push qword ptr [base + disp]` -/
  | pushMem (base : Reg) (disp : U64)
  | ret
  | mov (dst src : Reg)
  | push (src : Reg)
  /-- `and dst, imm` -/
  | and (dst : Reg) (imm : U64)
  /-- `sub dst, imm` -/
  | sub (dst : Reg) (imm : U64)
  /-- `lea dst, [base + disp]` -/
  | lea (dst base : Reg) (disp : U64)
deriving DecidableEq, Repr

namespace Machine

def setReg (s : Machine) (r : Reg) (v : U64) : Machine := { s with reg := Function.update s.reg r v }

def push (s : Machine) (v : U64) : Machine :=
  { s.setReg .rsp (s.reg .rsp - 8) with mem := write64 s.mem (s.reg .rsp - 8) v }

def exec (s : Machine) : Instr → Machine
  | .store base disp src => { s with mem := write64 s.mem (s.reg base + disp) (s.reg src) }
  | .load dst base disp => s.setReg dst (read64 s.mem (s.reg base + disp))
  | .pushMem base disp => s.push (read64 s.mem (s.reg base + disp))
  | .ret => { s.setReg .rsp (s.reg .rsp + 8) with rip := read64 s.mem (s.reg .rsp) }
  | .mov dst src => s.setReg dst (s.reg src)
  | .push src => s.push (s.reg src)
  | .and dst imm => s.setReg dst (s.reg dst &&& imm)
  | .sub dst imm => s.setReg dst (s.reg dst - imm)
  | .lea dst base disp => s.setReg dst (s.reg base + disp)

def execAll (s : Machine) (code : List Instr) : Machine := code.foldl exec s

/-- `call target`, where `ra` is the address of the instruction after the call. -/
def call (s : Machine) (target ra : U64) : Machine := { s.push ra with rip := target }

theorem execAll_append (s : Machine) (code code' : List Instr) :
    s.execAll (code ++ code') = (s.execAll code).execAll code' :=
  List.foldl_append

/-- Stores the registers at consecutive words from word `k` of the block at `base` on. -/
def saveRegs (base : Reg) (k : Nat) : List Reg → List Instr
  | [] => []
  | r :: rs => .store base (BitVec.ofNat 64 (8 * k)) r :: saveRegs base (k + 1) rs

/-- Loads the registers from consecutive words from word `k` of the block at `base` on. -/
def loadRegs (base : Reg) (k : Nat) : List Reg → List Instr
  | [] => []
  | r :: rs => .load r base (BitVec.ofNat 64 (8 * k)) :: loadRegs base (k + 1) rs

theorem execAll_saveRegs (s : Machine) (base : Reg) (k : Nat) (rs : List Reg) :
    s.execAll (saveRegs base k rs) =
      { s with mem := writeWords s.mem (s.reg base + BitVec.ofNat 64 (8 * k)) (rs.map s.reg) } := by
  induction rs generalizing s k with
  | nil => rfl
  | cons r rs ih =>
    have hword : s.reg base + BitVec.ofNat 64 (8 * (k + 1)) = s.reg base + BitVec.ofNat 64 (8 * k) + 8 := by
      rw [add_word, BitVec.add_assoc, BitVec.add_assoc, BitVec.add_comm 8]
    show Machine.execAll (s.exec _) (saveRegs base (k + 1) rs) = _
    rw [ih]
    simp only [exec, List.map_cons, writeWords, hword]

theorem execAll_loadRegs (s : Machine) {base : Reg} (k : Nat) {rs : List Reg} (hbase : base ∉ rs) (hnd : rs.Nodup) :
    (s.execAll (loadRegs base k rs)).mem = s.mem ∧ (s.execAll (loadRegs base k rs)).rip = s.rip ∧
    (∀ r, r ∉ rs → (s.execAll (loadRegs base k rs)).reg r = s.reg r) ∧
    ∀ i (hi : i < rs.length), (s.execAll (loadRegs base k rs)).reg rs[i] =
      read64 s.mem (s.reg base + BitVec.ofNat 64 (8 * (k + i))) := by
  induction rs generalizing s k with
  | nil => exact ⟨rfl, rfl, fun r _ => rfl, fun i hi => by cases hi⟩
  | cons r rs ih =>
    rw [List.mem_cons, not_or] at hbase
    rw [List.nodup_cons] at hnd
    have hload : ∀ q, q ≠ r → (s.exec (.load r base (BitVec.ofNat 64 (8 * k)))).reg q = s.reg q :=
      fun q hq => Function.update_of_ne hq _ _
    obtain ⟨hmem, hrip, hkeep, hget⟩ := ih (s.exec (.load r base (BitVec.ofNat 64 (8 * k)))) (k + 1) hbase.2 hnd.2
    refine ⟨hmem, hrip, fun q hq => ?_, fun i hi => ?_⟩
    · rw [List.mem_cons, not_or] at hq
      exact (hkeep q hq.2).trans (hload q hq.1)
    · cases i with
      | zero =>
        refine (hkeep r hnd.1).trans ?_
        simp [exec, setReg]
      | succ i =>
        refine (hget i (by simpa using hi)).trans ?_
        rw [hload base hbase.1, Nat.add_right_comm, Nat.add_assoc k i 1]
        rfl

/-- Copies words of the block at `base` to consecutive words from word `k` of the block at `dst` on, by way of a
register. -/
def copyWords (base dst tmp : Reg) (k : Nat) : List U64 → List Instr
  | [] => []
  | d :: ds => .load tmp base d :: .store dst (BitVec.ofNat 64 (8 * k)) tmp :: copyWords base dst tmp (k + 1) ds

/-- The words that are copied are those from before the copy, if the copy does not reach them. -/
theorem execAll_copyWords (s : Machine) {base dst tmp : Reg} (hbase : base ≠ tmp) (hdst : dst ≠ tmp) (k : Nat)
    {ds : List U64} (hn : 8 * ds.length ≤ 2 ^ 64)
    (hapart : ∀ d ∈ ds, Apart (s.reg base + d) 8 (s.reg dst + BitVec.ofNat 64 (8 * k)) (8 * ds.length)) :
    (s.execAll (copyWords base dst tmp k ds)).mem =
        writeWords s.mem (s.reg dst + BitVec.ofNat 64 (8 * k)) (ds.map fun d => read64 s.mem (s.reg base + d)) ∧
      ∀ r, r ≠ tmp → (s.execAll (copyWords base dst tmp k ds)).reg r = s.reg r := by
  induction ds generalizing s k with
  | nil => exact ⟨rfl, fun _ _ => rfl⟩
  | cons d ds ih =>
    have hcode : s.execAll (copyWords base dst tmp k (d :: ds)) =
        ((s.exec (.load tmp base d)).exec (.store dst (BitVec.ofNat 64 (8 * k)) tmp)).execAll
          (copyWords base dst tmp (k + 1) ds) := rfl
    have hregs : ∀ r, r ≠ tmp →
        ((s.exec (.load tmp base d)).exec (.store dst (BitVec.ofNat 64 (8 * k)) tmp)).reg r = s.reg r :=
      fun r hr => Function.update_of_ne hr _ _
    have hmem : ((s.exec (.load tmp base d)).exec (.store dst (BitVec.ofNat 64 (8 * k)) tmp)).mem =
        write64 s.mem (s.reg dst + BitVec.ofNat 64 (8 * k)) (read64 s.mem (s.reg base + d)) := by
      simp [exec, setReg, Function.update_of_ne hdst]
    have hword : s.reg dst + BitVec.ofNat 64 (8 * (k + 1)) = s.reg dst + BitVec.ofNat 64 (8 * k) + 8 := by
      rw [add_word, BitVec.add_assoc, BitVec.add_assoc, BitVec.add_comm 8]
    rw [hcode]
    generalize (s.exec (.load tmp base d)).exec (.store dst (BitVec.ofNat 64 (8 * k)) tmp) = s₁ at *
    rw [List.length_cons] at hn
    rw [List.length_cons, List.forall_mem_cons] at hapart
    generalize s.reg dst + BitVec.ofNat 64 (8 * k) = a at *
    have hkeep : ∀ d' ∈ ds, read64 s₁.mem (s₁.reg base + d') = read64 s.mem (s.reg base + d') := by
      intro d' hd'
      rw [hregs base hbase, hmem]
      refine read64_congr fun x hx => write64_of_not_within fun hx' => hapart.2 d' hd' x hx ?_
      exact Nat.lt_of_lt_of_le hx' (by omega)
    have hrest : ∀ d' ∈ ds,
      Apart (s₁.reg base + d') 8 (s₁.reg dst + BitVec.ofNat 64 (8 * (k + 1))) (8 * ds.length) := by
      intro d' hd' x hx hx'
      rw [hregs base hbase] at hx
      rw [hregs dst hdst, hword] at hx'
      refine hapart.2 d' hd' x hx ?_
      unfold Within at *
      have ha := a.isLt
      have hxlt := x.isLt
      simp only [BitVec.toNat_sub, BitVec.toNat_add, show (8 : U64).toNat = 8 from rfl] at hx' ⊢
      omega
    obtain ⟨hmem₁, hregs₁⟩ := ih s₁ (k + 1) (by omega) hrest
    refine ⟨?_, fun r hr => (hregs₁ r hr).trans (hregs r hr)⟩
    rw [hmem₁, hregs dst hdst, hword, List.map_congr_left hkeep, hmem]
    rfl

/-- A push followed by a return: control goes to the pushed address, the stack pointer is where it was, and the word
below it holds the address. -/
theorem exec_ret_push (s : Machine) (v : U64) :
    (s.push v).exec .ret =
      { reg := s.reg, mem := write64 s.mem (s.reg .rsp - 8) v, rip := v } := by
  have hrsp : (s.push v).reg .rsp = s.reg .rsp - 8 := by simp [push, setReg]
  have hmem : (s.push v).mem = write64 s.mem (s.reg .rsp - 8) v := rfl
  have hreg : ((s.push v).setReg .rsp (s.reg .rsp - 8 + 8)).reg = s.reg := by
    show Function.update (Function.update s.reg .rsp _) .rsp _ = s.reg
    rw [Function.update_idem, BitVec.sub_add_cancel, Function.update_eq_self]
  show Machine.mk ((s.push v).setReg .rsp ((s.push v).reg .rsp + 8)).reg (s.push v).mem
    (read64 (s.push v).mem ((s.push v).reg .rsp)) = _
  rw [hrsp, hmem, hreg, read64_write64]

end Machine

end Amd64
