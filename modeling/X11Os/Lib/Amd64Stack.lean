import X11Os.Lib.Amd64

/-!
# Words on the stack

`Pushed vs s s'` says that `s'` has the words `vs` on top of the stack of `s`, the first one on top, and that
memory is the same everywhere else.  Pushing adds a word at the front, whatever else the code between two pushes
does to the registers.
-/

namespace Amd64

open Word

/-- Copies words of the block at `base` to the stack, by way of a register. -/
def Machine.pushWords (base tmp : Reg) : List U64 → List Instr
  | [] => []
  | d :: ds => .load tmp base d :: .push tmp :: pushWords base tmp ds

/-- One copied word. -/
private theorem Machine.exec_load_push (s : Machine) (base : Reg) {tmp : Reg} (htmp : tmp ≠ .rsp) (d : U64) :
    ((s.exec (.load tmp base d)).exec (.push tmp)).reg .rsp = s.reg .rsp - 8 ∧
      ((s.exec (.load tmp base d)).exec (.push tmp)).mem =
        write64 s.mem (s.reg .rsp - 8) (read64 s.mem (s.reg base + d)) ∧
      ∀ r, r ≠ .rsp → r ≠ tmp → ((s.exec (.load tmp base d)).exec (.push tmp)).reg r = s.reg r := by
  refine ⟨?_, ?_, fun r hr hr' => ?_⟩
  · simp [Machine.exec, Machine.push, Machine.setReg, Function.update_of_ne (Ne.symm htmp)]
  · simp [Machine.exec, Machine.push, Machine.setReg, Function.update_of_ne (Ne.symm htmp)]
  · simp [Machine.exec, Machine.push, Machine.setReg, Function.update_of_ne hr, Function.update_of_ne hr']

structure Pushed (vs : List U64) (s s' : Machine) : Prop where
  rsp : s'.reg .rsp = s.reg .rsp - BitVec.ofNat 64 (8 * vs.length)
  words : ∀ i (hi : i < vs.length), read64 s'.mem (s'.reg .rsp + BitVec.ofNat 64 (8 * i)) = vs[i]
  outside : ∀ x, ¬ Within (s'.reg .rsp) (8 * vs.length) x → s'.mem x = s.mem x

namespace Pushed

variable {vs : List U64} {s s' : Machine}

theorem nil (s : Machine) : Pushed [] s s where
  rsp := (BitVec.sub_zero _).symm
  words i hi := absurd hi (Nat.not_lt_zero i)
  outside _ _ := rfl

/-- Only the stack pointer and the memory matter. -/
private theorem congr {s'' : Machine} (h : Pushed vs s s') (hrsp : s''.reg .rsp = s'.reg .rsp)
    (hmem : s''.mem = s'.mem) :
    Pushed vs s s'' where
  rsp := hrsp.trans h.rsp
  words i hi := by
    rw [hrsp, hmem]
    exact h.words i hi
  outside x hx := by
    rw [hrsp] at hx
    rw [hmem]
    exact h.outside x hx

theorem push (h : Pushed vs s s') (hn : 8 * (vs.length + 1) < 2 ^ 64) (v : U64) : Pushed (v :: vs) s (s'.push v) := by
  have hrsp : (s'.push v).reg .rsp = s'.reg .rsp - 8 := by simp [Machine.push, Machine.setReg]
  have hmem : (s'.push v).mem = write64 s'.mem (s'.reg .rsp - 8) v := rfl
  have height : (8 : U64).toNat = 8 := rfl
  have hlt := (s'.reg .rsp).isLt
  refine ⟨?_, fun i hi => ?_, fun x hx => ?_⟩
  · rw [hrsp, h.rsp, List.length_cons]
    apply BitVec.eq_of_toNat_eq
    simp only [BitVec.toNat_sub, BitVec.toNat_ofNat, height]
    omega
  · rw [hrsp, hmem]
    cases i with
    | zero =>
      rw [Nat.mul_zero, BitVec.add_zero, read64_write64]
      rfl
    | succ i =>
      rw [List.length_cons] at hi
      have hword : s'.reg .rsp - 8 + BitVec.ofNat 64 (8 * (i + 1)) = s'.reg .rsp + BitVec.ofNat 64 (8 * i) := by
        apply BitVec.eq_of_toNat_eq
        simp only [BitVec.toNat_add, BitVec.toNat_sub, BitVec.toNat_ofNat, height]
        omega
      rw [hword, List.getElem_cons_succ, ← h.words i (by omega)]
      refine read64_congr fun x hx => write64_of_not_within fun hx' => ?_
      have hxlt := x.isLt
      simp only [Within, BitVec.toNat_add, BitVec.toNat_sub, BitVec.toNat_ofNat, height] at hx hx'
      omega
  · rw [hrsp, List.length_cons] at hx
    have hxlt := x.isLt
    have hold : ¬ Within (s'.reg .rsp) (8 * vs.length) x := by
      simp only [Within, BitVec.toNat_sub, height] at hx ⊢
      omega
    have hnew : ¬ Within (s'.reg .rsp - 8) 8 x := by
      simp only [Within, BitVec.toNat_sub, height] at hx ⊢
      omega
    rw [hmem, write64_of_not_within hnew, h.outside x hold]

/-- A sequence of register pushes. -/
theorem pushRegs (h : Pushed vs s s') (rs : List Reg) (hrs : Reg.rsp ∉ rs)
    (hn : 8 * (rs.length + vs.length) < 2 ^ 64) :
    Pushed ((rs.map s'.reg).reverse ++ vs) s (s'.execAll (rs.map .push)) ∧
      (∀ r, r ≠ .rsp → (s'.execAll (rs.map .push)).reg r = s'.reg r) := by
  induction rs generalizing vs s' with
  | nil => exact ⟨h, fun _ _ => rfl⟩
  | cons r rs ih =>
    rw [List.mem_cons, not_or] at hrs
    rw [List.length_cons] at hn
    have hkeep : ∀ q, q ≠ Reg.rsp → (s'.push (s'.reg r)).reg q = s'.reg q := fun q hq => Function.update_of_ne hq _ _
    obtain ⟨hpushed, hregs⟩ := ih (h.push (by omega) (s'.reg r)) hrs.2 (by rw [List.length_cons]; omega)
    have hmap : rs.map (s'.push (s'.reg r)).reg = rs.map s'.reg :=
      List.map_congr_left fun q hq => hkeep q fun heq => hrs.2 (heq ▸ hq)
    rw [hmap] at hpushed
    refine ⟨?_, fun q hq => (hregs q hq).trans (hkeep q hq)⟩
    rw [List.map_cons, List.reverse_cons, List.append_assoc]
    exact hpushed

/-- The words that are copied are those from before the copy, if the copy does not reach them. -/
theorem pushWords (h : Pushed vs s s') {base tmp : Reg} (hbase : base ≠ tmp) (hbaseRsp : base ≠ .rsp)
    (htmp : tmp ≠ .rsp) (ds : List U64) (hn : 8 * (ds.length + vs.length) < 2 ^ 64)
    (hapart : ∀ d ∈ ds, Apart (s'.reg base + d) 8 (s'.reg .rsp - BitVec.ofNat 64 (8 * ds.length)) (8 * ds.length)) :
    Pushed ((ds.map fun d => read64 s'.mem (s'.reg base + d)).reverse ++ vs) s
        (s'.execAll (Machine.pushWords base tmp ds)) ∧
      (∀ r, r ≠ .rsp → r ≠ tmp → (s'.execAll (Machine.pushWords base tmp ds)).reg r = s'.reg r) := by
  induction ds generalizing vs s' with
  | nil => exact ⟨h, fun _ _ _ => rfl⟩
  | cons d ds ih =>
    rw [List.length_cons] at hn
    have height : (8 : U64).toNat = 8 := rfl
    have hcode : s'.execAll (Machine.pushWords base tmp (d :: ds)) =
        ((s'.exec (.load tmp base d)).exec (.push tmp)).execAll (Machine.pushWords base tmp ds) := rfl
    rw [hcode]
    obtain ⟨hrsp, hmem, hregs⟩ := s'.exec_load_push base htmp d
    have hpush : Pushed (read64 s'.mem (s'.reg base + d) :: vs) s ((s'.exec (.load tmp base d)).exec (.push tmp)) :=
      (h.push (by omega) _).congr (by rw [hrsp]; simp [Machine.push, Machine.setReg]) hmem
    generalize (s'.exec (.load tmp base d)).exec (.push tmp) = s₁ at *
    have hbelow : s₁.reg .rsp - BitVec.ofNat 64 (8 * ds.length) =
        s'.reg .rsp - BitVec.ofNat 64 (8 * (ds.length + 1)) := by
      rw [hrsp]
      apply BitVec.eq_of_toNat_eq
      simp only [BitVec.toNat_sub, BitVec.toNat_ofNat, height]
      omega
    have hbaseReg := hregs base hbaseRsp hbase
    rw [List.length_cons, List.forall_mem_cons] at hapart
    have hword : ∀ d' ∈ ds, read64 s₁.mem (s₁.reg base + d') = read64 s'.mem (s'.reg base + d') := by
      intro d' hd'
      rw [hbaseReg, hmem]
      refine read64_congr fun x hx => write64_of_not_within fun hx' => hapart.2 d' hd' x hx ?_
      have hlt := (s'.reg .rsp).isLt
      have hxlt := x.isLt
      simp only [Within, BitVec.toNat_sub, BitVec.toNat_ofNat, height] at hx' ⊢
      omega
    have hrest : ∀ d' ∈ ds, Apart (s₁.reg base + d') 8 (s₁.reg .rsp - BitVec.ofNat 64 (8 * ds.length))
        (8 * ds.length) := by
      intro d' hd' x hx hx'
      rw [hbaseReg] at hx
      rw [hbelow] at hx'
      exact hapart.2 d' hd' x hx (Nat.lt_of_lt_of_le hx' (by omega))
    obtain ⟨hpushed, hkeep⟩ := ih hpush (by rw [List.length_cons]; omega) hrest
    rw [List.map_congr_left hword] at hpushed
    refine ⟨?_, fun r hr hr' => (hkeep r hr hr').trans (hregs r hr hr')⟩
    rw [List.map_cons, List.reverse_cons, List.append_assoc]
    exact hpushed

end Pushed

end Amd64
