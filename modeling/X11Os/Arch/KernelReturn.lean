import X11Os.Arch.UserEntry

/-!
# Leaving kernel mode and coming back

A kernel task that is interrupted stays on its stack: the processor pushes a frame of three words, and `timer_entry`
pushes the registers below it.  `return_to_kernel` of `arch/x86_64/preempt_return.rs` builds the frame again, at the
place where it was, and loads the registers from the snapshot.  What the snapshot needs for that is the address behind
the frame; `capture` does not return if there is none (`captureAt_panics`), and otherwise the way back is exact
(`kernel_round_trip`).
-/

namespace X11Os

open Word Amd64

/-! ### The code -/

/-- The snapshot that the hook captures from its two arguments; at the entry the frame is on top of the stack. -/
def captureAt (s : Machine) (hook ra : U64) : Panics InterruptedState :=
  let entered := timerEntry s hook ra
  InterruptedState.capture entered.mem (entered.reg .rdi) (entered.reg .rsi)

/-- `return_to_kernel(state: rdi)` up to its `iretq`. -/
def returnToKernelCode : List Instr := [
  .mov .r11 .rdi,
  .load .r10 .r11 144,
  .sub .r10 24,
  .load .rax .r11 120,
  .store .r10 0 .rax,
  .load .rax .r11 128,
  .store .r10 8 .rax,
  .load .rax .r11 136,
  .store .r10 16 .rax,
  .mov .rsp .r10,
  .load .rax .r11 0,
  .load .rcx .r11 8,
  .load .rdx .r11 16,
  .load .rbx .r11 24,
  .load .rbp .r11 32,
  .load .rsi .r11 40,
  .load .rdi .r11 48,
  .load .r8 .r11 56,
  .load .r9 .r11 64,
  .load .r10 .r11 72,
  .load .r12 .r11 88,
  .load .r13 .r11 96,
  .load .r14 .r11 104,
  .load .r15 .r11 112,
  .load .r11 .r11 80]

/-- The machine before the `iretq` of `return_to_kernel`. -/
def returnToKernel (s : Machine) : Machine := s.execAll returnToKernelCode

/-! ### The snapshot -/

/-- A frame that `iretq` accepts for a return to kernel mode. -/
structure KernelFrame (m : Memory) (frame : U64) : Prop where
  rip : InterruptReturnFrame.rip m frame ≠ 0
  cs : InterruptReturnFrame.cs m frame &&& 3 = 0
  rflags : InterruptReturnFrame.rflags m frame &&& 2 ≠ 0

/-- What a snapshot of the kernel task holds. -/
structure InterruptedState.OfKernel (s : Machine) (state : InterruptedState) : Prop where
  registers : state.registers = SavedRegisters.live s
  rip : state.returnState.rip = InterruptReturnFrame.rip s.mem (s.reg .rsp)
  cs : state.returnState.cs = InterruptReturnFrame.cs s.mem (s.reg .rsp)
  rflags : state.returnState.rflags = InterruptReturnFrame.rflags s.mem (s.reg .rsp)
  resumeRsp : state.returnState.resumeRsp = s.reg .rsp + 24

section Capture

variable {s : Machine} {hook ra : U64}

/-- The hook reads the frame that was on the stack. -/
private theorem captureAt_eq (s : Machine) (hook ra : U64)
    (hcs : InterruptReturnFrame.cs s.mem (s.reg .rsp) &&& 3 = 0) :
    captureAt s hook ra =
      match checkedAdd (s.reg .rsp) 24 with
      | none => .panicked
      | some resumeRsp => .returned ⟨SavedRegisters.live s, {
          rip := InterruptReturnFrame.rip s.mem (s.reg .rsp)
          cs := InterruptReturnFrame.cs s.mem (s.reg .rsp)
          rflags := InterruptReturnFrame.rflags s.mem (s.reg .rsp)
          resumeRsp := resumeRsp
          rsp := none
          ss := none }⟩ := by
  obtain ⟨hrdi, hrsi, hregisters, hmem⟩ := timerEntry_spec s hook ra
  have hread : ∀ i : U64, i.toNat + 8 ≤ 40 → read64 (timerEntry s hook ra).mem (s.reg .rsp + i) =
      read64 s.mem (s.reg .rsp + i) :=
    fun i hi => read64_congr fun x hx => hmem x (within_of_offset hi hx)
  simp only [captureAt, hrdi, hrsi]
  generalize (timerEntry s hook ra).mem = m at *
  have hrip : InterruptReturnFrame.rip m (s.reg .rsp) = InterruptReturnFrame.rip s.mem (s.reg .rsp) := by
    have hword := hread 0#64 (by decide)
    rwa [BitVec.add_zero] at hword
  have hcsEq : InterruptReturnFrame.cs m (s.reg .rsp) = InterruptReturnFrame.cs s.mem (s.reg .rsp) :=
    hread 8 (by decide)
  have hrflags : InterruptReturnFrame.rflags m (s.reg .rsp) = InterruptReturnFrame.rflags s.mem (s.reg .rsp) :=
    hread 16 (by decide)
  unfold InterruptedState.capture ReturnState.capture InterruptReturnFrame.resumeRsp InterruptReturnFrame.rsp
    InterruptReturnFrame.ss
  rw [hcsEq, if_pos hcs, if_pos hcs, if_pos hcs, hregisters, hrip, hrflags]
  cases checkedAdd (s.reg .rsp) 24 <;> rfl

/-- There is no address behind a frame at the end of the address space. -/
theorem captureAt_panics (hcs : InterruptReturnFrame.cs s.mem (s.reg .rsp) &&& 3 = 0)
    (hend : 2 ^ 64 ≤ (s.reg .rsp).toNat + 24) : captureAt s hook ra = .panicked := by
  rw [captureAt_eq s hook ra hcs, checkedAdd_eq_none.mpr hend]

/-- A snapshot of the frame is valid for a return to kernel mode. -/
private theorem InterruptedState.OfKernel.isValid {state : InterruptedState} (hof : state.OfKernel s)
    (hframe : KernelFrame s.mem (s.reg .rsp)) (hend : (s.reg .rsp).toNat + 24 < 2 ^ 64) :
    state.isValid = true ∧ state.returnState.isKernel = true := by
  have hresume : state.returnState.resumeRsp ≠ 0 := by
    rw [hof.resumeRsp, ← BitVec.toNat_ne_iff_ne, BitVec.toNat_add, show (24 : U64).toNat = 24 from rfl,
      show (0 : U64).toNat = 0 from rfl]
    omega
  have hkernel : state.returnState.isKernel = true := by
    rw [ReturnState.isKernel, hof.cs, beq_iff_eq]
    exact hframe.cs
  refine ⟨?_, hkernel⟩
  simp only [InterruptedState.isValid, hkernel, Bool.true_or, Bool.and_true, Bool.and_eq_true, bne_iff_ne, hof.rip,
    hof.rflags]
  exact ⟨⟨hframe.rip, hframe.rflags⟩, hresume⟩

private theorem captureAt_returns (hcs : InterruptReturnFrame.cs s.mem (s.reg .rsp) &&& 3 = 0)
    (hend : (s.reg .rsp).toNat + 24 < 2 ^ 64) : ∃ state, captureAt s hook ra = .returned state ∧
    state.OfKernel s := by
  have hresume : checkedAdd (s.reg .rsp) 24 = some (s.reg .rsp + 24) := checkedAdd_of_lt hend
  rw [captureAt_eq s hook ra hcs, hresume]
  exact ⟨_, rfl, rfl, rfl, rfl, rfl, rfl⟩

end Capture

/-! ### The way back -/

/-- The places in the snapshot from which the frame is built. -/
def returnWords : List U64 := [120, 128, 136]

private theorem length_returnWords (f : U64 → U64) : 8 * (returnWords.map f).length ≤ 2 ^ 64 := by
  rw [List.length_map]
  decide

private theorem returnToKernelCode_eq : returnToKernelCode =
    [.mov .r11 .rdi, .load .r10 .r11 144, .sub .r10 24] ++
      (Machine.copyWords .r11 .r10 .rax 0 returnWords ++ (.mov .rsp .r10 :: registerLoads)) := rfl

/-- `r11` gets the address of the snapshot and `r10` the one of the frame. -/
private theorem exec_returnHead (t : Machine) :
    (t.execAll [.mov .r11 .rdi, .load .r10 .r11 144, .sub .r10 24]).mem = t.mem ∧
      (t.execAll [.mov .r11 .rdi, .load .r10 .r11 144, .sub .r10 24]).reg .r11 = t.reg .rdi ∧
      (t.execAll [.mov .r11 .rdi, .load .r10 .r11 144, .sub .r10 24]).reg .r10 =
        read64 t.mem (t.reg .rdi + 144) - 24 := by
  refine ⟨?_, ?_, ?_⟩
  all_goals simp [Machine.execAll, Machine.exec, Machine.setReg]

/-- With the snapshot apart from the place of the frame: the frame is the words at 120, 128 and 136 of the snapshot,
and the registers are its first fifteen words. -/
private theorem returnToKernel_spec (t : Machine) {frame : U64}
    (hframe : read64 t.mem (t.reg .rdi + 144) = frame + 24)
    (hapart : Apart (t.reg .rdi) InterruptedState.size frame 24) :
    (returnToKernel t).mem =
        writeWords t.mem frame (returnWords.map fun d => read64 t.mem (t.reg .rdi + d)) ∧
      (returnToKernel t).reg .rsp = frame ∧
      ∀ r ∈ savedOrder, (returnToKernel t).reg r =
        read64 t.mem (t.reg .rdi + BitVec.ofNat 64 (8 * savedOrder.idxOf r)) := by
  obtain ⟨hmem, hr11, hr10⟩ := exec_returnHead t
  rw [hframe, BitVec.add_sub_cancel] at hr10
  rw [returnToKernel, returnToKernelCode_eq, Machine.execAll_append, Machine.execAll_append]
  generalize t.execAll [.mov .r11 .rdi, .load .r10 .r11 144, .sub .r10 24] = u at *
  have hsource : ∀ d ∈ returnWords,
      Apart (u.reg .r11 + d) 8 (u.reg .r10 + BitVec.ofNat 64 (8 * 0)) (8 * returnWords.length) := by
    intro d hd x hx hx'
    have hfits : ∀ d ∈ returnWords, d.toNat + 8 ≤ InterruptedState.size := by
      simp [returnWords, InterruptedState.size]
    rw [hr11] at hx
    rw [hr10, Nat.mul_zero, BitVec.add_zero] at hx'
    exact hapart x (within_of_offset (hfits d hd) hx) hx'
  obtain ⟨hmem₁, hregs₁⟩ := u.execAll_copyWords (show Reg.r11 ≠ .rax by decide) (show Reg.r10 ≠ .rax by decide) 0
    (by decide) hsource
  rw [hmem, hr11, hr10, Nat.mul_zero, BitVec.add_zero] at hmem₁
  generalize u.execAll (Machine.copyWords .r11 .r10 .rax 0 returnWords) = v at *
  have hcode : v.execAll (.mov .rsp .r10 :: registerLoads) = (v.exec (.mov .rsp .r10)).execAll registerLoads := rfl
  obtain ⟨hmem₂, hrsp₂, hregs₂⟩ := exec_registerLoads (v.exec (.mov .rsp .r10))
  rw [hcode]
  have hbase : (v.exec (.mov .rsp .r10)).reg .r11 = t.reg .rdi := by
    show Function.update v.reg .rsp (v.reg .r10) .r11 = _
    rw [Function.update_of_ne (by decide), hregs₁ .r11 (by decide), hr11]
  have hstack : (v.exec (.mov .rsp .r10)).reg .rsp = frame := by
    show Function.update v.reg .rsp (v.reg .r10) .rsp = _
    rw [Function.update_self, hregs₁ .r10 (by decide), hr10]
  have hkeep : (v.exec (.mov .rsp .r10)).mem = v.mem := rfl
  refine ⟨hmem₂.trans (hkeep.trans hmem₁), hrsp₂.trans hstack, fun r hr => ?_⟩
  refine (hregs₂ r hr).trans ?_
  rw [hbase, hkeep, hmem₁]
  refine read64_congr fun x hx => writeWords_of_not_within (length_returnWords _) fun hx' => hapart x ?_ hx'
  have hindex : savedOrder.idxOf r < 15 := List.idxOf_lt_length_of_mem hr
  refine within_of_offset ?_ hx
  rw [BitVec.toNat_ofNat, InterruptedState.size]
  omega

/-- `return_to_kernel` takes the machine back to the interrupted kernel task: before its `iretq` the frame is where it
was, the registers are loaded, and nothing else has been written. -/
structure ReturnsToKernel (s t : Machine) : Prop where
  rsp : (returnToKernel t).reg .rsp = s.reg .rsp
  rip : InterruptReturnFrame.rip (returnToKernel t).mem (s.reg .rsp) = InterruptReturnFrame.rip s.mem (s.reg .rsp)
  cs : InterruptReturnFrame.cs (returnToKernel t).mem (s.reg .rsp) = InterruptReturnFrame.cs s.mem (s.reg .rsp)
  rflags : InterruptReturnFrame.rflags (returnToKernel t).mem (s.reg .rsp) =
    InterruptReturnFrame.rflags s.mem (s.reg .rsp)
  registers : ∀ r, r ≠ .rsp → (returnToKernel t).reg r = s.reg r
  outside : ∀ x, ¬ Within (s.reg .rsp) 24 x → (returnToKernel t).mem x = t.mem x

private theorem returnsToKernel_of {s t : Machine} {state : InterruptedState} (hof : state.OfKernel s)
    (hlaid : state.LaidOut t.mem (t.reg .rdi)) (hapart : Apart (t.reg .rdi) InterruptedState.size (s.reg .rsp) 24) :
    ReturnsToKernel s t := by
  have hsaved : ∀ r : Reg, r ≠ .rsp → r ∈ savedOrder := by
    intro r hr
    cases r
    case rsp => exact absurd rfl hr
    all_goals decide
  obtain ⟨hmem, hrsp, hregs⟩ := returnToKernel_spec t (hlaid.resumeRsp.trans hof.resumeRsp) hapart
  have hword : ∀ i (hi : i < (returnWords.map fun d => read64 t.mem (t.reg .rdi + d)).length),
      read64 (returnToKernel t).mem (s.reg .rsp + BitVec.ofNat 64 (8 * i)) =
        (returnWords.map fun d => read64 t.mem (t.reg .rdi + d))[i] := by
    intro i hi
    rw [hmem]
    exact read64_writeWords (length_returnWords _) hi
  constructor
  case rsp => exact hrsp
  case rip =>
    have hrip := hword 0 (show 0 < 3 by decide)
    rw [Nat.mul_zero, BitVec.add_zero] at hrip
    exact hrip.trans (hlaid.rip.trans hof.rip)
  case cs => exact (hword 1 (show 1 < 3 by decide)).trans (hlaid.cs.trans hof.cs)
  case rflags => exact (hword 2 (show 2 < 3 by decide)).trans (hlaid.rflags.trans hof.rflags)
  case registers =>
    intro r hr
    rw [hregs r (hsaved r hr)]
    exact SavedRegisters.read_eq_live_iff.mp (hlaid.registers.trans hof.registers) r (hsaved r hr)
  case outside =>
    intro x hx
    rw [hmem]
    exact writeWords_of_not_within (length_returnWords _) hx

/-- For every machine at the entry with a frame of kernel mode on its stack, and every machine that has the snapshot
in memory, outside the frame, when it calls `return_to_kernel`. -/
theorem kernel_round_trip (s : Machine) (hframe : KernelFrame s.mem (s.reg .rsp))
    (hend : (s.reg .rsp).toNat + 24 < 2 ^ 64) (hook ra : U64) :
    ∃ state, captureAt s hook ra = .returned state ∧ state.isValid = true ∧
      state.returnState.kernelIretWords.isSome = true ∧
      ∀ t : Machine, state.LaidOut t.mem (t.reg .rdi) → Apart (t.reg .rdi) InterruptedState.size (s.reg .rsp) 24 →
        ReturnsToKernel s t := by
  obtain ⟨state, hcapture, hof⟩ := captureAt_returns hframe.cs hend
  obtain ⟨hvalid, hkernel⟩ := hof.isValid hframe hend
  exact ⟨state, hcapture, hvalid, InterruptedState.kernelIretWords_of_isValid hvalid hkernel,
    fun t hlaid hapart => returnsToKernel_of hof hlaid hapart⟩

/-! ### A frame in the middle and one at the end of the address space -/

namespace KernelSample

/-- A kernel task with a frame on top of its stack. -/
def task (frame : U64) : Machine :=
  ⟨fun r => if r = .rsp then frame else 7, writeWords (fun _ => 0) frame [0x201000, 0x8, 0x202], 0⟩

/-- A machine that has a snapshot in memory and its address in `rdi`. -/
def holder (state : InterruptedState) : Machine :=
  ⟨fun _ => 0x5000, writeWords (fun _ => 0) 0x5000 state.words, 0⟩

private theorem holder_laidOut (state : InterruptedState) :
    state.LaidOut (holder state).mem ((holder state).reg .rdi) := by
  dsimp only [holder]
  exact state.laidOut_words _ _

end KernelSample

open KernelSample in
theorem kernel_round_trip_stack : (task 0x8000).reg .rsp = 0x8000 ∧
    KernelFrame (task 0x8000).mem ((task 0x8000).reg .rsp) ∧
    ∃ state, captureAt (task 0x8000) 0 0 = .returned state ∧ ReturnsToKernel (task 0x8000) (holder state) := by
  have hframe : KernelFrame (task 0x8000).mem ((task 0x8000).reg .rsp) :=
    ⟨by decide +kernel, by decide +kernel, by decide +kernel⟩
  have hapart : Apart (0x5000 : U64) InterruptedState.size ((task 0x8000).reg .rsp) 24 :=
    apart_of_le (by decide) (by decide)
  obtain ⟨state, hcapture, -, -, hreturns⟩ := kernel_round_trip (task 0x8000) hframe (by decide) 0 0
  exact ⟨rfl, hframe, state, hcapture, hreturns (holder state) (holder_laidOut state) hapart⟩

open KernelSample in
/-- The last frame of the address space is not captured. -/
theorem frame_at_end : (task (-24)).reg .rsp = -24 ∧ KernelFrame (task (-24)).mem ((task (-24)).reg .rsp) ∧
    captureAt (task (-24)) 0 0 = .panicked := by
  have hframe : KernelFrame (task (-24)).mem ((task (-24)).reg .rsp) :=
    ⟨by decide +kernel, by decide +kernel, by decide +kernel⟩
  exact ⟨rfl, hframe, captureAt_panics hframe.cs (by decide)⟩

end X11Os
