import X11Os.Arch.Execution
import X11Os.Lib.Amd64Stack
import X11Os.Lib.Panics

/-!
# Leaving user mode and coming back

The way of an interrupted user task into a snapshot (`timer_entry` of `arch/x86_64/interrupt_entry.rs` and
`InterruptedState::capture` of `arch/x86_64/interrupted_state.rs`) and back (`resume_user` of
`arch/x86_64/user_entry.rs`), as instruction sequences over the machine of `Lib.Amd64`.

The restore half reads the two optional words of the snapshot where the option starts.  That is its discriminant, and
not the value, which comes eight bytes later: `iretq` gets the stack pointer 1 and the stack segment 1.
-/

namespace X11Os

open Word Amd64

/-! ### The frame of the processor -/

/-- The five words that the processor pushes when it leaves user mode, and that `iretq` pops. -/
structure IretFrame where
  rip : U64
  cs : U64
  rflags : U64
  rsp : U64
  ss : U64
deriving DecidableEq, Repr

namespace IretFrame

/-- The words as they lie in memory. -/
def words (f : IretFrame) : List U64 := [f.rip, f.cs, f.rflags, f.rsp, f.ss]

def read (m : Memory) (a : U64) : IretFrame where
  rip := read64 m (a + 0)
  cs := read64 m (a + 8)
  rflags := read64 m (a + 16)
  rsp := read64 m (a + 24)
  ss := read64 m (a + 32)

end IretFrame

/-- The processor takes an interrupt in user mode: it switches to the kernel stack and pushes the frame. -/
def interrupt (s : Machine) (stack : U64) (f : IretFrame) : Machine :=
  (((((s.setReg .rsp stack).push f.ss).push f.rsp).push f.rflags).push f.cs).push f.rip

/-! ### Into the snapshot -/

/-- `timer_entry` up to the call of the hook. -/
def timerEntryCode : List Instr := [
  .push .r15, .push .r14, .push .r13, .push .r12, .push .r11, .push .r10, .push .r9, .push .r8,
  .push .rdi, .push .rsi, .push .rbp, .push .rbx, .push .rdx, .push .rcx, .push .rax,
  .mov .rax .rsp, .and .rsp (-16), .sub .rsp 16, .store .rsp 0 .rax,
  .mov .rdi .rax, .lea .rsi .rax 120]

/-- The machine at the start of the hook, whose arguments are in `rdi` and `rsi`. -/
def timerEntry (s : Machine) (hook ra : U64) : Machine := (s.execAll timerEntryCode).call hook ra

def SavedRegisters.read (m : Memory) (a : U64) : SavedRegisters where
  rax := read64 m (a + 0)
  rcx := read64 m (a + 8)
  rdx := read64 m (a + 16)
  rbx := read64 m (a + 24)
  rbp := read64 m (a + 32)
  rsi := read64 m (a + 40)
  rdi := read64 m (a + 48)
  r8 := read64 m (a + 56)
  r9 := read64 m (a + 64)
  r10 := read64 m (a + 72)
  r11 := read64 m (a + 80)
  r12 := read64 m (a + 88)
  r13 := read64 m (a + 96)
  r14 := read64 m (a + 104)
  r15 := read64 m (a + 112)

namespace InterruptReturnFrame

variable (m : Memory) (raw : U64)

def rip : U64 := read64 m raw
def cs : U64 := read64 m (raw + 8)
def rflags : U64 := read64 m (raw + 16)
def rsp : Option U64 := if cs m raw &&& 3 = 0 then none else some (read64 m (raw + 24))
def ss : Option U64 := if cs m raw &&& 3 = 0 then none else some (read64 m (raw + 32))
def resumeRsp : Option U64 := checkedAdd raw (if cs m raw &&& 3 = 0 then 24 else 40)

end InterruptReturnFrame

def ReturnState.capture (m : Memory) (frame : U64) : Option ReturnState :=
  match InterruptReturnFrame.resumeRsp m frame with
  | none => none
  | some resumeRsp => some {
      rip := InterruptReturnFrame.rip m frame
      cs := InterruptReturnFrame.cs m frame
      rflags := InterruptReturnFrame.rflags m frame
      resumeRsp := resumeRsp
      rsp := InterruptReturnFrame.rsp m frame
      ss := InterruptReturnFrame.ss m frame }

def InterruptedState.capture (m : Memory) (registers frame : U64) : Panics InterruptedState :=
  match ReturnState.capture m frame with
  | none => .panicked
  | some returnState => .returned ⟨SavedRegisters.read m registers, returnState⟩

/-- The snapshot of a user task that is interrupted: the hook captures it from its two arguments. -/
def capturedState (s : Machine) (stack : U64) (f : IretFrame) (hook ra : U64) : Panics InterruptedState :=
  let entered := timerEntry (interrupt s stack f) hook ra
  InterruptedState.capture entered.mem (entered.reg .rdi) (entered.reg .rsi)

/-! ### Out of the snapshot -/

/-- An `Option<u64>` in memory: the discriminant, and the value if there is one. -/
def OptionAt (m : Memory) (a : U64) : Option U64 → Prop
  | none => read64 m a = 0
  | some v => read64 m a = 1 ∧ read64 m (a + 8) = v

/-- The snapshot in memory, in its `repr(C)` layout. -/
structure InterruptedState.LaidOut (state : InterruptedState) (m : Memory) (p : U64) : Prop where
  registers : SavedRegisters.read m p = state.registers
  rip : read64 m (p + 120) = state.returnState.rip
  cs : read64 m (p + 128) = state.returnState.cs
  rflags : read64 m (p + 136) = state.returnState.rflags
  resumeRsp : read64 m (p + 144) = state.returnState.resumeRsp
  rsp : OptionAt m (p + 152) state.returnState.rsp
  ss : OptionAt m (p + 168) state.returnState.ss

def InterruptedState.size : Nat := 184

/-- `resume_user(state: rdi)` up to its `iretq`. -/
def resumeUserCode : List Instr := [
  .mov .r11 .rdi,
  .load .rax .r11 168, .push .rax,
  .load .rax .r11 152, .push .rax,
  .load .rax .r11 136, .push .rax,
  .load .rax .r11 128, .push .rax,
  .load .rax .r11 120, .push .rax,
  .load .rax .r11 0,
  .load .rcx .r11 8,
  .load .rdx .r11 16,
  .load .rbx .r11 24,
  .load .rbp .r11 32,
  .load .rsi .r11 40,
  .load .rdi .r11 48,
  .load .r8 .r11 56,
  .load .r9 .r11 64,
  .load .r10 .r11 72,
  .load .r12 .r11 88,
  .load .r13 .r11 96,
  .load .r14 .r11 104,
  .load .r15 .r11 112,
  .load .r11 .r11 80]

/-- The machine before the `iretq` of `resume_user`. -/
def resumeUser (s : Machine) : Machine := s.execAll resumeUserCode

/-- What the `iretq` pops. -/
def poppedFrame (s : Machine) : IretFrame := IretFrame.read s.mem (s.reg .rsp)

/-- `resume_user` takes the machine back to the interrupted user task: `iretq` pops its frame, with its fifteen
registers loaded. -/
structure ResumesUser (s : Machine) (f : IretFrame) (t : Machine) : Prop where
  frame : poppedFrame (resumeUser t) = f
  registers : ∀ r, r ≠ .rsp → (resumeUser t).reg r = s.reg r

/-! ### What the entry path saves -/

/-- The fifteen registers in the order of `SavedRegisters`. -/
def savedOrder : List Reg :=
  [.rax, .rcx, .rdx, .rbx, .rbp, .rsi, .rdi, .r8, .r9, .r10, .r11, .r12, .r13, .r14, .r15]

def SavedRegisters.live (s : Machine) : SavedRegisters :=
  ⟨s.reg .rax, s.reg .rcx, s.reg .rdx, s.reg .rbx, s.reg .rbp, s.reg .rsi, s.reg .rdi, s.reg .r8, s.reg .r9,
    s.reg .r10, s.reg .r11, s.reg .r12, s.reg .r13, s.reg .r14, s.reg .r15⟩

/-- A block holds the registers of a machine, each in its place. -/
theorem SavedRegisters.read_eq_live_iff {m : Memory} {p : U64} {s : Machine} :
    SavedRegisters.read m p = SavedRegisters.live s ↔
      ∀ r ∈ savedOrder, read64 m (p + BitVec.ofNat 64 (8 * savedOrder.idxOf r)) = s.reg r := by
  simp only [SavedRegisters.read, SavedRegisters.live, SavedRegisters.mk.injEq]
  constructor
  · rintro ⟨rax, rcx, rdx, rbx, rbp, rsi, rdi, r8, r9, r10, r11, r12, r13, r14, r15⟩ r hr
    cases r
    exacts [rax, rbx, rcx, rdx, rsi, rdi, rbp, absurd hr (by decide), r8, r9, r10, r11, r12, r13, r14, r15]
  · intro h
    exact ⟨h .rax (by decide), h .rcx (by decide), h .rdx (by decide), h .rbx (by decide), h .rbp (by decide),
      h .rsi (by decide), h .rdi (by decide), h .r8 (by decide), h .r9 (by decide), h .r10 (by decide),
      h .r11 (by decide), h .r12 (by decide), h .r13 (by decide), h .r14 (by decide), h .r15 (by decide)⟩

private theorem interrupt_pushed (s : Machine) (stack : U64) (f : IretFrame) :
    Pushed f.words (s.setReg .rsp stack) (interrupt s stack f) :=
  (((((Pushed.nil _).push (by simp) f.ss).push (by simp) f.rsp).push (by simp) f.rflags).push (by simp) f.cs).push
    (by simp) f.rip

private theorem interrupt_reg (s : Machine) (stack : U64) (f : IretFrame) {r : Reg} (hr : r ≠ .rsp) :
    (interrupt s stack f).reg r = s.reg r := by
  simp [interrupt, Machine.push, Machine.setReg, Function.update_of_ne hr]

/-- The code after the pushes. -/
def entryTail : List Instr :=
  [.mov .rax .rsp, .and .rsp (-16), .sub .rsp 16, .store .rsp 0 .rax, .mov .rdi .rax, .lea .rsi .rax 120]

private theorem timerEntryCode_eq : timerEntryCode = savedOrder.reverse.map .push ++ entryTail := rfl

/-- It passes the top of the stack and the address of the frame, and leaves what is on the stack alone. -/
private theorem exec_entryTail (s : Machine) (hook ra : U64) :
    ((s.execAll entryTail).call hook ra).reg .rdi = s.reg .rsp ∧
      ((s.execAll entryTail).call hook ra).reg .rsi = s.reg .rsp + 120 ∧
      ∀ x, Within (s.reg .rsp) 160 x → ((s.execAll entryTail).call hook ra).mem x = s.mem x := by
  refine ⟨?_, ?_, fun x hx => ?_⟩
  · simp [entryTail, Machine.execAll, Machine.exec, Machine.call, Machine.push, Machine.setReg]
  · simp [entryTail, Machine.execAll, Machine.exec, Machine.call, Machine.push, Machine.setReg]
  · have hmem : ((s.execAll entryTail).call hook ra).mem =
        write64 (write64 s.mem ((s.reg .rsp &&& -16) - 16) (s.reg .rsp)) ((s.reg .rsp &&& -16) - 16 - 8) ra := by
      simp [entryTail, Machine.execAll, Machine.exec, Machine.call, Machine.push, Machine.setReg]
    have halign : (s.reg .rsp &&& -16).toNat = (s.reg .rsp).toNat / 16 * 16 := toNat_and_not_low (s.reg .rsp) 4
    have hrsp := (s.reg .rsp).isLt
    have hxlt := x.isLt
    have hsave : ¬ Within ((s.reg .rsp &&& -16) - 16) 8 x := by
      simp only [Within, BitVec.toNat_sub, halign, show (16 : U64).toNat = 16 from rfl] at hx ⊢
      omega
    have hra : ¬ Within ((s.reg .rsp &&& -16) - 16 - 8) 8 x := by
      simp only [Within, BitVec.toNat_sub, halign, show (16 : U64).toNat = 16 from rfl,
        show (8 : U64).toNat = 8 from rfl] at hx ⊢
      omega
    rw [hmem, write64_of_not_within hra, write64_of_not_within hsave]

/-- The hook finds the fifteen registers at its first argument, and behind them, at the second, what was
on the stack. -/
theorem timerEntry_spec (s : Machine) (hook ra : U64) :
    (timerEntry s hook ra).reg .rdi = s.reg .rsp - 120 ∧ (timerEntry s hook ra).reg .rsi = s.reg .rsp ∧
      SavedRegisters.read (timerEntry s hook ra).mem (s.reg .rsp - 120) = SavedRegisters.live s ∧
      ∀ x, Within (s.reg .rsp) 40 x → (timerEntry s hook ra).mem x = s.mem x := by
  obtain ⟨hpushed, -⟩ := (Pushed.nil s).pushRegs savedOrder.reverse (by decide) (by decide)
  rw [List.map_reverse, List.reverse_reverse, List.append_nil] at hpushed
  have hlength : (savedOrder.map s.reg).length = 15 := rfl
  rw [timerEntry, timerEntryCode_eq, Machine.execAll_append]
  -- from here on only what is on the stack of `u` matters
  generalize s.execAll (savedOrder.reverse.map .push) = u at *
  obtain ⟨hrdi, hrsi, hmem⟩ := exec_entryTail u hook ra
  have hrsp : u.reg .rsp = s.reg .rsp - 120 := hpushed.rsp
  rw [hrdi, hrsi, hrsp, BitVec.sub_add_cancel]
  refine ⟨rfl, rfl, ?_, fun x hx => ?_⟩
  · refine SavedRegisters.read_eq_live_iff.mpr fun r hr => ?_
    have hi : savedOrder.idxOf r < 15 := List.idxOf_lt_length_of_mem hr
    have hword := hpushed.words _ (hlength ▸ hi)
    rw [List.getElem_map, List.getElem_idxOf] at hword
    rw [← hword, ← hrsp]
    refine read64_congr fun x hx => hmem x (within_of_offset ?_ hx)
    rw [BitVec.toNat_ofNat]
    omega
  · have hsp := (s.reg .rsp).isLt
    have hxlt := x.isLt
    have habove : Within (u.reg .rsp) 160 x ∧ ¬ Within (u.reg .rsp) (8 * (savedOrder.map s.reg).length) x := by
      rw [hrsp, hlength]
      simp only [Within, BitVec.toNat_sub, show (120 : U64).toNat = 120 from rfl] at hx ⊢
      omega
    rw [hmem x habove.1, hpushed.outside x habove.2]

/-- From user mode: behind the registers the hook finds the frame. -/
private theorem timerEntry_frame (s : Machine) (stack : U64) (f : IretFrame) (hook ra : U64) :
    (timerEntry (interrupt s stack f) hook ra).reg .rdi = stack - 40 - 120 ∧
      (timerEntry (interrupt s stack f) hook ra).reg .rsi = stack - 40 ∧
      SavedRegisters.read (timerEntry (interrupt s stack f) hook ra).mem (stack - 40 - 120) = SavedRegisters.live s ∧
      ∀ i (hi : i < f.words.length),
        read64 (timerEntry (interrupt s stack f) hook ra).mem (stack - 40 + BitVec.ofNat 64 (8 * i)) =
        f.words[i] := by
  have hpushed := interrupt_pushed s stack f
  have hrsp : (interrupt s stack f).reg .rsp = stack - 40 := by
    rw [hpushed.rsp]
    simp [Machine.setReg, IretFrame.words]
  have hlive : SavedRegisters.live (interrupt s stack f) = SavedRegisters.live s := by
    simp only [SavedRegisters.live, interrupt_reg s stack f, ne_eq, reduceCtorEq, not_false_eq_true]
  obtain ⟨hrdi, hrsi, hregisters, hmem⟩ := timerEntry_spec (interrupt s stack f) hook ra
  rw [hrsp] at hrdi hrsi hregisters hmem
  refine ⟨hrdi, hrsi, hregisters.trans hlive, fun i hi => ?_⟩
  rw [← hpushed.words i hi, hrsp]
  refine read64_congr fun x hx => hmem x (within_of_offset ?_ hx)
  have hfive : i < 5 := hi
  rw [BitVec.toNat_ofNat]
  omega

/-- What a snapshot of the user task holds. -/
structure InterruptedState.Of (s : Machine) (f : IretFrame) (state : InterruptedState) : Prop where
  registers : state.registers = SavedRegisters.live s
  rip : state.returnState.rip = f.rip
  cs : state.returnState.cs = f.cs
  rflags : state.returnState.rflags = f.rflags
  rsp : state.returnState.rsp = some f.rsp
  ss : state.returnState.ss = some f.ss

private theorem capturedState_of (s : Machine) (stack : U64) (f : IretFrame) (hcpl : f.cs &&& 3 = 3) (hook ra : U64)
    {state : InterruptedState} (h : capturedState s stack f hook ra = .returned state) : state.Of s f := by
  obtain ⟨hrdi, hrsi, hregisters, hwords⟩ := timerEntry_frame s stack f hook ra
  simp only [capturedState, hrdi, hrsi] at h
  generalize (timerEntry (interrupt s stack f) hook ra).mem = m at *
  generalize stack - 40 = p at *
  have hrip : InterruptReturnFrame.rip m p = f.rip := by
    have hword := hwords 0 (show 0 < 5 by decide)
    rwa [Nat.mul_zero, BitVec.add_zero] at hword
  have hcs : InterruptReturnFrame.cs m p = f.cs := hwords 1 (show 1 < 5 by decide)
  have hrflags : InterruptReturnFrame.rflags m p = f.rflags := hwords 2 (show 2 < 5 by decide)
  have huser : ¬ InterruptReturnFrame.cs m p &&& 3 = 0 := by
    rw [hcs, hcpl]
    decide
  have hrsp : InterruptReturnFrame.rsp m p = some f.rsp := by
    rw [InterruptReturnFrame.rsp, if_neg huser]
    exact congrArg some (hwords 3 (show 3 < 5 by decide))
  have hss : InterruptReturnFrame.ss m p = some f.ss := by
    rw [InterruptReturnFrame.ss, if_neg huser]
    exact congrArg some (hwords 4 (show 4 < 5 by decide))
  unfold InterruptedState.capture ReturnState.capture at h
  cases hresume : InterruptReturnFrame.resumeRsp m p with
  | none =>
    rw [hresume] at h
    cases h
  | some resumeRsp =>
    rw [hresume] at h
    cases h
    exact ⟨hregisters, hrip, hcs, hrflags, hrsp, hss⟩

/-! ### What the way back restores -/

/-- The registers that are loaded while `r11` holds the address of the snapshot. -/
def lowRegs : List Reg := [.rax, .rcx, .rdx, .rbx, .rbp, .rsi, .rdi, .r8, .r9, .r10]

def highRegs : List Reg := [.r12, .r13, .r14, .r15]

/-- The places in the snapshot from which the frame is built. -/
def frameWords : List U64 := [168, 152, 136, 128, 120]

/-- The loads after the frame is built; `r11` is loaded last. -/
def registerLoads : List Instr :=
  Machine.loadRegs .r11 0 lowRegs ++ (Machine.loadRegs .r11 11 highRegs ++ [.load .r11 .r11 80])

private theorem resumeUserCode_eq :
    resumeUserCode = .mov .r11 .rdi :: (Machine.pushWords .r11 .rax frameWords ++ registerLoads) := rfl

private theorem exec_loadLast (s : Machine) : (s.execAll [.load .r11 .r11 80]).mem = s.mem ∧
    (s.execAll [.load .r11 .r11 80]).reg = Function.update s.reg .r11 (read64 s.mem (s.reg .r11 + 80)) :=
  ⟨rfl, rfl⟩

/-- Fifteen words of the block at `r11`, each into its register. -/
theorem exec_registerLoads (s : Machine) :
    (s.execAll registerLoads).mem = s.mem ∧ (s.execAll registerLoads).reg .rsp = s.reg .rsp ∧
      ∀ r ∈ savedOrder, (s.execAll registerLoads).reg r =
        read64 s.mem (s.reg .r11 + BitVec.ofNat 64 (8 * savedOrder.idxOf r)) := by
  have hlow : Reg.r11 ∉ lowRegs := by decide
  have hlowNodup : lowRegs.Nodup := by decide
  have hhigh : Reg.r11 ∉ highRegs := by decide
  have hhighNodup : highRegs.Nodup := by decide
  rw [registerLoads, Machine.execAll_append, Machine.execAll_append]
  obtain ⟨hmem, -, hkeep, hget⟩ := s.execAll_loadRegs 0 hlow hlowNodup
  generalize s.execAll (Machine.loadRegs .r11 0 lowRegs) = s₁ at *
  obtain ⟨hmem₁, -, hkeep₁, hget₁⟩ := s₁.execAll_loadRegs 11 hhigh hhighNodup
  generalize s₁.execAll (Machine.loadRegs .r11 11 highRegs) = s₂ at *
  have hbase : s₁.reg .r11 = s.reg .r11 := hkeep _ hlow
  obtain ⟨hlastMem, hlast⟩ := exec_loadLast s₂
  refine ⟨?_, ?_, fun r hr => ?_⟩
  · rw [hlastMem, hmem₁, hmem]
  · rw [hlast, Function.update_of_ne (by decide), hkeep₁ _ (by decide), hkeep _ (by decide)]
  · rw [hlast]
    by_cases hr11 : r = .r11
    · subst hr11
      rw [Function.update_self, hmem₁, hmem, hkeep₁ _ hhigh, hbase]
      rfl
    · rw [Function.update_of_ne hr11]
      by_cases hrlow : r ∈ lowRegs
      · have hplace : ∀ r ∈ lowRegs, r ∉ highRegs ∧ savedOrder.idxOf r = 0 + lowRegs.idxOf r := by decide
        have hload := hget _ (List.idxOf_lt_length_of_mem hrlow)
        rw [List.getElem_idxOf] at hload
        rw [hkeep₁ r (hplace r hrlow).1, hload, (hplace r hrlow).2]
      · have hplace : ∀ r ∈ savedOrder, r ≠ .r11 → r ∉ lowRegs → r ∈ highRegs ∧
            savedOrder.idxOf r = 11 + highRegs.idxOf r := by decide
        obtain ⟨hrhigh, hindex⟩ := hplace r hr hr11 hrlow
        have hload := hget₁ _ (List.idxOf_lt_length_of_mem hrhigh)
        rw [List.getElem_idxOf, hmem, hbase] at hload
        rw [hload, hindex]

/-- `iretq` pops the words at 120, 128, 136, 152 and 168 of the block at `rdi`; the registers come from its first
fifteen words. -/
private theorem resumeUser_spec (t : Machine)
    (hapart : Apart (t.reg .rdi) InterruptedState.size (t.reg .rsp - 40) 40) :
    poppedFrame (resumeUser t) = ⟨read64 t.mem (t.reg .rdi + 120), read64 t.mem (t.reg .rdi + 128),
        read64 t.mem (t.reg .rdi + 136), read64 t.mem (t.reg .rdi + 152), read64 t.mem (t.reg .rdi + 168)⟩ ∧
      ∀ r ∈ savedOrder, (resumeUser t).reg r =
        read64 t.mem (t.reg .rdi + BitVec.ofNat 64 (8 * savedOrder.idxOf r)) := by
  have hcode : resumeUser t =
      ((t.setReg .r11 (t.reg .rdi)).execAll (Machine.pushWords .r11 .rax frameWords)).execAll registerLoads := by
    rw [resumeUser, resumeUserCode_eq, ← Machine.execAll_append]
    rfl
  have hbase : (t.setReg .r11 (t.reg .rdi)).reg .r11 = t.reg .rdi := by simp [Machine.setReg]
  have hrsp : (t.setReg .r11 (t.reg .rdi)).reg .rsp = t.reg .rsp := by simp [Machine.setReg]
  have hmem : (t.setReg .r11 (t.reg .rdi)).mem = t.mem := rfl
  rw [hcode]
  generalize t.setReg .r11 (t.reg .rdi) = s at *
  have hwords : ∀ d ∈ frameWords, Apart (s.reg .r11 + d) 8 (s.reg .rsp - BitVec.ofNat 64 (8 * frameWords.length))
      (8 * frameWords.length) := by
    intro d hd x hx
    have hfits : ∀ d ∈ frameWords, d.toNat + 8 ≤ InterruptedState.size := by simp [frameWords, InterruptedState.size]
    rw [hbase] at hx
    rw [hrsp]
    exact hapart x (within_of_offset (hfits d hd) hx)
  obtain ⟨hpushed, hkeep⟩ := (Pushed.nil s).pushWords (show Reg.r11 ≠ .rax by decide) (by decide) (by decide)
    frameWords (by decide) hwords
  generalize s.execAll (Machine.pushWords .r11 .rax frameWords) = s₁ at *
  obtain ⟨hmem₁, hrsp₁, hregs⟩ := exec_registerLoads s₁
  have hbase₁ : s₁.reg .r11 = t.reg .rdi := (hkeep .r11 (by decide) (by decide)).trans hbase
  refine ⟨?_, fun r hr => ?_⟩
  · have hword : ∀ i (hi : i < 5), _ := fun i hi => hpushed.words i hi
    rw [hmem, hbase] at hword
    rw [poppedFrame, hmem₁, hrsp₁, IretFrame.read, IretFrame.mk.injEq]
    exact ⟨hword 0 (by decide), hword 1 (by decide), hword 2 (by decide), hword 3 (by decide), hword 4 (by decide)⟩
  · have hindex : savedOrder.idxOf r < 15 := List.idxOf_lt_length_of_mem hr
    rw [hregs r hr, hbase₁, ← hmem]
    refine read64_congr fun x hx => hpushed.outside x fun hx' => ?_
    have hin : Within (t.reg .rdi) InterruptedState.size x := within_of_offset (by
      rw [BitVec.toNat_ofNat, InterruptedState.size]
      omega) hx
    rw [hpushed.rsp, hrsp] at hx'
    exact hapart x hin hx'

/-! ### The round trip -/

/-- Whatever the task's stack was, `iretq` gets the two discriminants for it. -/
private theorem poppedFrame_resumeUser {s t : Machine} {f : IretFrame} {state : InterruptedState} (hof : state.Of s f)
    (hlaid : state.LaidOut t.mem (t.reg .rdi))
    (hapart : Apart (t.reg .rdi) InterruptedState.size (t.reg .rsp - 40) 40) :
    poppedFrame (resumeUser t) = { f with rsp := 1, ss := 1 } := by
  have hrsp := hlaid.rsp
  have hss := hlaid.ss
  rw [hof.rsp] at hrsp
  rw [hof.ss] at hss
  rw [(resumeUser_spec t hapart).1, hlaid.rip, hlaid.cs, hlaid.rflags, hrsp.1, hss.1, hof.rip, hof.cs, hof.rflags]

private theorem resumeUser_reg {s t : Machine} {f : IretFrame} {state : InterruptedState} (hof : state.Of s f)
    (hlaid : state.LaidOut t.mem (t.reg .rdi))
    (hapart : Apart (t.reg .rdi) InterruptedState.size (t.reg .rsp - 40) 40) {r : Reg} (hr : r ≠ .rsp) :
    (resumeUser t).reg r = s.reg r := by
  have hsaved : r ∈ savedOrder := by
    cases r
    case rsp => exact absurd rfl hr
    all_goals decide
  rw [(resumeUser_spec t hapart).2 r hsaved]
  exact SavedRegisters.read_eq_live_iff.mp (hlaid.registers.trans hof.registers) r hsaved

/-- The snapshot of an interrupted user task brings it back exactly if the task had the stack pointer 1 and the stack
segment 1. -/
theorem resume_user_iff (s : Machine) (stack : U64) (f : IretFrame) (hcpl : f.cs &&& 3 = 3) (hook ra : U64)
    (state : InterruptedState) (hcapture : capturedState s stack f hook ra = .returned state) (t : Machine)
    (hlaid : state.LaidOut t.mem (t.reg .rdi))
    (hapart : Apart (t.reg .rdi) InterruptedState.size (t.reg .rsp - 40) 40) :
    ResumesUser s f t ↔ f.rsp = 1 ∧ f.ss = 1 := by
  have hof := capturedState_of s stack f hcpl hook ra hcapture
  have hpopped := poppedFrame_resumeUser hof hlaid hapart
  constructor
  · rintro ⟨hframe, -⟩
    rw [hpopped] at hframe
    exact ⟨(congrArg IretFrame.rsp hframe).symm, (congrArg IretFrame.ss hframe).symm⟩
  · rintro ⟨hrsp, hss⟩
    refine ⟨?_, fun r hr => resumeUser_reg hof hlaid hapart hr⟩
    rw [hpopped, ← hrsp]
    obtain ⟨rip, cs, rflags, rsp, ss⟩ := f
    simp_all

/-! ### A task on its stack -/

/-- The hook gets a snapshot, unless the frame lies at the very end of the address space. -/
private theorem capturedState_returns (s : Machine) {stack : U64} (hstack : 40 ≤ stack.toNat) (f : IretFrame)
    (hook ra : U64) :
    ∃ state, capturedState s stack f hook ra = .returned state := by
  obtain ⟨hrdi, hrsi, -⟩ := timerEntry_frame s stack f hook ra
  simp only [capturedState, hrdi, hrsi]
  generalize (timerEntry (interrupt s stack f) hook ra).mem = m
  have hframe : (stack - 40).toNat = stack.toNat - 40 := by
    have := stack.isLt
    rw [BitVec.toNat_sub, show (40 : U64).toNat = 40 from rfl]
    omega
  have hresume : ∃ resumeRsp, InterruptReturnFrame.resumeRsp m (stack - 40) = some resumeRsp := by
    unfold InterruptReturnFrame.resumeRsp
    have := stack.isLt
    split_ifs
    · refine ⟨_, checkedAdd_of_lt ?_⟩
      rw [hframe, show (24 : U64).toNat = 24 from rfl]
      omega
    · refine ⟨_, checkedAdd_of_lt ?_⟩
      rw [hframe, show (40 : U64).toNat = 40 from rfl]
      omega
  obtain ⟨resumeRsp, hresume⟩ := hresume
  unfold InterruptedState.capture ReturnState.capture
  rw [hresume]
  exact ⟨_, rfl⟩

/-- The words of an `Option<u64>`. -/
def optionWords : Option U64 → List U64
  | none => [0, 0]
  | some v => [1, v]

def SavedRegisters.words (r : SavedRegisters) : List U64 :=
  [r.rax, r.rcx, r.rdx, r.rbx, r.rbp, r.rsi, r.rdi, r.r8, r.r9, r.r10, r.r11, r.r12, r.r13, r.r14, r.r15]

/-- The words of a snapshot as they lie in memory. -/
def InterruptedState.words (state : InterruptedState) : List U64 :=
  state.registers.words ++ ([state.returnState.rip, state.returnState.cs, state.returnState.rflags,
    state.returnState.resumeRsp] ++ (optionWords state.returnState.rsp ++ optionWords state.returnState.ss))

theorem InterruptedState.laidOut_words (state : InterruptedState) (m : Memory) (p : U64) :
    state.LaidOut (writeWords m p state.words) p := by
  have hlength : state.words.length = 23 := by
    obtain ⟨registers, rip, cs, rflags, resumeRsp, rsp, ss⟩ := state
    cases rsp <;> cases ss <;> rfl
  have hword : ∀ i (hi : i < 23), read64 (writeWords m p state.words) (p + BitVec.ofNat 64 (8 * i)) =
      state.words.get ⟨i, Nat.lt_of_lt_of_eq hi hlength.symm⟩ :=
    fun i hi => read64_writeWords (by rw [hlength]; decide) (Nat.lt_of_lt_of_eq hi hlength.symm)
  generalize writeWords m p state.words = m' at *
  obtain ⟨registers, rip, cs, rflags, resumeRsp, rsp, ss⟩ := state
  have hregisters : SavedRegisters.read m' p = registers := by
    obtain ⟨rax, rcx, rdx, rbx, rbp, rsi, rdi, r8, r9, r10, r11, r12, r13, r14, r15⟩ := registers
    rw [SavedRegisters.read, SavedRegisters.mk.injEq]
    exact ⟨hword 0 (by decide), hword 1 (by decide), hword 2 (by decide), hword 3 (by decide), hword 4 (by decide),
      hword 5 (by decide), hword 6 (by decide), hword 7 (by decide), hword 8 (by decide), hword 9 (by decide),
      hword 10 (by decide), hword 11 (by decide), hword 12 (by decide), hword 13 (by decide), hword 14 (by decide)⟩
  refine ⟨hregisters, hword 15 (by decide), hword 16 (by decide), hword 17 (by decide), hword 18 (by decide), ?_, ?_⟩
  · cases rsp with
    | none => exact hword 19 (by decide)
    | some v =>
      refine ⟨hword 19 (by decide), ?_⟩
      rw [BitVec.add_assoc]
      exact hword 20 (by decide)
  · cases ss with
    | none => cases rsp <;> exact hword 21 (by decide)
    | some v =>
      refine ⟨?_, ?_⟩
      · cases rsp <;> exact hword 21 (by decide)
      · rw [BitVec.add_assoc]
        cases rsp <;> exact hword 22 (by decide)

/-- The words of a snapshot of the task. -/
def snapshotWords (s : Machine) (f : IretFrame) (resumeRsp : U64) : List U64 :=
  savedOrder.map s.reg ++ [f.rip, f.cs, f.rflags, resumeRsp, 1, f.rsp, 1, f.ss]

private theorem laidOut_writeWords {s : Machine} {f : IretFrame} {state : InterruptedState} (hof : state.Of s f)
    (m : Memory) (p : U64) : state.LaidOut (writeWords m p (snapshotWords s f state.returnState.resumeRsp)) p := by
  have hwords : state.words = snapshotWords s f state.returnState.resumeRsp := by
    rw [InterruptedState.words, hof.registers, hof.rip, hof.cs, hof.rflags, hof.rsp, hof.ss]
    rfl
  rw [← hwords]
  exact state.laidOut_words m p

namespace UserSample

def task : Machine := ⟨fun _ => 7, fun _ => 0, 0x401000⟩

def frame (rsp ss : U64) : IretFrame := ⟨0x401000, 0x1b, 0x202, rsp, ss⟩

/-- A snapshot of the task, and a kernel that has it in memory and is about to resume it. -/
private theorem snapshot_laidOut (rsp ss : U64) : ∃ (state : InterruptedState) (t : Machine),
    capturedState task 0x9000 (frame rsp ss) 0 0 = .returned state ∧ state.LaidOut t.mem (t.reg .rdi) ∧
      Apart (t.reg .rdi) InterruptedState.size (t.reg .rsp - 40) 40 := by
  obtain ⟨state, hcapture⟩ := capturedState_returns task (show 40 ≤ (0x9000#64).toNat by decide) (frame rsp ss) 0 0
  have hcpl : (frame rsp ss).cs &&& 3 = 3 := show (0x1b : U64) &&& 3 = 3 by decide
  have hof := capturedState_of task 0x9000 (frame rsp ss) hcpl 0 0 hcapture
  refine ⟨state, ⟨fun r => if r = .rdi then 0x5000 else 0x8000, writeWords (fun _ => 0) 0x5000
    (snapshotWords task (frame rsp ss) state.returnState.resumeRsp), 0⟩, hcapture, laidOut_writeWords hof _ _, ?_⟩
  show Apart (0x5000 : U64) 184 (0x8000 - 40) 40
  exact apart_of_le (by decide) (by decide)

/-- A task with the stack pointer `0x7ffe0000` and the user data segment comes back with the stack pointer 1 and the
segment 1. -/
theorem resumed_without_stack : ∃ (state : InterruptedState) (t : Machine),
    capturedState task 0x9000 (frame 0x7ffe0000 0x23) 0 0 = .returned state ∧ state.LaidOut t.mem (t.reg .rdi) ∧
      Apart (t.reg .rdi) InterruptedState.size (t.reg .rsp - 40) 40 ∧ poppedFrame (resumeUser t) = frame 1 1 ∧
      ¬ ResumesUser task (frame 0x7ffe0000 0x23) t := by
  obtain ⟨state, t, hcapture, hlaid, hapart⟩ := snapshot_laidOut 0x7ffe0000 0x23
  have hof := capturedState_of task 0x9000 (frame 0x7ffe0000 0x23) (by decide) 0 0 hcapture
  have hpopped := poppedFrame_resumeUser hof hlaid hapart
  refine ⟨state, t, hcapture, hlaid, hapart, hpopped, fun h => ?_⟩
  have hrsp := congrArg IretFrame.rsp (hpopped.symm.trans h.frame)
  exact absurd hrsp (by decide)

theorem resumed_with_stack_one : ∃ (state : InterruptedState) (t : Machine),
    capturedState task 0x9000 (frame 1 1) 0 0 = .returned state ∧ ResumesUser task (frame 1 1) t := by
  obtain ⟨state, t, hcapture, hlaid, hapart⟩ := snapshot_laidOut 1 1
  exact ⟨state, t, hcapture,
    (resume_user_iff task 0x9000 (frame 1 1) (by decide) 0 0 state hcapture t hlaid hapart).mpr
    ⟨rfl, rfl⟩⟩

end UserSample

end X11Os
