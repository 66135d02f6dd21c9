import X11Os.Lib.Amd64

/-!
# The voluntary context switch

`context_switch::switch` of `arch/x86_64/context_switch.rs` as its instruction sequence over the machine of
`Lib.Amd64`, and the round trip of a task that leaves the CPU through `switch(A, B)` and is resumed by another
task's `switch(X, A)`.

The save half stores `rsp` while the return address of the call is still on the stack; the restore half loads that
`rsp`, pushes the continuation and returns to it.  The two halves do not cancel: the task resumes at the right
address with its callee-saved registers, but eight bytes below the stack pointer of a normal return.
-/

namespace X11Os

open Word Amd64

/-- Register state owned by the scheduler's kernel-thread context switch. -/
structure Context where
  rsp : U64
  rbp : U64
  rbx : U64
  r12 : U64
  r13 : U64
  r14 : U64
  r15 : U64
  rip : U64
deriving DecidableEq, Repr

namespace Context

def empty : Context := ⟨0, 0, 0, 0, 0, 0, 0, 0⟩

def isInitialized (c : Context) : Bool := c.rsp != 0 && c.rip != 0

/-- The `repr(C)` layout: eight words in declaration order. -/
def words (c : Context) : List U64 := [c.rsp, c.rbp, c.rbx, c.r12, c.r13, c.r14, c.r15, c.rip]

def size : Nat := 64

def read (m : Memory) (a : U64) : Context where
  rsp := read64 m (a + 0)
  rbp := read64 m (a + 8)
  rbx := read64 m (a + 16)
  r12 := read64 m (a + 24)
  r13 := read64 m (a + 32)
  r14 := read64 m (a + 40)
  r15 := read64 m (a + 48)
  rip := read64 m (a + 56)

def write (m : Memory) (a : U64) (c : Context) : Memory := writeWords m a c.words

/-! ### A context block in memory -/

private theorem read_congr {m m' : Memory} {a : U64} (h : ∀ x, Within a size x → m x = m' x) :
    read m a = read m' a := by
  have hword : ∀ i : U64, i.toNat + 8 ≤ size → read64 m (a + i) = read64 m' (a + i) :=
    fun i hi => read64_congr fun x hx => h x (within_of_offset hi hx)
  simp only [read, hword 0 (by decide), hword 8 (by decide), hword 16 (by decide), hword 24 (by decide),
    hword 32 (by decide), hword 40 (by decide), hword 48 (by decide), hword 56 (by decide)]

private theorem read_write (m : Memory) (a : U64) (c : Context) : read (c.write m a) a = c := by
  have hword : ∀ i (hi : i < 8), read64 (c.write m a) (a + BitVec.ofNat 64 (8 * i)) = c.words[i] :=
    fun i hi => read64_writeWords (by simp [words]) hi
  have h0 : read64 (c.write m a) (a + 0) = c.rsp := hword 0 (by decide)
  have h1 : read64 (c.write m a) (a + 8) = c.rbp := hword 1 (by decide)
  have h2 : read64 (c.write m a) (a + 16) = c.rbx := hword 2 (by decide)
  have h3 : read64 (c.write m a) (a + 24) = c.r12 := hword 3 (by decide)
  have h4 : read64 (c.write m a) (a + 32) = c.r13 := hword 4 (by decide)
  have h5 : read64 (c.write m a) (a + 40) = c.r14 := hword 5 (by decide)
  have h6 : read64 (c.write m a) (a + 48) = c.r15 := hword 6 (by decide)
  have h7 : read64 (c.write m a) (a + 56) = c.rip := hword 7 (by decide)
  simp only [read, h0, h1, h2, h3, h4, h5, h6, h7]

private theorem write_of_not_within {m : Memory} {a x : U64} {c : Context} (h : ¬ Within a size x) :
    c.write m a x = m x :=
  writeWords_of_not_within (by simp [words]) h

end Context

/-! ### The instruction sequence -/

/-- `switch(current: rdi, next: rsi)`. -/
def switchCode : List Instr := [
  .store .rdi 0 .rsp,
  .store .rdi 8 .rbp,
  .store .rdi 16 .rbx,
  .store .rdi 24 .r12,
  .store .rdi 32 .r13,
  .store .rdi 40 .r14,
  .store .rdi 48 .r15,
  .load .rax .rsp 0,
  .store .rdi 56 .rax,
  .load .rsp .rsi 0,
  .load .rbp .rsi 8,
  .load .rbx .rsi 16,
  .load .r12 .rsi 24,
  .load .r13 .rsi 32,
  .load .r14 .rsi 40,
  .load .r15 .rsi 48,
  .pushMem .rsi 56,
  .ret]

/-- `call switch` with the arguments in `rdi` and `rsi`; `ra` is the address of the instruction after the call. -/
def callSwitch (s : Machine) (entry ra : U64) : Machine := (s.call entry ra).execAll switchCode

/-! ### What one switch does -/

/-- The part of the running machine that a context block describes. -/
def Context.live (s : Machine) : Context where
  rsp := s.reg .rsp
  rbp := s.reg .rbp
  rbx := s.reg .rbx
  r12 := s.reg .r12
  r13 := s.reg .r13
  r14 := s.reg .r14
  r15 := s.reg .r15
  rip := s.rip

/-- The registers that a block holds next to the continuation, in the order of its words. -/
private def contextRegs : List Reg := [.rsp, .rbp, .rbx, .r12, .r13, .r14, .r15]

private def saveHalf : List Instr :=
  Machine.saveRegs .rdi 0 contextRegs ++ [.load .rax .rsp 0, .store .rdi 56 .rax]

private def restoreHalf : List Instr := Machine.loadRegs .rsi 0 contextRegs ++ [.pushMem .rsi 56, .ret]

private theorem switchCode_halves : switchCode = saveHalf ++ restoreHalf := rfl

/-- Memory after the call pushed its return address. -/
def calledMemory (s : Machine) (ra : U64) : Memory := write64 s.mem (s.reg .rsp - 8) ra

private def savedRegs (s : Machine) : List U64 :=
  [s.reg .rsp - 8, s.reg .rbp, s.reg .rbx, s.reg .r12, s.reg .r13, s.reg .r14, s.reg .r15]

/-- What the save half leaves in the block at `rdi`.  The stack pointer is the one inside the callee, and the
continuation is the word on top of the stack once the seven registers are stored. -/
def savedContext (s : Machine) (ra : U64) : Context where
  rsp := s.reg .rsp - 8
  rbp := s.reg .rbp
  rbx := s.reg .rbx
  r12 := s.reg .r12
  r13 := s.reg .r13
  r14 := s.reg .r14
  r15 := s.reg .r15
  rip := read64 (writeWords (calledMemory s ra) (s.reg .rdi) (savedRegs s)) (s.reg .rsp - 8)

def savedMemory (s : Machine) (ra : U64) : Memory := (savedContext s ra).write (calledMemory s ra) (s.reg .rdi)

/-- The stores leave the return address alone if the block does not cover it. -/
private theorem savedContext_rip {s : Machine} {ra : U64}
    (hslot : Apart (s.reg .rdi) Context.size (s.reg .rsp - 8) 8) :
    (savedContext s ra).rip = ra := by
  have hkeep : ∀ x, Within (s.reg .rsp - 8) 8 x →
      writeWords (calledMemory s ra) (s.reg .rdi) (savedRegs s) x = calledMemory s ra x := by
    intro x hx
    refine writeWords_of_not_within (by simp [savedRegs]) fun hx' => hslot x ?_ hx
    exact Nat.lt_trans hx' (by simp [savedRegs, Context.size])
  show read64 (writeWords _ _ _) _ = ra
  rw [read64_congr hkeep, calledMemory, read64_write64]

private theorem exec_saveHalf (s : Machine) (entry ra : U64) :
    ((s.call entry ra).execAll saveHalf).mem = savedMemory s ra ∧
      ((s.call entry ra).execAll saveHalf).reg .rsi = s.reg .rsi := by
  have hregs : contextRegs.map (s.call entry ra).reg = savedRegs s := by
    simp [contextRegs, savedRegs, Machine.call, Machine.push, Machine.setReg]
  have hbase : (s.call entry ra).reg .rdi + BitVec.ofNat 64 (8 * 0) = s.reg .rdi := by
    simp [Machine.call, Machine.push, Machine.setReg]
  have hzero : s.reg .rsp - 8 + 0 = s.reg .rsp - 8 := BitVec.add_zero _
  have hlast := writeWords_concat (calledMemory s ra) (s.reg .rdi) (savedRegs s) (savedContext s ra).rip
  rw [saveHalf, Machine.execAll_append, Machine.execAll_saveRegs, hregs, hbase]
  simp only [Machine.execAll, List.foldl, Machine.exec, Machine.setReg, Machine.call, Machine.push,
    Function.update_self, hzero, ne_eq, reduceCtorEq, not_false_iff, Function.update_of_ne, and_true]
  exact hlast.symm

private theorem exec_restoreHalf (s : Machine) :
    Context.live (s.execAll restoreHalf) = Context.read s.mem (s.reg .rsi) ∧
      (s.execAll restoreHalf).mem =
        write64 s.mem ((Context.read s.mem (s.reg .rsi)).rsp - 8) (Context.read s.mem (s.reg .rsi)).rip := by
  have hbase : Reg.rsi ∉ contextRegs := by decide
  have hnd : contextRegs.Nodup := by decide
  -- `rsi` is none of the loaded registers, so every load finds the same block
  obtain ⟨hmem, -, hkeep, hget⟩ := s.execAll_loadRegs 0 hbase hnd
  have hcode : s.execAll restoreHalf =
      ((s.execAll (Machine.loadRegs .rsi 0 contextRegs)).push (Context.read s.mem (s.reg .rsi)).rip).exec .ret := by
    rw [restoreHalf, Machine.execAll_append, Context.read, ← hmem, ← hkeep .rsi hbase]
    rfl
  have hrsp : (s.execAll (Machine.loadRegs .rsi 0 contextRegs)).reg .rsp = read64 s.mem (s.reg .rsi + 0) :=
    hget 0 (by decide)
  have hrbp : (s.execAll (Machine.loadRegs .rsi 0 contextRegs)).reg .rbp = read64 s.mem (s.reg .rsi + 8) :=
    hget 1 (by decide)
  have hrbx : (s.execAll (Machine.loadRegs .rsi 0 contextRegs)).reg .rbx = read64 s.mem (s.reg .rsi + 16) :=
    hget 2 (by decide)
  have hr12 : (s.execAll (Machine.loadRegs .rsi 0 contextRegs)).reg .r12 = read64 s.mem (s.reg .rsi + 24) :=
    hget 3 (by decide)
  have hr13 : (s.execAll (Machine.loadRegs .rsi 0 contextRegs)).reg .r13 = read64 s.mem (s.reg .rsi + 32) :=
    hget 4 (by decide)
  have hr14 : (s.execAll (Machine.loadRegs .rsi 0 contextRegs)).reg .r14 = read64 s.mem (s.reg .rsi + 40) :=
    hget 5 (by decide)
  have hr15 : (s.execAll (Machine.loadRegs .rsi 0 contextRegs)).reg .r15 = read64 s.mem (s.reg .rsi + 48) :=
    hget 6 (by decide)
  rw [hcode, Machine.exec_ret_push, hrsp, hmem]
  refine ⟨?_, rfl⟩
  simp only [Context.live, Context.read, hrsp, hrbp, hrbx, hr12, hr13, hr14, hr15]

/-- One switch: the running state is the block at `rsi` as the save half left it, and memory has the return address,
the saved block and the continuation below the restored stack pointer written. -/
private theorem callSwitch_spec (s : Machine) (entry ra : U64) :
    Context.live (callSwitch s entry ra) = Context.read (savedMemory s ra) (s.reg .rsi) ∧
      (callSwitch s entry ra).mem = write64 (savedMemory s ra)
        ((Context.read (savedMemory s ra) (s.reg .rsi)).rsp - 8)
        (Context.read (savedMemory s ra) (s.reg .rsi)).rip := by
  obtain ⟨hmem, hrsi⟩ := exec_saveHalf s entry ra
  have hrestore := exec_restoreHalf ((s.call entry ra).execAll saveHalf)
  rw [hmem, hrsi, ← Machine.execAll_append, ← switchCode_halves] at hrestore
  exact hrestore

private theorem savedMemory_of_not_within {s : Machine} {ra x : U64} (hslot : ¬ Within (s.reg .rsp - 8) 8 x)
    (hblock : ¬ Within (s.reg .rdi) Context.size x) : savedMemory s ra x = s.mem x := by
  rw [savedMemory, Context.write_of_not_within hblock, calledMemory, write64_of_not_within hslot]

/-! ### The round trip -/

/-- A task leaves the CPU through `switch(A, B)` and another task later executes `switch(X, A)`.  Both machine states
are taken just before the `call`.  In between anything may happen that leaves the block `A` and the stack of the task
from the pushed return address up to `stackTop` unchanged.  The block `A` shares no byte with the other things the two
switches write: the return addresses the calls push, the block `X`, and the word below the stack pointer of `B`. -/
structure RoundTrip where
  entry : U64
  leaving : Machine
  ra : U64
  stackTop : U64
  resuming : Machine
  resumingRa : U64
  slot_apart : Apart (leaving.reg .rdi) Context.size (leaving.reg .rsp - 8) 8
  next_apart : Apart (leaving.reg .rdi) Context.size
    ((Context.read (savedMemory leaving ra) (leaving.reg .rsi)).rsp - 8) 8
  resumes_left : resuming.reg .rsi = leaving.reg .rdi
  block_kept : ∀ x, Within (leaving.reg .rdi) Context.size x →
    resuming.mem x = (callSwitch leaving entry ra).mem x
  stack_kept : ∀ x, (leaving.reg .rsp - 8).toNat ≤ x.toNat → x.toNat < stackTop.toNat →
    resuming.mem x = (callSwitch leaving entry ra).mem x
  other_apart : Apart (leaving.reg .rdi) Context.size (resuming.reg .rdi) Context.size
  other_slot_apart : Apart (leaving.reg .rdi) Context.size (resuming.reg .rsp - 8) 8

namespace RoundTrip

/-- The machine after the first switch, when the task has left. -/
def left (t : RoundTrip) : Machine := callSwitch t.leaving t.entry t.ra

/-- The machine after the second switch, when the task runs again. -/
def resumed (t : RoundTrip) : Machine := callSwitch t.resuming t.entry t.resumingRa

/-- The task goes on as after a normal return from its call. -/
structure ReturnsNormally (t : RoundTrip) : Prop where
  rip : t.resumed.rip = t.ra
  rsp : t.resumed.reg .rsp = t.leaving.reg .rsp
  callee_saved : ∀ r ∈ [Reg.rbp, .rbx, .r12, .r13, .r14, .r15], t.resumed.reg r = t.leaving.reg r
  stack_unwritten : ∀ x, (t.leaving.reg .rsp).toNat ≤ x.toNat → x.toNat < t.stackTop.toNat →
    t.left.mem x = t.leaving.mem x ∧ t.resumed.mem x = t.resuming.mem x

private theorem read_left (t : RoundTrip) :
    Context.read t.left.mem (t.leaving.reg .rdi) = savedContext t.leaving t.ra := by
  obtain ⟨-, hmem⟩ := callSwitch_spec t.leaving t.entry t.ra
  have hpush : ∀ x, Within (t.leaving.reg .rdi) Context.size x → t.left.mem x = savedMemory t.leaving t.ra x := by
    intro x hx
    rw [left, hmem, write64_of_not_within (t.next_apart x hx)]
  rw [Context.read_congr hpush, savedMemory, Context.read_write]

/-- What the second switch restores is what the first one saved. -/
private theorem live_resumed (t : RoundTrip) : Context.live t.resumed = savedContext t.leaving t.ra := by
  obtain ⟨hlive, -⟩ := callSwitch_spec t.resuming t.entry t.resumingRa
  have hsaved : ∀ x, Within (t.leaving.reg .rdi) Context.size x →
      savedMemory t.resuming t.resumingRa x = t.left.mem x := by
    intro x hx
    rw [savedMemory_of_not_within (t.other_slot_apart x hx) (t.other_apart x hx), t.block_kept x hx, left]
  rw [resumed, hlive, t.resumes_left, Context.read_congr hsaved, read_left]

/-- The task resumes at the return address with its callee-saved registers, eight bytes below the stack pointer it had
before the call. -/
private theorem resumed_registers (t : RoundTrip) :
    t.resumed.rip = t.ra ∧ t.resumed.reg .rsp = t.leaving.reg .rsp - 8 ∧
      ∀ r ∈ [Reg.rbp, .rbx, .r12, .r13, .r14, .r15], t.resumed.reg r = t.leaving.reg r := by
  have hlive := t.live_resumed
  have hra : (savedContext t.leaving t.ra).rip = t.ra := savedContext_rip t.slot_apart
  rw [savedContext] at hra
  dsimp only at hra
  rw [Context.live, savedContext, hra, Context.mk.injEq] at hlive
  obtain ⟨hrsp, hrbp, hrbx, hr12, hr13, hr14, hr15, hrip⟩ := hlive
  refine ⟨hrip, hrsp, fun r hr => ?_⟩
  simp only [List.mem_cons, List.not_mem_nil, or_false] at hr
  rcases hr with rfl | rfl | rfl | rfl | rfl | rfl
  · exact hrbp
  · exact hrbx
  · exact hr12
  · exact hr13
  · exact hr14
  · exact hr15

private theorem sub_eight_ne (a : U64) : a - 8 ≠ a := by
  intro h
  have := congrArg BitVec.toNat h
  have ha := a.isLt
  rw [BitVec.toNat_sub, show (8 : U64).toNat = 8 from rfl] at this
  omega

/-- No round trip ends as a normal return would: the stack pointer is always eight bytes too low. -/
theorem not_returnsNormally (t : RoundTrip) : ¬ t.ReturnsNormally := by
  intro h
  obtain ⟨-, hrsp, -⟩ := t.resumed_registers
  exact sub_eight_ne (t.leaving.reg .rsp) (hrsp.symm.trans h.rsp)

/-- A task with the stack pointer `0x9000` and the block `0x1000`, about to switch to the block `0x2000`. -/
def sampleLeaving : Machine where
  reg := fun r => if r = .rsp then 0x9000 else if r = .rdi then 0x1000 else if r = .rsi then 0x2000 else 0
  mem := Context.write (fun _ => 0) 0x2000 { Context.empty with rsp := 0x8000, rip := 0x500000 }
  rip := 0x600000

/-- The task of the block `0x2000`, about to switch straight back. -/
def sampleResuming : Machine where
  reg := fun r => if r = .rsp then 0x8000 else if r = .rdi then 0x2000 else if r = .rsi then 0x1000 else 0
  mem := (callSwitch sampleLeaving 0x400000 0x600005).mem
  rip := 0x500000

def sample : RoundTrip where
  entry := 0x400000
  leaving := sampleLeaving
  ra := 0x600005
  stackTop := 0xa000
  resuming := sampleResuming
  resumingRa := 0x500005
  slot_apart := apart_of_le (by decide) (by decide)
  next_apart := apart_of_le (by decide) (by decide)
  resumes_left := rfl
  block_kept := fun x _ => rfl
  stack_kept := fun x _ _ => rfl
  other_apart := apart_of_le (by decide) (by decide)
  other_slot_apart := apart_of_le (by decide) (by decide)

/-- The call was made with the stack pointer at `0x9000`; the task resumes with `0x8ff8`. -/
theorem sample_stack_pointer_too_low :
    sample.leaving.reg .rsp = 0x9000 ∧ sample.resumed.reg .rsp = 0x8ff8 ∧ sample.resumed.rip = sample.ra ∧
      ¬ sample.ReturnsNormally := by
  obtain ⟨hrip, hrsp, -⟩ := sample.resumed_registers
  have hleaving : sample.leaving.reg .rsp = 0x9000 := by decide
  refine ⟨hleaving, hrsp.trans (by rw [hleaving]; rfl), hrip, fun h => ?_⟩
  have := hrsp.symm.trans h.rsp
  rw [hleaving] at this
  exact absurd this (by decide)

end RoundTrip

end X11Os
