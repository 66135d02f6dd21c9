import X11Os.Lib.Hoare
import X11Os.Memory.AddressSpace
import X11Os.Timer.Clock

/-!
# The local APIC timer

The timer device (`arch/x86_64/lapic_timer.rs`) on its machine: the registers it writes, what its counter and the
time stamp counter answer, and the driver's own record.  A calibration waits for the time stamp counter; the
readings it gets are a list, and a list that ends before the wait is over stands for a wait that does not end, of
which there is no result.

A calibration that succeeds records its first reading and the frequency of the clock source (`calibrate_ends`); no
other operation changes the record, whichever way it ends.
-/

namespace X11Os

open Word

inductive ApicMode where
  | xApic
  | x2Apic
deriving DecidableEq, Repr

def timerVector : U32 := 32

inductive LapicTimerError where
  | unsupportedMode
  | unsupportedTscDeadline
  | invalidMapping
  | calibrationFailed
  | frequencyOverflow
  | notCalibrated
  | intervalTooLarge
  | deadlineOverflow
deriving DecidableEq, Repr

def lvtTimerOffset : U64 := 0x320
def timerInitCountOffset : U64 := 0x380
def timerCurrentCountOffset : U64 := 0x390
def timerDivideOffset : U64 := 0x3E0

def x2ApicLvtTimer : U32 := 0x832
def x2ApicInitCount : U32 := 0x838
def x2ApicCurrentCount : U32 := 0x839
def x2ApicDivideConfig : U32 := 0x83E

def ia32TscDeadline : U32 := 0x6E0
def tscDeadlineBit : U32 := 1 <<< 24

def lvtMasked : U32 := 1 <<< 16
def lvtPeriodic : U32 := 1 <<< 17
def maxInitialCount : U32 := u32Max
def divideBy16Encoding : U32 := 0b0011
def calibrationTscNanos : U64 := 10000000

/-- Timer ticks a second after the divisor.  A calibration never yields none. -/
structure LapicTimerFrequency where
  hz : U64
  ne_zero : hz ≠ 0
deriving Repr

private theorem LapicTimerFrequency.eq_iff {a b : LapicTimerFrequency} : a = b ↔ a.hz = b.hz := by
  cases a
  cases b
  rw [mk.injEq]

instance : DecidableEq LapicTimerFrequency := fun _ _ => decidable_of_iff' _ LapicTimerFrequency.eq_iff

def LapicTimerFrequency.nonzero (hz : U64) : Option LapicTimerFrequency := if h : hz = 0 then none else some ⟨hz, h⟩

/-- The driver's record.  A model specific register is its number. -/
structure LapicTimer where
  mode : ApicMode
  mmioBase : Option U64
  frequency : Option LapicTimerFrequency
  tscDeadlineSupported : Bool
  tscStartTicks : Option U64
  tscFrequencyHz : Option U64
  lvtTimer : Option U32
  initCount : Option U32
  currentCount : Option U32
  divideConfig : Option U32
  tscDeadline : U32
  tscDeadline_eq : tscDeadline = ia32TscDeadline
deriving DecidableEq, Repr

/-- The driver and its machine: what RDTSC will read, what the registers answer, and what was last written to them. -/
structure TimerMachine where
  timer : LapicTimer
  readings : List U64
  readMsr : U32 → U64
  readMmio : U64 → U32
  msr : U32 → U64
  mmio : U64 → U32

namespace LapicTimer

/-- `apicBase` is the address in IA32_APIC_BASE, `ecx` that register of CPUID leaf 1. -/
def new (mode : ApicMode) (mapping : Option PhysicalMemoryMapping) (apicBase : U64) (ecx : U32) :
    Except LapicTimerError LapicTimer :=
  let tscDeadlineSupported := ecx &&& tscDeadlineBit != 0
  match mode with
  | .xApic =>
    match mapping with
    | none => .error .unsupportedMode
    | some mapping =>
      match mapping.translate apicBase with
      | none => .error .invalidMapping
      | some mapped =>
        .ok ⟨mode, some mapped, none, tscDeadlineSupported, none, none, none, none, none, none, ia32TscDeadline, rfl⟩
  | .x2Apic =>
    .ok ⟨mode, none, none, tscDeadlineSupported, none, none, some x2ApicLvtTimer, some x2ApicInitCount,
      some x2ApicCurrentCount, some x2ApicDivideConfig, ia32TscDeadline, rfl⟩

end LapicTimer

namespace TimerMachine

abbrev Op := Exec TimerMachine LapicTimerError

def writeMsr (msr : U32) (value : U64) : Op Unit := modify fun m => { m with msr := Function.update m.msr msr value }

def writeRegister (mode : ApicMode) (mmioBase : Option U64) (offset : U64) (msr : Option U32) (value : U32) :
    Op Unit :=
  match mode with
  | .xApic => do
    let base ← okOr mmioBase .invalidMapping
    let address ← okOr (checkedAdd base offset) .invalidMapping
    modify fun m => { m with mmio := Function.update m.mmio address value }
  | .x2Apic => do
    let msr ← okOr msr .unsupportedMode
    writeMsr msr (value.setWidth 64)

def readRegister (mode : ApicMode) (mmioBase : Option U64) (offset : U64) (msr : Option U32) : Op U32 :=
  match mode with
  | .xApic => do
    let base ← okOr mmioBase .invalidMapping
    let address ← okOr (checkedAdd base offset) .invalidMapping
    let m ← get
    pure (m.readMmio address)
  | .x2Apic => do
    let msr ← okOr msr .unsupportedMode
    let m ← get
    pure ((m.readMsr msr).setWidth 32)

def writeLvt (value : U32) : Op Unit := do
  let m ← get
  writeRegister m.timer.mode m.timer.mmioBase lvtTimerOffset m.timer.lvtTimer value

def writeInitial (value : U32) : Op Unit := do
  let m ← get
  writeRegister m.timer.mode m.timer.mmioBase timerInitCountOffset m.timer.initCount value

def writeDivide (value : U32) : Op Unit := do
  let m ← get
  writeRegister m.timer.mode m.timer.mmioBase timerDivideOffset m.timer.divideConfig value

def readCurrent : Op U32 := do
  let m ← get
  readRegister m.timer.mode m.timer.mmioBase timerCurrentCountOffset m.timer.currentCount

/-- RDTSC. -/
def readTicks : Op U64 := ExceptT.mk fun m =>
  match m.readings with
  | [] => .panicked
  | ticks :: rest => .returned (.ok ticks, { m with readings := rest })

/-- The readings that are left when the wait is over. -/
def spin (start targetTicks : U64) : List U64 → Option (List U64)
  | [] => none
  | current :: rest => if current - start ≥ targetTicks then some rest else spin start targetTicks rest

def waitFor (start targetTicks : U64) : Op Unit := ExceptT.mk fun m =>
  match spin start targetTicks m.readings with
  | none => .panicked
  | some rest => .returned (.ok (), { m with readings := rest })

def record (frequency : LapicTimerFrequency) (start tscHz : U64) (t : LapicTimer) : LapicTimer :=
  { t with frequency := some frequency, tscStartTicks := some start, tscFrequencyHz := some tscHz }

def calibrate (tsc : TscClocksource) : Op LapicTimerFrequency := do
  writeDivide divideBy16Encoding
  writeLvt (timerVector ||| lvtMasked)
  writeInitial maxInitialCount
  let tscHz := tsc.frequency.hz
  let product ← okOr (checkedMul tscHz calibrationTscNanos) .frequencyOverflow
  let targetTicks := product / 1000000000
  reject (targetTicks = 0) .calibrationFailed
  let start ← readTicks
  waitFor start targetTicks
  let currentCount ← readCurrent
  -- the subtraction saturates in the source, and nothing exceeds the largest count
  let elapsedCount : U64 := (maxInitialCount - currentCount).setWidth 64
  reject (elapsedCount = 0) .calibrationFailed
  let scaled ← okOr (checkedMul elapsedCount 1000000000) .frequencyOverflow
  let frequency ← okOr (LapicTimerFrequency.nonzero (scaled / calibrationTscNanos)) .calibrationFailed
  modify fun m => { m with timer := record frequency start tscHz m.timer }
  writeInitial 0
  writeLvt (timerVector ||| lvtMasked)
  pure frequency

end TimerMachine

/-- The arithmetic of `deadlineToTsc`, in 128 bits. -/
def tscTarget (start frequency nanos : U64) : Option U64 :=
  ((checkedMul (nanos.setWidth 128) (frequency.setWidth 128)).bind fun value =>
    checkedAdd (start.setWidth 128 : U128) (value / 1000000000)).bind (tryFrom 64)

def LapicTimer.deadlineToTsc (t : LapicTimer) (deadline : MonotonicTime) : Except LapicTimerError U64 :=
  match t.tscStartTicks, t.tscFrequencyHz with
  | none, _ => .error .notCalibrated
  | some _, none => .error .notCalibrated
  | some start, some frequency =>
    match tscTarget start frequency deadline.nanos with
    | none => .error .deadlineOverflow
    | some tscDeadline => .ok tscDeadline

namespace TimerMachine

def setPeriodic (interval : TimerInterval) : Op Unit := do
  let m ← get
  let frequency ← okOr m.timer.frequency .notCalibrated
  let product ← okOr (checkedMul frequency.hz interval.nanos) .intervalTooLarge
  let initial ← okOr (tryFrom 32 (product / 1000000000)) .intervalTooLarge
  reject (initial = 0) .intervalTooLarge
  writeLvt (timerVector ||| lvtPeriodic)
  writeInitial initial

def setDeadline (deadline : TimerDeadline) : Op Unit := do
  let m ← get
  reject (m.timer.tscDeadlineSupported = false) .unsupportedTscDeadline
  let tscDeadline ← Exec.orThrow id (m.timer.deadlineToTsc deadline.time)
  writeInitial 0
  writeLvt timerVector
  writeMsr m.timer.tscDeadline tscDeadline

def disable : Op Unit := do
  let m ← get
  writeMsr m.timer.tscDeadline 0
  writeInitial 0
  writeLvt (timerVector ||| lvtMasked)

/-! ### What the operations leave of the record -/

section Frame

variable {t : LapicTimer} {l : List U64}

/-- The driver's record is `t`, and the time stamp counter has not been read. -/
def Records (t : LapicTimer) (l : List U64) (m : TimerMachine) : Prop := m.timer = t ∧ m.readings = l

private theorem writeMsr_keeps {msr : U32} {value : U64} : Exec.Keeps (Records t l) (writeMsr msr value) :=
  .modify fun _ hm => hm

private theorem writeRegister_keeps {mode : ApicMode} {mmioBase : Option U64} {offset : U64} {msr : Option U32}
    {value : U32} :
    Exec.Keeps (Records t l) (writeRegister mode mmioBase offset msr value) := by
  cases mode with
  | xApic => exact .bind .okOr fun _ => .bind .okOr fun _ => .modify fun _ hm => hm
  | x2Apic => exact .bind .okOr fun _ => writeMsr_keeps

private theorem readRegister_keeps {mode : ApicMode} {mmioBase : Option U64} {offset : U64} {msr : Option U32} :
    Exec.Keeps (Records t l) (readRegister mode mmioBase offset msr) := by
  cases mode with
  | xApic => exact .bind .okOr fun _ => .bind .okOr fun _ => .bind .get fun _ => .pure
  | x2Apic => exact .bind .okOr fun _ => .bind .get fun _ => .pure

theorem writeLvt_keeps {value : U32} : Exec.Keeps (Records t l) (writeLvt value) :=
  .bind .get fun _ => writeRegister_keeps

private theorem writeInitial_keeps {value : U32} : Exec.Keeps (Records t l) (writeInitial value) :=
  .bind .get fun _ => writeRegister_keeps

theorem writeDivide_keeps {value : U32} : Exec.Keeps (Records t l) (writeDivide value) :=
  .bind .get fun _ => writeRegister_keeps

private theorem readCurrent_keeps : Exec.Keeps (Records t l) readCurrent := .bind .get fun _ => readRegister_keeps

theorem setPeriodic_keeps {interval : TimerInterval} : Exec.Keeps (Records t l) (setPeriodic interval) :=
  .bind .get fun _ => .bind .okOr fun _ => .bind .okOr fun _ => .bind .okOr fun _ => .bind .reject fun _ =>
    .bind writeLvt_keeps fun _ => writeInitial_keeps

theorem setDeadline_keeps {deadline : TimerDeadline} : Exec.Keeps (Records t l) (setDeadline deadline) :=
  .bind .get fun _ => .bind .reject fun _ => .bind .orThrow fun _ => .bind writeInitial_keeps fun _ =>
    .bind writeLvt_keeps fun _ => writeMsr_keeps

theorem disable_keeps : Exec.Keeps (Records t l) disable :=
  .bind .get fun _ => .bind writeMsr_keeps fun _ => .bind writeInitial_keeps fun _ => writeLvt_keeps

end Frame

variable {m : TimerMachine}

private theorem readTicks_ends : Exec.Ends readTicks m
    (fun ticks m' => ∃ rest, m.readings = ticks :: rest ∧ Records m.timer rest m') fun _ _ => True := by
  intro r hr
  change (match m.readings with
    | [] => Panics.panicked
    | ticks :: rest => .returned (Except.ok ticks, { m with readings := rest })) = _ at hr
  split at hr
  · cases hr
  · rename_i ticks rest hreadings
    cases hr
    exact ⟨rest, hreadings, rfl, rfl⟩

private theorem waitFor_ends {start targetTicks : U64} : Exec.Ends (waitFor start targetTicks) m
    (fun _ m' => ∃ rest, Records m.timer rest m') fun _ _ => True := by
  intro r hr
  change (match spin start targetTicks m.readings with
    | none => Panics.panicked
    | some rest => .returned (Except.ok (), { m with readings := rest })) = _ at hr
  split at hr
  · cases hr
  · rename_i rest _
    cases hr
    exact ⟨rest, rfl, rfl⟩

/-- A calibration that succeeds records its first reading, and not the start of the clock source. -/
theorem calibrate_ends {tsc : TscClocksource} : Exec.Ends (calibrate tsc) m
    (fun frequency m' => ∃ start rest, m.readings = start :: rest ∧
      m'.timer = record frequency start tsc.frequency.hz m.timer) fun _ _ => True := by
  refine .next (writeDivide_keeps m ⟨rfl, rfl⟩) fun _ m₁ h₁ => ?_
  refine .next (writeLvt_keeps m₁ h₁) fun _ m₂ h₂ => ?_
  refine .next (writeInitial_keeps m₂ h₂) fun _ m₃ h₃ => ?_
  refine .okOr (fun _ => trivial) fun product _ => .reject (fun _ => trivial) fun _ => ?_
  refine .next readTicks_ends fun start m₄ h₄ => ?_
  obtain ⟨rest, hreadings, htimer, -⟩ := h₄
  rw [h₃.2] at hreadings
  rw [h₃.1] at htimer
  refine .next waitFor_ends fun _ m₅ h₅ => ?_
  obtain ⟨left, h₅⟩ := h₅
  rw [htimer] at h₅
  refine .next (readCurrent_keeps m₅ h₅) fun count m₆ h₆ => ?_
  refine .reject (fun _ => trivial) fun _ => .okOr (fun _ => trivial) fun scaled _ => ?_
  refine .okOr (fun _ => trivial) fun frequency _ => .after Exec.Runs.modify ?_
  have h₇ : Records (record frequency start tsc.frequency.hz m.timer) left
      { m₆ with timer := record frequency start tsc.frequency.hz m₆.timer } := ⟨by rw [h₆.1], h₆.2⟩
  refine .next (writeInitial_keeps _ h₇) fun _ m₈ h₈ => ?_
  refine .next (writeLvt_keeps m₈ h₈) fun _ m₉ h₉ => ?_
  exact .pure ⟨start, rest, hreadings, h₉.1⟩

/-- A deadline that is set stands in IA32_TSC_DEADLINE. -/
theorem setDeadline_ends {deadline : TimerDeadline} : Exec.Ends (setDeadline deadline) m
    (fun _ m' => m.timer.deadlineToTsc deadline.time = .ok (m'.msr ia32TscDeadline)) fun _ _ => True := by
  refine .after Exec.Runs.get (.reject (fun _ => trivial) fun _ => ?_)
  cases hd : m.timer.deadlineToTsc deadline.time with
  | error e => exact .bind (.throw trivial)
  | ok tscDeadline =>
    refine .after (Exec.Runs.orThrow rfl) ?_
    refine .next (Exec.Ends.trivial _ _) fun _ m₁ _ => ?_
    refine .next (Exec.Ends.trivial _ _) fun _ m₂ _ => ?_
    intro r hr
    cases hr
    show Except.ok tscDeadline = .ok (Function.update m₂.msr m.timer.tscDeadline tscDeadline ia32TscDeadline)
    rw [m.timer.tscDeadline_eq, Function.update_self]

end TimerMachine

/-! ### The tick of a deadline -/

private theorem toNat_setWidth_wide (x : U64) : (x.setWidth 128 : U128).toNat = x.toNat := by
  have hx := x.isLt
  rw [BitVec.toNat_setWidth, Nat.mod_eq_of_lt (by omega)]

private theorem tscTarget_eq_some {start frequency nanos d : U64} :
    tscTarget start frequency nanos = some d ↔
    d.toNat = start.toNat + nanos.toNat * frequency.toNat / 1000000000 := by
  have hbillion : (1000000000 : U128).toNat = 1000000000 := by decide
  have hfits : (nanos.setWidth 128 : U128).toNat * (frequency.setWidth 128 : U128).toNat < 2 ^ 128 := by
    rw [toNat_setWidth_wide, toNat_setWidth_wide, show (2 : Nat) ^ 128 = 2 ^ 64 * 2 ^ 64 by decide]
    exact Nat.mul_lt_mul'' nanos.isLt frequency.isLt
  unfold tscTarget
  rw [Option.bind_eq_some_iff]
  constructor
  · intro h
    obtain ⟨sum, hsum, hd⟩ := h
    rw [checkedMul_bind_checkedAdd_div_eq_some hfits, hbillion] at hsum
    rw [tryFrom_eq_some] at hd
    rw [hd, hsum, toNat_setWidth_wide, toNat_setWidth_wide, toNat_setWidth_wide]
  · intro h
    refine ⟨d.setWidth 128, ?_, ?_⟩
    · rw [checkedMul_bind_checkedAdd_div_eq_some hfits, hbillion, toNat_setWidth_wide, toNat_setWidth_wide,
        toNat_setWidth_wide, toNat_setWidth_wide]
      exact h
    · rw [tryFrom_eq_some, toNat_setWidth_wide]

/-- Where the record is complete, a deadline lies its own length after the recorded tick. -/
theorem LapicTimer.deadlineToTsc_eq_ok {t : LapicTimer} {deadline : MonotonicTime} {start frequency d : U64}
    (hstart : t.tscStartTicks = some start) (hfrequency : t.tscFrequencyHz = some frequency) :
    t.deadlineToTsc deadline = .ok d ↔
      d.toNat = start.toNat + deadline.nanos.toNat * frequency.toNat / 1000000000 := by
  rw [← tscTarget_eq_some]
  unfold LapicTimer.deadlineToTsc
  rw [hstart, hfrequency]
  dsimp only
  cases tscTarget start frequency deadline.nanos with
  | none => simp only [reduceCtorEq]
  | some target => simp only [Except.ok.injEq, Option.some.injEq]

end X11Os
