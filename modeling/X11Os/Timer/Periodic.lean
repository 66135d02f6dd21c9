import X11Os.Timer.Deadline

/-!
# The periodic timer

`set_periodic` multiplies frequency and interval in 64 bits before it divides.  A product that does not fit belongs to
a count that does not fit into the register either, so the count that is programmed is the one of the unbounded
integers, and an interval is refused exactly if that count is zero or too large (`setPeriodic_exact`).  A refused
interval leaves the machine as it was.
-/

namespace X11Os

open Word Exec

/-! ### The registers of a timer -/

inductive TimerRegister where
  | mmio (address : U64)
  | msr (number : U32)
deriving DecidableEq, Repr

namespace LapicTimer

/-- The register that `write_register` and `read_register` come to. -/
def register (t : LapicTimer) (offset : U64) (msr : Option U32) : Option TimerRegister :=
  match t.mode with
  | .xApic => t.mmioBase.bind fun base => (checkedAdd base offset).map .mmio
  | .x2Apic => msr.map .msr

def lvtRegister (t : LapicTimer) : Option TimerRegister := t.register lvtTimerOffset t.lvtTimer

def initialRegister (t : LapicTimer) : Option TimerRegister := t.register timerInitCountOffset t.initCount

def withFrequency (t : LapicTimer) (f : LapicTimerFrequency) : LapicTimer := { t with frequency := some f }

end LapicTimer

namespace TimerMachine

variable {m : TimerMachine} {t : LapicTimer} {r : TimerRegister} {value : U32}

def store (m : TimerMachine) (r : TimerRegister) (value : U32) : TimerMachine :=
  match r with
  | .mmio address => { m with mmio := Function.update m.mmio address value }
  | .msr number => { m with msr := Function.update m.msr number (value.setWidth 64) }

/-- What was last written to a register. -/
def stored (m : TimerMachine) : TimerRegister → U32
  | .mmio address => m.mmio address
  | .msr number => (m.msr number).setWidth 32

private theorem stored_store : (m.store r value).stored r = value := by
  cases r with
  | mmio address => exact Function.update_self ..
  | msr number =>
    show (Function.update m.msr number (value.setWidth 64) number).setWidth 32 = value
    rw [Function.update_self]
    apply BitVec.eq_of_toNat_eq
    have hvalue := value.isLt
    rw [BitVec.toNat_setWidth, BitVec.toNat_setWidth]
    omega

@[simp] theorem timer_store : (m.store r value).timer = m.timer := by cases r <;> rfl

/-- A write goes to the register of the timer. -/
private theorem writeRegister_runs {offset : U64} {msr : Option U32} (h : t.register offset msr = some r) :
    Runs (writeRegister t.mode t.mmioBase offset msr value) m () (m.store r value) := by
  unfold LapicTimer.register at h
  cases hmode : t.mode with
  | xApic =>
    rw [hmode] at h
    obtain ⟨base, hbase, hregister⟩ := Option.bind_eq_some_iff.mp h
    obtain ⟨address, haddress, rfl⟩ := Option.map_eq_some_iff.mp hregister
    exact .bind (.okOr hbase) (.bind (.okOr haddress) .modify)
  | x2Apic =>
    rw [hmode] at h
    obtain ⟨number, hnumber, rfl⟩ := Option.map_eq_some_iff.mp h
    exact .bind (.okOr hnumber) .modify

/-- A write that succeeds has found its register. -/
private theorem writeRegister_found {offset : U64} {msr : Option U32} :
    Ends (writeRegister t.mode t.mmioBase offset msr value) m (fun _ _ => (t.register offset msr).isSome = true)
      fun _ _ => True := by
  unfold LapicTimer.register
  cases t.mode with
  | xApic =>
    refine .okOr (fun _ => trivial) fun base hbase => .okOr (fun _ => trivial) fun address haddress => ?_
    refine (Ends.trivial _ _).imp (fun _ _ _ => ?_) fun _ _ _ => trivial
    simp only [hbase, Option.bind_some, haddress, Option.map_some, Option.isSome_some]
  | x2Apic =>
    refine .okOr (fun _ => trivial) fun number hnumber => ?_
    refine (Ends.trivial _ _).imp (fun _ _ _ => ?_) fun _ _ _ => trivial
    simp only [hnumber, Option.map_some, Option.isSome_some]

private theorem writeLvt_runs (h : m.timer.lvtRegister = some r) : Runs (writeLvt value) m () (m.store r value) :=
  .bind .get (writeRegister_runs h)

private theorem writeInitial_runs (h : m.timer.initialRegister = some r) :
    Runs (writeInitial value) m () (m.store r value) :=
  .bind .get (writeRegister_runs h)

private theorem writeLvt_found : Ends (writeLvt value) m (fun _ _ => m.timer.lvtRegister.isSome = true)
    fun _ _ => True :=
  .after .get writeRegister_found

private theorem writeInitial_found :
    Ends (writeInitial value) m (fun _ _ => m.timer.initialRegister.isSome = true) fun _ _ => True :=
  .after .get writeRegister_found

/-- A calibration that succeeds has written to both registers. -/
private theorem calibrate_found {tsc : TscClocksource} : Ends (calibrate tsc) m
    (fun _ _ => m.timer.lvtRegister.isSome = true ∧ m.timer.initialRegister.isSome = true) fun _ _ => True := by
  refine .next (writeDivide_keeps m ⟨rfl, rfl⟩) fun _ m₁ h₁ => ?_
  refine .next ((writeLvt_keeps m₁ h₁).and writeLvt_found) fun _ m₂ h₂ => ?_
  refine .next writeInitial_found fun _ _ hinitial => ?_
  refine (Ends.trivial _ _).imp (fun _ _ _ => ?_) fun _ _ _ => trivial
  rw [h₁.1] at h₂
  rw [h₂.1.1] at hinitial
  exact ⟨h₂.2, hinitial⟩

private theorem CalibratedAt.registers {c : TscClocksource} {k : U64} (h : CalibratedAt c k m) :
    m.timer.lvtRegister.isSome = true ∧ m.timer.initialRegister.isSome = true := by
  apply h.of_calibrate (P := fun t => t.lvtRegister.isSome = true ∧ t.initialRegister.isSome = true)
  intro m m' frequency rest _ h
  obtain ⟨start, _, _, htimer⟩ := calibrate_ends.of_ok h
  rw [htimer]
  exact calibrate_found.of_ok h

end TimerMachine

/-! ### The count -/

/-- The count for an interval of `i` nanoseconds at `f` ticks a second, in unbounded integers. -/
def reloadCount (f i : Nat) : Nat := f * i / 1000000000

/-- A product that does not fit in 64 bits stands for a count that does not fit in 32. -/
private theorem reloadCount_of_overflow {f i : U64} (h : checkedMul f i = none) :
    2 ^ 32 - 1 < reloadCount f.toNat i.toNat := by
  have hlarge : 2 ^ 64 ≤ f.toNat * i.toNat := by
    by_contra hlt
    rw [checkedMul_of_lt (Nat.not_le.mp hlt)] at h
    cases h
  unfold reloadCount
  rw [Nat.lt_div_iff_mul_lt (by omega)]
  omega

/-- The count that `set_periodic` computes, where it fits in the register. -/
private theorem reload_eq_some {f i : U64} {n : U32} :
    ((checkedMul f i).bind fun product => tryFrom 32 (product / 1000000000)) = some n ↔
      n.toNat = reloadCount f.toNat i.toNat := by
  have hbillion : (1000000000 : U64).toNat = 1000000000 := by decide
  have hn := n.isLt
  cases hproduct : checkedMul f i with
  | none =>
    have hlarge := reloadCount_of_overflow hproduct
    simp only [Option.bind_none, reduceCtorEq, false_iff]
    omega
  | some product =>
    rw [checkedMul_eq_some] at hproduct
    rw [Option.bind_some, tryFrom_eq_some, BitVec.toNat_udiv, hbillion, hproduct]
    rfl

/-- No count of ticks is too large for the arithmetic of `calibrate`. -/
private theorem calibration_fits (elapsedCount : U32) :
    ∃ scaled : U64, checkedMul (elapsedCount.setWidth 64) 1000000000 = some scaled ∧
      (scaled / calibrationTscNanos).toNat = 100 * elapsedCount.toNat := by
  have hlt := elapsedCount.isLt
  have hbillion : (1000000000 : U64).toNat = 1000000000 := by decide
  have hnanos : calibrationTscNanos.toNat = 10000000 := by decide
  have hwide : (elapsedCount.setWidth 64 : U64).toNat = elapsedCount.toNat := by
    rw [BitVec.toNat_setWidth]
    omega
  have hfits : (elapsedCount.setWidth 64 : U64).toNat * (1000000000 : U64).toNat < 2 ^ 64 := by
    rw [hwide, hbillion]
    omega
  refine ⟨_, checkedMul_of_lt hfits, ?_⟩
  rw [BitVec.toNat_udiv, BitVec.toNat_mul, Nat.mod_eq_of_lt hfits, hwide, hbillion, hnanos]
  omega

/-! ### Programming the count -/

namespace TimerMachine

variable {m : TimerMachine} {f : LapicTimerFrequency} {interval : TimerInterval}

/-- Only the registers and the frequency of the timer matter. -/
private theorem setPeriodic_runs {lvt initial : TimerRegister} {n : U32} (hf : m.timer.frequency = some f)
    (hlvt : m.timer.lvtRegister = some lvt) (hinitial : m.timer.initialRegister = some initial)
    (hn : n.toNat = reloadCount f.hz.toNat interval.nanos.toNat) (hpos : n ≠ 0) :
    Runs (setPeriodic interval) m () ((m.store lvt (timerVector ||| lvtPeriodic)).store initial n) := by
  obtain ⟨product, hproduct, hcount⟩ := Option.bind_eq_some_iff.mp (reload_eq_some.mpr hn)
  refine .bind .get (.bind (.okOr hf) (.bind (.okOr hproduct) (.bind (.okOr hcount) (.bind (.reject hpos) ?_))))
  refine .bind (writeLvt_runs hlvt) (writeInitial_runs ?_)
  rw [timer_store, hinitial]

private theorem setPeriodic_refuses (hf : m.timer.frequency = some f)
    (hn : ¬ (1 ≤ reloadCount f.hz.toNat interval.nanos.toNat ∧
      reloadCount f.hz.toNat interval.nanos.toNat ≤ 2 ^ 32 - 1)) :
    Fails (setPeriodic interval) m .intervalTooLarge m := by
  refine .after .get (.after (.okOr hf) ?_)
  cases hproduct : checkedMul f.hz interval.nanos with
  | none => exact .first (.okOr rfl)
  | some product =>
    refine .after (.okOr rfl) ?_
    cases hcount : tryFrom 32 (product / 1000000000) with
    | none => exact .first (.okOr rfl)
    | some n =>
      have hvalue : n.toNat = reloadCount f.hz.toNat interval.nanos.toNat := by
        rw [← reload_eq_some, hproduct, Option.bind_some, hcount]
      have hzero : n = 0 := by
        have hlt := n.isLt
        apply BitVec.eq_of_toNat_eq
        rw [show (0 : U32).toNat = 0 from rfl]
        omega
      exact .after (.okOr rfl) (.first (.reject hzero))

/-- Where the frequency of a calibrated timer is `f`, the interval is programmed with its exact count or refused. -/
structure ProgramsExactly (m : TimerMachine) (f : LapicTimerFrequency) (interval : TimerInterval) : Prop where
  programs : 1 ≤ reloadCount f.hz.toNat interval.nanos.toNat →
    reloadCount f.hz.toNat interval.nanos.toNat ≤ 2 ^ 32 - 1 →
    ∃ initial m', m.timer.initialRegister = some initial ∧
      (setPeriodic interval).exec m = .returned (.ok (), m') ∧
      (m'.stored initial).toNat = reloadCount f.hz.toNat interval.nanos.toNat
  refuses : ¬ (1 ≤ reloadCount f.hz.toNat interval.nanos.toNat ∧
      reloadCount f.hz.toNat interval.nanos.toNat ≤ 2 ^ 32 - 1) →
    (setPeriodic interval).exec m = .returned (.error .intervalTooLarge, m)
  overflows : checkedMul f.hz interval.nanos = none → 2 ^ 32 - 1 < reloadCount f.hz.toNat interval.nanos.toNat

end TimerMachine

open TimerMachine in
/-- For every frequency and every interval; the frequency that a calibration has measured is one of them. -/
theorem setPeriodic_exact {c : TscClocksource} {k : U64} {m : TimerMachine} (h : CalibratedAt c k m)
    (f : LapicTimerFrequency) (interval : TimerInterval) :
    ProgramsExactly { m with timer := m.timer.withFrequency f } f interval ∧
      ∀ elapsedCount : U32, ∃ scaled : U64, checkedMul (elapsedCount.setWidth 64) 1000000000 = some scaled ∧
        (scaled / calibrationTscNanos).toNat = 100 * elapsedCount.toNat := by
  obtain ⟨hlvt, hinitial⟩ := h.registers
  obtain ⟨lvt, hlvt⟩ := Option.isSome_iff_exists.mp hlvt
  obtain ⟨initial, hinitial⟩ := Option.isSome_iff_exists.mp hinitial
  refine ⟨⟨fun hpos hle => ?_, fun hn => setPeriodic_refuses rfl hn, reloadCount_of_overflow⟩, calibration_fits⟩
  have hcount : (BitVec.ofNat 32 (reloadCount f.hz.toNat interval.nanos.toNat)).toNat =
      reloadCount f.hz.toNat interval.nanos.toNat := by
    rw [BitVec.toNat_ofNat]
    omega
  have hne : BitVec.ofNat 32 (reloadCount f.hz.toNat interval.nanos.toNat) ≠ 0 := by
    intro hzero
    rw [hzero, show (0 : U32).toNat = 0 from rfl] at hcount
    omega
  refine ⟨initial, _, hinitial, setPeriodic_runs rfl hlvt hinitial hcount hne, ?_⟩
  rw [stored_store, hcount]

open TimerMachine BootTimer in
/-- The timer tick of the kernel, 10 ms at the frequency that has been measured. -/
theorem setPeriodic_exact_tick : ∃ initial m',
    (calibrated 1000).timer.initialRegister = some initial ∧
      (setPeriodic ⟨10000000, by decide⟩).exec
          { calibrated 1000 with timer := (calibrated 1000).timer.withFrequency ⟨6250000, by decide⟩ } =
        .returned (.ok (), m') ∧
      (m'.stored initial).toNat = 62500 := by
  have hcalibrated : CalibratedAt clock 1000 (calibrated 1000) := calibratedAt (by decide +kernel)
  have hcount : reloadCount (6250000 : U64).toNat (10000000 : U64).toNat = 62500 := by decide +kernel
  have h := (setPeriodic_exact hcalibrated ⟨6250000, by decide⟩ ⟨10000000, by decide⟩).1.programs
  dsimp only at h
  rw [hcount] at h
  exact h (by decide) (by decide)

end X11Os
