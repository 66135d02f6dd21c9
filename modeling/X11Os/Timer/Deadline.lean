import X11Os.Timer.LapicTimer

/-!
# Deadlines and the clock

A deadline is a time of the clock source, and the clock source counts from its own start.  The timer converts a
deadline into a tick from the reading at which its calibration began: the deadline is late by the time that has passed
between the start of the clock and the calibration.  The tick that is programmed is the tick of the deadline exactly
if that time is lost in the rounding (`setDeadline_strikes_iff`).
-/

namespace X11Os

open Word

/-- At the tick `d` the clock has not passed the time `t`, and one tick later it has come to it, wherever
it is defined. -/
def TscClocksource.Strikes (c : TscClocksource) (t : MonotonicTime) (d : U64) : Prop :=
  (∀ elapsed nanos : U64, d.toNat = c.startTicks.toNat + elapsed.toNat →
    ticksToNanos elapsed c.frequency.hz = some nanos → nanos.toNat ≤ t.nanos.toNat) ∧
  ∀ elapsed nanos : U64, d.toNat + 1 = c.startTicks.toNat + elapsed.toNat →
    ticksToNanos elapsed c.frequency.hz = some nanos → t.nanos.toNat < nanos.toNat + 1

/-- What the clock shows at such a tick and at the next. -/
theorem TscClocksource.Strikes.now {c : TscClocksource} {t : MonotonicTime} {d : U64} (h : c.Strikes t d) :
    (∀ time, c.now d = .ok time → time.nanos.toNat ≤ t.nanos.toNat) ∧
      ∀ next time, checkedAdd d 1 = some next → c.now next = .ok time → t.nanos.toNat ≤ time.nanos.toNat := by
  constructor
  · intro time hnow
    obtain ⟨elapsed, helapsed, hnanos⟩ := TscClocksource.now_eq_ok.mp hnow
    exact h.1 elapsed time.nanos helapsed hnanos
  · intro next time hnext hnow
    obtain ⟨elapsed, helapsed, hnanos⟩ := TscClocksource.now_eq_ok.mp hnow
    rw [checkedAdd_eq_some, show (1 : U64).toNat = 1 by decide] at hnext
    exact Nat.lt_succ_iff.mp (h.2 elapsed time.nanos (by omega) hnanos)

namespace TimerMachine

/-- The machines whose timer has been calibrated against `c`, with `k` the reading at which that began.  Afterwards
the timer may be used in any way, and everything outside the driver's record may change. -/
inductive CalibratedAt (c : TscClocksource) (k : U64) : TimerMachine → Prop where
  | calibrate {m m' : TimerMachine} {frequency : LapicTimerFrequency} {rest : List U64} (hk : m.readings = k :: rest)
      (h : (calibrate c).exec m = .returned (.ok frequency, m')) : CalibratedAt c k m'
  | setPeriodic {m m' : TimerMachine} {interval : TimerInterval} {r : Except LapicTimerError Unit}
      (hm : CalibratedAt c k m) (h : (setPeriodic interval).exec m = .returned (r, m')) : CalibratedAt c k m'
  | setDeadline {m m' : TimerMachine} {deadline : TimerDeadline} {r : Except LapicTimerError Unit}
      (hm : CalibratedAt c k m) (h : (setDeadline deadline).exec m = .returned (r, m')) : CalibratedAt c k m'
  | disable {m m' : TimerMachine} {r : Except LapicTimerError Unit}
      (hm : CalibratedAt c k m) (h : disable.exec m = .returned (r, m')) : CalibratedAt c k m'
  | elapse {m m' : TimerMachine} (hm : CalibratedAt c k m) (h : m'.timer = m.timer) : CalibratedAt c k m'

variable {c : TscClocksource} {k k' : U64} {m m' : TimerMachine}

/-- What holds of the record after every such calibration holds from then on. -/
theorem CalibratedAt.of_calibrate {P : LapicTimer → Prop} (h : CalibratedAt c k m)
    (hP : ∀ {m m' : TimerMachine} {frequency : LapicTimerFrequency} {rest : List U64}, m.readings = k :: rest →
      (TimerMachine.calibrate c).exec m = .returned (.ok frequency, m') → P m'.timer) : P m.timer := by
  induction h with
  | calibrate hk h => exact hP hk h
  | setPeriodic _ h ih =>
    rw [(setPeriodic_keeps.of_exec ⟨rfl, rfl⟩ h).1]
    exact ih
  | setDeadline _ h ih =>
    rw [(setDeadline_keeps.of_exec ⟨rfl, rfl⟩ h).1]
    exact ih
  | disable _ h ih =>
    rw [(disable_keeps.of_exec ⟨rfl, rfl⟩ h).1]
    exact ih
  | elapse _ h ih =>
    rw [h]
    exact ih

/-- What a calibration has recorded stays recorded. -/
private theorem CalibratedAt.recorded (h : CalibratedAt c k m) :
    m.timer.tscStartTicks = some k ∧ m.timer.tscFrequencyHz = some c.frequency.hz := by
  apply h.of_calibrate (P := fun t => t.tscStartTicks = some k ∧ t.tscFrequencyHz = some c.frequency.hz)
  intro m m' frequency rest hk h
  obtain ⟨start, rest, hreadings, htimer⟩ := calibrate_ends.of_ok h
  rw [hk] at hreadings
  cases hreadings
  rw [htimer]
  exact ⟨rfl, rfl⟩

/-- The tick that is programmed. -/
private theorem CalibratedAt.toNat_deadline {deadline : TimerDeadline} (h : CalibratedAt c k m)
    (hset : (TimerMachine.setDeadline deadline).exec m = .returned (.ok (), m')) :
    (m'.msr ia32TscDeadline).toNat =
      k.toNat + deadline.time.nanos.toNat * c.frequency.hz.toNat / 1000000000 := by
  obtain ⟨hstart, hfrequency⟩ := h.recorded
  exact (LapicTimer.deadlineToTsc_eq_ok hstart hfrequency).mp (setDeadline_ends.of_ok hset)

end TimerMachine

/-! ### A tick that is late -/

/-- The tick that lies `late` ticks after that of the time `t`. -/
private theorem TscClocksource.strikes_iff {c : TscClocksource} {t : MonotonicTime} {d : U64} {late : Nat}
    (hd : d.toNat = c.startTicks.toNat + (late + t.nanos.toNat * c.frequency.hz.toNat / 1000000000)) :
    c.Strikes t d ↔ late * 1000000000 < c.frequency.hz.toNat + t.nanos.toNat * c.frequency.hz.toNat % 1000000000 ∨
      2 ^ 64 * c.frequency.hz.toNat ≤
        (late + t.nanos.toNat * c.frequency.hz.toNat / 1000000000) * 1000000000 := by
  have hpos := toNat_pos c.frequency.ne_zero
  rw [← Rate.back_le_iff hpos, ← Nat.le_div_iff_mul_le hpos]
  constructor
  · intro h
    -- where the time at `d` fits in a word the clock is defined there
    rcases Nat.lt_or_ge ((late + t.nanos.toNat * c.frequency.hz.toNat / 1000000000) * 1000000000 /
      c.frequency.hz.toNat) (2 ^ 64) with hfits | hlarge
    · left
      have helapsed : (d - c.startTicks).toNat = late + t.nanos.toNat * c.frequency.hz.toNat / 1000000000 := by
        rw [BitVec.toNat_sub_of_le (BitVec.le_def.mpr (by omega))]
        omega
      have hnanos := BitVec.toNat_ofNat ((late + t.nanos.toNat * c.frequency.hz.toNat / 1000000000) * 1000000000 /
        c.frequency.hz.toNat) 64
      rw [Nat.mod_eq_of_lt hfits] at hnanos
      rw [← hnanos]
      refine h.1 (d - c.startTicks) _ (by omega) ?_
      rw [ticksToNanos_eq_some c.frequency.ne_zero, helapsed]
      exact hnanos
    · right
      exact hlarge
  · intro h
    constructor
    · intro elapsed nanos helapsed hnanos
      rw [ticksToNanos_eq_some c.frequency.ne_zero,
        show elapsed.toNat = late + t.nanos.toNat * c.frequency.hz.toNat / 1000000000 by omega] at hnanos
      have hlt := nanos.isLt
      rcases h with hle | hlarge
      · rw [hnanos]
        exact hle
      · rw [hnanos] at hlt
        exact absurd hlt (Nat.not_lt.mpr hlarge)
    · intro elapsed nanos helapsed hnanos
      rw [ticksToNanos_eq_some c.frequency.ne_zero,
        show elapsed.toNat = late + t.nanos.toNat * c.frequency.hz.toNat / 1000000000 + 1 by omega] at hnanos
      rw [hnanos]
      exact Nat.lt_succ_of_le (Rate.le_back_succ (by decide) hpos)

open TimerMachine in
/-- Two timers that are calibrated against one clock, at `k` and at `k'`, and the same deadline. -/
theorem setDeadline_strikes_iff {c : TscClocksource} {k k' : U64} {m₁ m₁' m₂ m₂' : TimerMachine}
    {deadline : TimerDeadline} (hk : c.startTicks ≤ k) (h₁ : CalibratedAt c k m₁) (h₂ : CalibratedAt c k' m₂)
    (hset₁ : (setDeadline deadline).exec m₁ = .returned (.ok (), m₁'))
    (hset₂ : (setDeadline deadline).exec m₂ = .returned (.ok (), m₂')) :
    (c.Strikes deadline.time (m₁'.msr ia32TscDeadline) ∧ m₁'.msr ia32TscDeadline = m₂'.msr ia32TscDeadline) ↔
      k = k' ∧ ((k.toNat - c.startTicks.toNat) * 1000000000 <
          c.frequency.hz.toNat + deadline.time.nanos.toNat * c.frequency.hz.toNat % 1000000000 ∨
        2 ^ 64 * c.frequency.hz.toNat ≤ (k.toNat - c.startTicks.toNat +
          deadline.time.nanos.toNat * c.frequency.hz.toNat / 1000000000) * 1000000000) := by
  rw [BitVec.le_def] at hk
  have hd₁ := h₁.toNat_deadline hset₁
  have hd₂ := h₂.toNat_deadline hset₂
  have hsame : m₁'.msr ia32TscDeadline = m₂'.msr ia32TscDeadline ↔ k = k' := by
    rw [← BitVec.toNat_inj, ← BitVec.toNat_inj (x := k), hd₁, hd₂]
    exact Nat.add_right_cancel_iff
  have hlate : (m₁'.msr ia32TscDeadline).toNat = c.startTicks.toNat + (k.toNat - c.startTicks.toNat +
      deadline.time.nanos.toNat * c.frequency.hz.toNat / 1000000000) := by omega
  rw [hsame, and_comm, TscClocksource.strikes_iff hlate]

/-! ### A clock of 3 GHz

The clock is started, and the timer calibrated, as at boot: in between lie the discovery of the tables and the setup
of the local APIC. -/

namespace BootTimer

open TimerMachine

def clock : TscClocksource := ⟨1000, 3000000000, by decide⟩

def timer : LapicTimer :=
  ⟨.x2Apic, none, none, true, none, none, some x2ApicLvtTimer, some x2ApicInitCount, some x2ApicCurrentCount,
    some x2ApicDivideConfig, ia32TscDeadline, rfl⟩

example : LapicTimer.new .x2Apic none 0xFEE00000 (1 <<< 24) = .ok timer := by decide

/-- The wait of 10 ms takes two readings, and the counter has counted 62500 down by then. -/
def machine (k : U64) : TimerMachine where
  timer := timer
  readings := [k, k + 10000000, k + 30000000]
  readMsr _ := 0xFFFF0BDB
  readMmio _ := 0
  msr _ := 0
  mmio _ := 0

def value {α : Type} (x : Op α) (m : TimerMachine) : Option α :=
  match x.exec m with
  | .returned (.ok a, _) => some a
  | _ => none

def settled {α : Type} (x : Op α) (m : TimerMachine) : TimerMachine :=
  match x.exec m with
  | .returned (_, m') => m'
  | .panicked => m

private theorem exec_of_value {α : Type} {x : Op α} {m : TimerMachine} {a : α} (h : value x m = some a) :
    x.exec m = .returned (.ok a, settled x m) := by
  unfold value at h
  unfold settled
  split at h
  · rename_i b m' hx
    cases h
    rw [hx]
  · cases h

def calibrated (k : U64) : TimerMachine := settled (calibrate clock) (machine k)

def second : TimerDeadline := ⟨⟨1000000000⟩⟩

def programmed (k : U64) : TimerMachine := settled (setDeadline second) (calibrated k)

theorem calibratedAt {k : U64} (h : value (calibrate clock) (machine k) = some ⟨6250000, by decide⟩) :
    CalibratedAt clock k (calibrated k) :=
  .calibrate rfl (exec_of_value h)

end BootTimer

open TimerMachine BootTimer in
/-- Calibrated as the clock starts, the timer is exact, also after it has been disabled. -/
theorem setDeadline_strikes_at_start :
    clock.Strikes second.time ((programmed 1000).msr ia32TscDeadline) ∧
      (programmed 1000).msr ia32TscDeadline =
        (settled (setDeadline second) (settled disable (calibrated 1000))).msr ia32TscDeadline := by
  have hcalibrated : CalibratedAt clock 1000 (calibrated 1000) := calibratedAt (by decide +kernel)
  have hdisabled : disable.exec (calibrated 1000) = .returned (.ok (), settled disable (calibrated 1000)) :=
    exec_of_value (by decide +kernel)
  exact (setDeadline_strikes_iff (by decide) hcalibrated (.disable hcalibrated hdisabled)
    (exec_of_value (by decide +kernel)) (exec_of_value (by decide +kernel))).mpr ⟨rfl, .inl (by decide)⟩

open TimerMachine BootTimer in
/-- Calibrated 50 ms after the start of the clock, the timer fires 50 ms after the second. -/
theorem deadline_fires_late :
    clock.startTicks ≤ 150001000 ∧ CalibratedAt clock 1000 (calibrated 1000) ∧
      CalibratedAt clock 150001000 (calibrated 150001000) ∧
      (setDeadline second).exec (calibrated 1000) = .returned (.ok (), programmed 1000) ∧
      (setDeadline second).exec (calibrated 150001000) = .returned (.ok (), programmed 150001000) ∧
      (programmed 1000).msr ia32TscDeadline = 3000001000 ∧
      (programmed 150001000).msr ia32TscDeadline = 3150001000 ∧
      clock.now 3150001000 = .ok ⟨1050000000⟩ ∧
      ¬ clock.Strikes second.time ((programmed 150001000).msr ia32TscDeadline) := by
  have htick : (programmed 150001000).msr ia32TscDeadline = 3150001000 := by decide +kernel
  refine ⟨by decide, calibratedAt (by decide +kernel), calibratedAt (by decide +kernel),
    exec_of_value (by decide +kernel), exec_of_value (by decide +kernel), by decide +kernel, htick, by decide +kernel,
    ?_⟩
  intro h
  have hpassed := h.1 3150000000 1050000000 (by rw [htick]; decide +kernel) (by decide +kernel)
  exact absurd hpassed (by decide +kernel)

end X11Os
