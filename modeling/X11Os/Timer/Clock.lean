import X11Os.Lib.Rates
import X11Os.Lib.Word

/-!
# The clock

Kernel time (`timer.rs`) and the clock source on the time stamp counter (`arch/x86_64/tsc.rs`).  What CPUID reports
and what RDTSC reads are arguments.  A clock source has the frequency that CPUID gives, and starts at zero
(`tryNew_cases`).  Its time at a tick is the number of ticks since its start, converted to nanoseconds and rounded
down (`now_eq_ok`, `ticksToNanos_eq_some`).
-/

namespace X11Os

open Word

/-- Nanoseconds since the clock source was initialized. -/
structure MonotonicTime where
  nanos : U64
deriving DecidableEq, Repr

structure TimerInterval where
  nanos : U64
  ne_zero : nanos ≠ 0
deriving DecidableEq, Repr

def TimerInterval.new (nanos : U64) : Option TimerInterval := if h : nanos = 0 then none else some ⟨nanos, h⟩

/-- An absolute deadline in kernel time. -/
structure TimerDeadline where
  time : MonotonicTime
deriving DecidableEq, Repr

/-! ### The time stamp counter -/

inductive TscError where
  | unsupported
  | frequencyUnavailable
  | frequencyOverflow
  | timeOverflow
deriving DecidableEq, Repr

/-- A frequency that has been detected is not zero. -/
structure TscFrequency where
  hz : U64
  ne_zero : hz ≠ 0
deriving DecidableEq, Repr

/-- The registers of the CPUID leaves that are looked at. -/
structure CpuidLeaves where
  maxBasic : U32
  tscRatioEax : U32
  tscRatioEbx : U32
  tscRatioEcx : U32
  processorFreqEax : U32
  maxExtended : U32
  extendedFeaturesEdx : U32
deriving DecidableEq, Repr

def invariantTscSupported (cpuid : CpuidLeaves) : Bool :=
  if cpuid.maxExtended < 0x80000007 then false else cpuid.extendedFeaturesEdx &&& (1 <<< 8) != 0

private theorem megahertz_ne_zero {mhz : U32} {hz : U64} (hmhz : mhz ≠ 0)
    (h : checkedMul (mhz.setWidth 64) 1000000 = some hz) :
    hz ≠ 0 := by
  have hlt := mhz.isLt
  have hpos := toNat_pos hmhz
  have hmillion : (1000000 : U64).toNat = 1000000 := by decide
  rw [checkedMul_eq_some, BitVec.toNat_setWidth, Nat.mod_eq_of_lt (by omega), hmillion] at h
  intro hzero
  have hnone : (0 : U64).toNat = 0 := by decide
  rw [hzero, hnone] at h
  omega

/-- The nominal frequency of leaf 16H. -/
def processorFrequency (cpuid : CpuidLeaves) : Except TscError TscFrequency :=
  if hmhz : cpuid.maxBasic ≥ 0x16 ∧ cpuid.processorFreqEax ≠ 0 then
    match (checkedMul (cpuid.processorFreqEax.setWidth 64) 1000000).pmap TscFrequency.mk fun _ h =>
        megahertz_ne_zero hmhz.2 h with
    | none => .error .frequencyOverflow
    | some frequency => .ok frequency
  else .error .frequencyUnavailable

/-- The ratio of leaf 15H, and leaf 16H where it is missing or too small. -/
def detectFrequency (cpuid : CpuidLeaves) : Except TscError TscFrequency :=
  if cpuid.maxBasic ≥ 0x15 ∧ cpuid.tscRatioEax ≠ 0 ∧ cpuid.tscRatioEbx ≠ 0 ∧ cpuid.tscRatioEcx ≠ 0 then
    match checkedMul (cpuid.tscRatioEcx.setWidth 64) (cpuid.tscRatioEbx.setWidth 64) with
    | none => .error .frequencyOverflow
    | some product =>
      if h : product / cpuid.tscRatioEax.setWidth 64 = 0 then processorFrequency cpuid else .ok ⟨_, h⟩
  else processorFrequency cpuid

structure TscClocksource where
  startTicks : U64
  frequency : TscFrequency
deriving DecidableEq, Repr

namespace TscClocksource

/-- `ticks` is what RDTSC reads at the end. -/
def tryNew (cpuid : CpuidLeaves) (ticks : U64) : Except TscError TscClocksource :=
  if !invariantTscSupported cpuid then .error .unsupported
  else
    match detectFrequency cpuid with
    | .error e => .error e
    | .ok frequency => .ok ⟨ticks, frequency⟩

end TscClocksource

def ticksToNanos (ticks frequencyHz : U64) : Option U64 :=
  if frequencyHz = 0 then none
  else
    let seconds := ticks / frequencyHz
    let remainder := ticks % frequencyHz
    (checkedMul seconds 1000000000).bind fun wholeNanos =>
      let fractionalNanos := ((remainder.setWidth 128 * 1000000000 / frequencyHz.setWidth 128 : U128)).setWidth 64
      checkedAdd wholeNanos fractionalNanos

/-- `ticks` is what RDTSC reads. -/
def TscClocksource.now (c : TscClocksource) (ticks : U64) : Except TscError MonotonicTime :=
  match checkedSub ticks c.startTicks with
  | none => .error .timeOverflow
  | some elapsed =>
    match ticksToNanos elapsed c.frequency.hz with
    | none => .error .timeOverflow
    | some nanos => .ok ⟨nanos⟩

/-! ### The time at a tick -/

/-- The product of the remainder has room in 128 bits. -/
private theorem toNat_scaledRemainder (remainder : U64) :
    (remainder.setWidth 128 * 1000000000 : U128).toNat = remainder.toNat * 1000000000 := by
  have hr := remainder.isLt
  have hbillion : (1000000000 : U128).toNat = 1000000000 := by decide
  rw [BitVec.toNat_mul, BitVec.toNat_setWidth, hbillion]
  omega

/-- The nanoseconds of a fraction of a second, still in 128 bits. -/
private theorem toNat_fraction {remainder frequencyHz : U64} (h : remainder.toNat < frequencyHz.toNat) :
    (remainder.setWidth 128 * 1000000000 / frequencyHz.setWidth 128 : U128).toNat =
        remainder.toNat * 1000000000 / frequencyHz.toNat ∧
      remainder.toNat * 1000000000 / frequencyHz.toNat < 1000000000 := by
  have hf := frequencyHz.isLt
  constructor
  · rw [BitVec.toNat_udiv, toNat_scaledRemainder, BitVec.toNat_setWidth,
      Nat.mod_eq_of_lt (a := frequencyHz.toNat) (by omega)]
  · rw [Nat.div_lt_iff_lt_mul (by omega), Nat.mul_comm 1000000000]
    exact Nat.mul_lt_mul_of_pos_right h (by omega)

private theorem toNat_fractionalNanos {remainder frequencyHz : U64} (h : remainder.toNat < frequencyHz.toNat) :
    (((remainder.setWidth 128 * 1000000000 / frequencyHz.setWidth 128 : U128)).setWidth 64).toNat =
      remainder.toNat * 1000000000 / frequencyHz.toNat := by
  obtain ⟨hvalue, hlt⟩ := toNat_fraction h
  rw [BitVec.toNat_setWidth, hvalue]
  exact Nat.mod_eq_of_lt (by omega)

private theorem toNat_remainder_lt (ticks : U64) {frequencyHz : U64} (hf : frequencyHz ≠ 0) :
    (ticks % frequencyHz).toNat < frequencyHz.toNat := by
  rw [BitVec.toNat_umod]
  exact Nat.mod_lt _ (toNat_pos hf)

/-- The conversion is exact up to rounding, and fails only where the result does not fit. -/
theorem ticksToNanos_eq_some {ticks frequencyHz nanos : U64} (hf : frequencyHz ≠ 0) :
    ticksToNanos ticks frequencyHz = some nanos ↔ nanos.toNat = ticks.toNat * 1000000000 / frequencyHz.toNat := by
  have hpos := toNat_pos hf
  have hbillion : (1000000000 : U64).toNat = 1000000000 := by decide
  unfold ticksToNanos
  rw [if_neg hf, checkedMul_bind_checkedAdd_eq_some, toNat_fractionalNanos (toNat_remainder_lt ticks hf),
    BitVec.toNat_udiv, BitVec.toNat_umod, hbillion, Rate.split _ _ hpos]

/-- The clock is defined at a tick if the tick is not before its start and the time since then fits. -/
theorem TscClocksource.now_eq_ok {c : TscClocksource} {ticks : U64} {time : MonotonicTime} :
    c.now ticks = .ok time ↔ ∃ elapsed : U64, ticks.toNat = c.startTicks.toNat + elapsed.toNat ∧
      ticksToNanos elapsed c.frequency.hz = some time.nanos := by
  simp only [← checkedSub_eq_some]
  unfold TscClocksource.now
  cases checkedSub ticks c.startTicks with
  | none => simp only [reduceCtorEq, false_and, exists_false]
  | some elapsed =>
    simp only [Option.some.injEq, exists_eq_left']
    cases ticksToNanos elapsed c.frequency.hz with
    | none => simp only [reduceCtorEq]
    | some nanos =>
      obtain ⟨shown⟩ := time
      simp only [Except.ok.injEq, MonotonicTime.mk.injEq, Option.some.injEq]

/-! ### The start of a clock -/

/-- The ratio of leaf 15H in unbounded integers; zero where a part of it is missing. -/
def CpuidLeaves.ratio (cpuid : CpuidLeaves) : Nat :=
  if cpuid.maxBasic ≥ 0x15 then cpuid.tscRatioEcx.toNat * cpuid.tscRatioEbx.toNat / cpuid.tscRatioEax.toNat else 0

/-- The frequency that the leaves give; zero where they give none. -/
def CpuidLeaves.hertz (cpuid : CpuidLeaves) : Nat :=
  if cpuid.ratio ≠ 0 then cpuid.ratio
  else if cpuid.maxBasic ≥ 0x16 then cpuid.processorFreqEax.toNat * 1000000
  else 0

private theorem toNat_setWidth_u32 (a : U32) : (a.setWidth 64 : U64).toNat = a.toNat := by
  have ha := a.isLt
  rw [BitVec.toNat_setWidth]
  omega

/-- Neither product overflows. -/
private theorem processorFrequency_cases (cpuid : CpuidLeaves) (hratio : cpuid.ratio = 0) :
    (cpuid.hertz = 0 ∧ processorFrequency cpuid = .error .frequencyUnavailable) ∨
      ∃ frequency, processorFrequency cpuid = .ok frequency ∧ frequency.hz.toNat = cpuid.hertz := by
  have hmillion : (1000000 : U64).toNat = 1000000 := by decide
  have hfits : (cpuid.processorFreqEax.setWidth 64 : U64).toNat * (1000000 : U64).toNat < 2 ^ 64 := by
    have hlt := cpuid.processorFreqEax.isLt
    rw [toNat_setWidth_u32, hmillion]
    omega
  rw [CpuidLeaves.hertz, if_neg (not_not.mpr hratio)]
  unfold processorFrequency
  by_cases hmhz : cpuid.maxBasic ≥ 0x16 ∧ cpuid.processorFreqEax ≠ 0
  · rw [dif_pos hmhz, if_pos hmhz.1]
    refine .inr ?_
    have hproduct := checkedMul_of_lt hfits
    simp only [hproduct, Option.pmap_some]
    refine ⟨_, rfl, ?_⟩
    rw [checkedMul_eq_some.mp hproduct, toNat_setWidth_u32, hmillion]
  · rw [dif_neg hmhz]
    refine .inl ⟨?_, rfl⟩
    split_ifs with hleaf
    · have hzero : cpuid.processorFreqEax = 0 := by
        by_contra hne
        exact hmhz ⟨hleaf, hne⟩
      rw [hzero]
      rfl
    · rfl

private theorem detectFrequency_cases (cpuid : CpuidLeaves) :
    (cpuid.hertz = 0 ∧ detectFrequency cpuid = .error .frequencyUnavailable) ∨
      ∃ frequency, detectFrequency cpuid = .ok frequency ∧ frequency.hz.toNat = cpuid.hertz := by
  unfold detectFrequency
  split_ifs with hleaf
  · have hproduct : cpuid.tscRatioEcx.toNat * cpuid.tscRatioEbx.toNat < 2 ^ 32 * 2 ^ 32 :=
      Nat.mul_lt_mul_of_lt_of_le cpuid.tscRatioEcx.isLt (Nat.le_of_lt cpuid.tscRatioEbx.isLt) (Nat.two_pow_pos 32)
    have hmul := checkedMul_of_lt (a := cpuid.tscRatioEcx.setWidth 64) (b := cpuid.tscRatioEbx.setWidth 64)
      (by rw [toNat_setWidth_u32, toNat_setWidth_u32]; exact hproduct)
    have hratio : (cpuid.tscRatioEcx.setWidth 64 * cpuid.tscRatioEbx.setWidth 64 /
        cpuid.tscRatioEax.setWidth 64 : U64).toNat = cpuid.ratio := by
      rw [CpuidLeaves.ratio, if_pos hleaf.1, BitVec.toNat_udiv, checkedMul_eq_some.mp hmul, toNat_setWidth_u32,
        toNat_setWidth_u32, toNat_setWidth_u32]
    rw [hmul]
    dsimp only
    split_ifs with hzero
    · exact processorFrequency_cases cpuid (by rw [← hratio, hzero]; rfl)
    · refine .inr ⟨_, rfl, ?_⟩
      have hne : cpuid.ratio ≠ 0 := fun heq => hzero (BitVec.eq_of_toNat_eq (hratio.trans heq))
      rw [CpuidLeaves.hertz, if_pos hne]
      exact hratio
  · refine processorFrequency_cases cpuid ?_
    unfold CpuidLeaves.ratio
    split_ifs with hbasic
    · by_cases heax : cpuid.tscRatioEax = 0
      · rw [heax]
        exact Nat.div_zero _
      · by_cases hebx : cpuid.tscRatioEbx = 0
        · rw [hebx]
          exact Nat.zero_div _
        · have hecx : cpuid.tscRatioEcx = 0 := by
            by_contra hne
            exact hleaf ⟨hbasic, heax, hebx, hne⟩
          rw [hecx, show (0 : U32).toNat = 0 from rfl, Nat.zero_mul, Nat.zero_div]
    · rfl

/-- The clock source is there exactly if the counter is invariant and the leaves give a frequency.  It has that
frequency, and shows zero at its start. -/
theorem TscClocksource.tryNew_cases (cpuid : CpuidLeaves) (ticks : U64) :
    (invariantTscSupported cpuid = false ∧ tryNew cpuid ticks = .error .unsupported) ∨
    (invariantTscSupported cpuid = true ∧ cpuid.hertz = 0 ∧ tryNew cpuid ticks = .error .frequencyUnavailable) ∨
    invariantTscSupported cpuid = true ∧ ∃ c, tryNew cpuid ticks = .ok c ∧ c.frequency.hz.toNat = cpuid.hertz ∧
      c.now ticks = .ok ⟨0⟩ := by
  unfold tryNew
  cases hinvariant : invariantTscSupported cpuid with
  | false => exact .inl ⟨rfl, rfl⟩
  | true =>
    rcases detectFrequency_cases cpuid with ⟨hzero, hnone⟩ | ⟨frequency, hsome, hhertz⟩
    · exact .inr (.inl ⟨rfl, hzero, by rw [hnone]; rfl⟩)
    · refine .inr (.inr ⟨rfl, ⟨ticks, frequency⟩, by rw [hsome]; rfl, hhertz, ?_⟩)
      refine now_eq_ok.mpr ⟨0, rfl, (ticksToNanos_eq_some frequency.ne_zero).mpr ?_⟩
      show 0 = 0 * 1000000000 / frequency.hz.toNat
      rw [Nat.zero_mul, Nat.zero_div]

/-! ### Exactness -/

/-- The nanoseconds of a number of ticks, in unbounded integers, where a word has room for them. -/
def nanosOf (ticks frequencyHz : Nat) : Option Nat :=
  if 0 < frequencyHz ∧ ticks * 1000000000 / frequencyHz < 2 ^ 64 then
    some (ticks * 1000000000 / frequencyHz) else none

/-- The two steps of the conversion that are not checked lose nothing: the product in 128 bits and the
return to 64. -/
structure StepsExact (ticks frequencyHz : U64) : Prop where
  product : ((ticks % frequencyHz).setWidth 128 * 1000000000 : U128).toNat = (ticks % frequencyHz).toNat * 1000000000
  narrowed : frequencyHz ≠ 0 →
    (((ticks % frequencyHz).setWidth 128 * 1000000000 / frequencyHz.setWidth 128 : U128).setWidth 64).toNat =
      ((ticks % frequencyHz).setWidth 128 * 1000000000 / frequencyHz.setWidth 128 : U128).toNat

private theorem stepsExact (ticks frequencyHz : U64) : StepsExact ticks frequencyHz where
  product := toNat_scaledRemainder _
  narrowed hf := by
    have hlt := toNat_remainder_lt ticks hf
    rw [toNat_fractionalNanos hlt, (toNat_fraction hlt).1]

private theorem ticksToNanos_eq_nanosOf (ticks frequencyHz : U64) :
    (ticksToNanos ticks frequencyHz).map BitVec.toNat = nanosOf ticks.toNat frequencyHz.toNat := by
  by_cases hf : frequencyHz = 0
  · rw [ticksToNanos, if_pos hf, nanosOf, if_neg]
    · rfl
    · intro h
      rw [hf] at h
      exact absurd h.1 (by decide)
  · have hpos := toNat_pos hf
    unfold nanosOf
    split_ifs with hfits
    · have hvalue : (BitVec.ofNat 64 (ticks.toNat * 1000000000 / frequencyHz.toNat)).toNat =
          ticks.toNat * 1000000000 / frequencyHz.toNat := by
        rw [BitVec.toNat_ofNat]
        exact Nat.mod_eq_of_lt hfits.2
      rw [(ticksToNanos_eq_some hf).mpr hvalue, Option.map_some, hvalue]
    · cases hnanos : ticksToNanos ticks frequencyHz with
      | none => rfl
      | some nanos =>
        have hlt := nanos.isLt
        rw [(ticksToNanos_eq_some hf).mp hnanos] at hlt
        exact absurd ⟨hpos, hlt⟩ hfits

/-- A later reading of one clock does not show an earlier time. -/
private theorem TscClocksource.now_mono {c : TscClocksource} {ticks ticks' : U64} {time time' : MonotonicTime}
    (hle : ticks ≤ ticks') (h : c.now ticks = .ok time) (h' : c.now ticks' = .ok time') :
    time.nanos ≤ time'.nanos := by
  obtain ⟨elapsed, hticks, hnanos⟩ := now_eq_ok.mp h
  obtain ⟨elapsed', hticks', hnanos'⟩ := now_eq_ok.mp h'
  rw [ticksToNanos_eq_some c.frequency.ne_zero] at hnanos hnanos'
  rw [BitVec.le_def] at hle ⊢
  have helapsed : elapsed.toNat ≤ elapsed'.toNat := by omega
  rw [hnanos, hnanos']
  exact Nat.div_le_div_right (Nat.mul_le_mul_right 1000000000 helapsed)

/-- The conversion is the one of the unbounded integers, and the clock does not go back. -/
theorem ticksToNanos_exact :
    (∀ ticks frequencyHz : U64, (ticksToNanos ticks frequencyHz).map BitVec.toNat =
        nanosOf ticks.toNat frequencyHz.toNat ∧ StepsExact ticks frequencyHz) ∧
      ∀ (c : TscClocksource) (ticks ticks' : U64) (time time' : MonotonicTime), ticks ≤ ticks' →
        c.now ticks = .ok time → c.now ticks' = .ok time' → time.nanos ≤ time'.nanos :=
  ⟨fun ticks frequencyHz => ⟨ticksToNanos_eq_nanosOf ticks frequencyHz, stepsExact ticks frequencyHz⟩,
    fun _ _ _ _ _ hle h h' => TscClocksource.now_mono hle h h'⟩

end X11Os
