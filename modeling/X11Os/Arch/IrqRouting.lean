import X11Os.Arch.Acpi
import X11Os.Lib.Lists

/-!
# Routing of ISA interrupts

`resolve_isa_irq` turns an ISA IRQ into a global system interrupt: the first source override for it decides, and
without one it is routed to the interrupt of the same number.  On a topology that was parsed from a MADT, the
overrides are the first 24 of the table (`resolveIsaIrq_routes`); one behind them is not seen
(`override_beyond_capacity`).
-/

namespace X11Os

open Word SlotArray

inductive Polarity where
  | conformsToBus
  | activeHigh
  | activeLow
deriving DecidableEq, Repr

inductive TriggerMode where
  | conformsToBus
  | edge
  | level
deriving DecidableEq, Repr

structure IrqRoute where
  isaIrq : U8
  gsi : U32
  polarity : Polarity
  trigger : TriggerMode
deriving DecidableEq, Repr

inductive IrqRoutingError where
  | unsupportedBus
  | invalidOverrideFlags
  | noIoApicForGsi
deriving DecidableEq, Repr

def IrqRoute.identity (isaIrq : U8) : IrqRoute := ⟨isaIrq, isaIrq.setWidth 32, .conformsToBus, .conformsToBus⟩

namespace IrqRouting

def decodeFlags (entry : InterruptSourceOverride) : Except IrqRoutingError (Polarity × TriggerMode) := do
  let polarity ←
    if entry.flags &&& 0b11 = 0b00 then pure Polarity.conformsToBus
    else if entry.flags &&& 0b11 = 0b01 then pure .activeHigh
    else if entry.flags &&& 0b11 = 0b11 then pure .activeLow
    else throw .invalidOverrideFlags
  let trigger ←
    if entry.flags >>> 2 &&& 0b11 = 0b00 then pure TriggerMode.conformsToBus
    else if entry.flags >>> 2 &&& 0b11 = 0b01 then pure .edge
    else if entry.flags >>> 2 &&& 0b11 = 0b11 then pure .level
    else throw .invalidOverrideFlags
  return (polarity, trigger)

/-- The I/O APICs whose base does not exceed the GSI, with their places. -/
def candidates (entries : List (Option IoApicInfo)) (gsi : U32) : List (Nat × IoApicInfo) :=
  (entries.zipIdx.filterMap fun (entry, index) => entry.map fun ioapic => (index, ioapic)).filter
    fun (_, ioapic) => ioapic.globalSystemInterruptBase ≤ gsi

def ioApicIndexForGsi (topology : ApicTopology) (gsi : U32) : Panics (Option Nat) := do
  let entries ← upTo topology.ioApics topology.ioApicCount
  return ((candidates entries gsi).maxByKey fun (_, ioapic) => ioapic.globalSystemInterruptBase.toNat).map
    fun (index, _) => index

/-- The loop over the source overrides. -/
def applyOverrides (isaIrq : U8) : List InterruptSourceOverride → IrqRoute → Except IrqRoutingError IrqRoute
  | [], route => .ok route
  | entry :: rest, route =>
    if entry.bus ≠ 0 ∨ entry.source ≠ isaIrq then applyOverrides isaIrq rest route
    else do
      let (polarity, trigger) ← decodeFlags entry
      return { route with gsi := entry.globalSystemInterrupt, polarity, trigger }

def resolveIsaIrq (topology : ApicTopology) (isaIrq : U8) : Fallible IrqRoutingError IrqRoute := do
  let entries ← upTo topology.sourceOverrides topology.sourceOverrideCount
  let route ← applyOverrides isaIrq (entries.filterMap id) (IrqRoute.identity isaIrq)
  let index ← ioApicIndexForGsi topology route.gsi
  reject (index = none) .noIoApicForGsi
  return route

/-! ### The override of an interrupt -/

end IrqRouting

namespace InterruptSourceOverride

def Applies (entry : InterruptSourceOverride) (isaIrq : U8) : Prop := entry.bus = 0 ∧ entry.source = isaIrq

instance (entry : InterruptSourceOverride) (isaIrq : U8) : Decidable (entry.Applies isaIrq) :=
  inferInstanceAs (Decidable (_ ∧ _))

/-- Polarity or trigger mode have the value that is not assigned. -/
def Reserved (entry : InterruptSourceOverride) : Prop :=
  entry.flags &&& 0b11 = 0b10 ∨ entry.flags >>> 2 &&& 0b11 = 0b10

end InterruptSourceOverride

namespace IrqRouting

open Fallible

variable {t : ApicTopology} {entry : InterruptSourceOverride} {isaIrq : U8}

private theorem two_bits (w : U16) : w &&& 0b11 = 0b00 ∨ w &&& 0b11 = 0b01 ∨ w &&& 0b11 = 0b10 ∨
    w &&& 0b11 = 0b11 := by
  have hlt : (w &&& 0b11).toNat < 4 := by
    rw [BitVec.toNat_and]
    exact Nat.lt_of_le_of_lt Nat.and_le_right (by decide)
  simp only [← BitVec.toNat_inj]
  generalize (w &&& 0b11).toNat = n at hlt
  simp only [show (0b00 : U16).toNat = 0 from rfl, show (0b01 : U16).toNat = 1 from rfl,
    show (0b10 : U16).toNat = 2 from rfl, show (0b11 : U16).toNat = 3 from rfl]
  omega

/-- Flags are refused exactly if they are reserved. -/
private theorem decodeFlags_cases (entry : InterruptSourceOverride) :
    (entry.Reserved ∧ decodeFlags entry = .error .invalidOverrideFlags) ∨
      ¬ entry.Reserved ∧ ∃ polarity trigger, decodeFlags entry = .ok (polarity, trigger) := by
  have hpolarity := two_bits entry.flags
  have htrigger := two_bits (entry.flags >>> 2)
  unfold InterruptSourceOverride.Reserved decodeFlags
  generalize entry.flags &&& 0b11 = p at *
  generalize entry.flags >>> 2 &&& 0b11 = q at *
  rcases hpolarity with rfl | rfl | rfl | rfl <;> rcases htrigger with rfl | rfl | rfl | rfl
  all_goals first
    | exact .inl ⟨by decide, rfl⟩
    | exact .inr ⟨by decide, _, _, rfl⟩

private theorem applyOverrides_eq (l : List InterruptSourceOverride) (route : IrqRoute) :
    applyOverrides isaIrq l route =
      match l.find? fun entry => entry.Applies isaIrq with
      | none => .ok route
      | some entry => (decodeFlags entry).map fun (polarity, trigger) =>
          { route with gsi := entry.globalSystemInterrupt, polarity, trigger } := by
  induction l with
  | nil => rfl
  | cons entry rest ih =>
    by_cases h : entry.Applies isaIrq
    · rw [applyOverrides, if_neg (by rwa [not_or, not_not, not_not]), List.find?_cons_of_pos (by simpa using h)]
      dsimp only
      cases decodeFlags entry <;> rfl
    · rw [applyOverrides, if_pos (by rwa [← not_and_or]), ih, List.find?_cons_of_neg (by simpa using h)]

/-! ### The I/O APIC of an interrupt -/

private theorem mem_candidates {l : List IoApicInfo} {gsi : U32} {index : Nat} {ioapic : IoApicInfo} :
    (index, ioapic) ∈ candidates (l.map some) gsi ↔
      l[index]? = some ioapic ∧ ioapic.globalSystemInterruptBase ≤ gsi := by
  rw [candidates, List.mem_filter, List.mem_filterMap, decide_eq_true_iff]
  refine and_congr_left fun _ => ?_
  constructor
  · rintro ⟨⟨entry, i⟩, hmem, hentry⟩
    obtain ⟨a, rfl, ha⟩ := Option.map_eq_some_iff.mp hentry
    cases ha
    rw [List.mk_mem_zipIdx_iff_getElem?, List.getElem?_map] at hmem
    simpa using hmem
  · intro h
    refine ⟨(some ioapic, index), ?_, rfl⟩
    rw [List.mk_mem_zipIdx_iff_getElem?, List.getElem?_map, h, Option.map_some]

/-- An I/O APIC serves the GSI if its base does not exceed it. -/
def Served (l : List IoApicInfo) (gsi : U32) : Prop := ∃ ioapic ∈ l, ioapic.globalSystemInterruptBase ≤ gsi

instance (l : List IoApicInfo) (gsi : U32) : Decidable (Served l gsi) :=
  inferInstanceAs (Decidable (∃ ioapic ∈ l, _))

/-- The I/O APIC at the index has the largest one of the bases that do not exceed the GSI. -/
def Nearest (l : List IoApicInfo) (gsi : U32) (index : Nat) : Prop :=
  ∃ ioapic, l[index]? = some ioapic ∧ ioapic.globalSystemInterruptBase ≤ gsi ∧
    ∀ other ∈ l, other.globalSystemInterruptBase ≤ gsi →
      other.globalSystemInterruptBase ≤ ioapic.globalSystemInterruptBase

private theorem Nearest.lt_length {l : List IoApicInfo} {gsi : U32} {index : Nat} (h : Nearest l gsi index) :
    index < l.length := by
  obtain ⟨ioapic, hget, _⟩ := h
  exact (List.getElem?_eq_some_iff.mp hget).1

private theorem ioApicIndexForGsi_cases {l : List IoApicInfo} (h : Filled t.ioApics t.ioApicCount l) (gsi : U32) :
    (ioApicIndexForGsi t gsi = .returned none ∧ ¬ Served l gsi) ∨
      ∃ index, ioApicIndexForGsi t gsi = .returned (some index) ∧ Served l gsi ∧ Nearest l gsi index := by
  have hrun : ioApicIndexForGsi t gsi = .returned (((candidates (l.map some) gsi).maxByKey
      fun (_, ioapic) => ioapic.globalSystemInterruptBase.toNat).map fun (index, _) => index) := by
    show Panics.bind (upTo t.ioApics t.ioApicCount) _ = _
    rw [h.upTo]
    rfl
  rw [hrun]
  cases hmax : (candidates (l.map some) gsi).maxByKey fun (_, ioapic) => ioapic.globalSystemInterruptBase.toNat with
  | none =>
    refine .inl ⟨rfl, ?_⟩
    rintro ⟨ioapic, hmem, hle⟩
    obtain ⟨index, hindex⟩ := List.mem_iff_getElem?.mp hmem
    exact List.ne_nil_of_mem (mem_candidates.mpr ⟨hindex, hle⟩) (List.maxByKey_eq_none.mp hmax)
  | some found =>
    obtain ⟨hmem, hall⟩ := List.maxByKey_eq_some hmax
    obtain ⟨hindex, hle⟩ := mem_candidates.mp hmem
    refine .inr ⟨found.1, rfl, ⟨found.2, List.mem_of_getElem? hindex, hle⟩, found.2, hindex, hle, ?_⟩
    intro other hother hother'
    obtain ⟨index, hindex'⟩ := List.mem_iff_getElem?.mp hother
    exact BitVec.le_def.mpr (hall (index, other) (mem_candidates.mpr ⟨hindex', hother'⟩))

/-! ### The route of an interrupt -/

/-- The route, or the error if no I/O APIC serves it. -/
def ifServed (ioApics : List IoApicInfo) (route : IrqRoute) : Except IrqRoutingError IrqRoute :=
  if Served ioApics route.gsi then .ok route else .error .noIoApicForGsi

/-- The first one of the overrides decides about the route, and the route needs an I/O APIC. -/
structure Routes (t : ApicTopology) (overrides : List InterruptSourceOverride) (ioApics : List IoApicInfo)
    (isaIrq : U8) :
    Prop where
  overridden : ∀ entry, overrides.find? (fun entry => entry.Applies isaIrq) = some entry → ¬ entry.Reserved →
    ∃ polarity trigger, decodeFlags entry = .ok (polarity, trigger) ∧
      (resolveIsaIrq t isaIrq).run =
        .returned (ifServed ioApics ⟨isaIrq, entry.globalSystemInterrupt, polarity, trigger⟩)
  reserved : ∀ entry, overrides.find? (fun entry => entry.Applies isaIrq) = some entry → entry.Reserved →
    (resolveIsaIrq t isaIrq).run = .returned (.error .invalidOverrideFlags)
  identity : overrides.find? (fun entry => entry.Applies isaIrq) = none →
    (resolveIsaIrq t isaIrq).run = .returned (ifServed ioApics (.identity isaIrq))
  nearest : ∀ gsi, Served ioApics gsi →
    ∃ index < t.ioApicCount, ioApicIndexForGsi t gsi = .returned (some index) ∧ Nearest ioApics gsi index

private theorem resolveIsaIrq_run {overrides : List InterruptSourceOverride} {ioApics : List IoApicInfo}
    (hoverrides : Filled t.sourceOverrides t.sourceOverrideCount overrides)
    (hioApics : Filled t.ioApics t.ioApicCount ioApics) (isaIrq : U8) :
    (resolveIsaIrq t isaIrq).run =
      match applyOverrides isaIrq overrides (.identity isaIrq) with
      | .error e => .returned (.error e)
      | .ok route => .returned (ifServed ioApics route) := by
  have hentries : (overrides.map some).filterMap id = overrides := by
    rw [List.filterMap_map]
    exact List.filterMap_some
  rw [resolveIsaIrq, run_lift_bind hoverrides.upTo, hentries]
  cases applyOverrides isaIrq overrides (.identity isaIrq) with
  | error e => rfl
  | ok route =>
    show ((liftM (ioApicIndexForGsi t route.gsi) : Fallible IrqRoutingError (Option Nat)) >>= _).run =
      .returned (ifServed ioApics route)
    rcases ioApicIndexForGsi_cases hioApics route.gsi with ⟨hnone, hserved⟩ | ⟨index, hsome, hserved, _⟩
    · rw [run_lift_bind hnone, ifServed, if_neg hserved]
      rfl
    · rw [run_lift_bind hsome, ifServed, if_pos hserved]
      rfl

private theorem routes_of_filled {overrides : List InterruptSourceOverride} {ioApics : List IoApicInfo}
    (hoverrides : Filled t.sourceOverrides t.sourceOverrideCount overrides)
    (hioApics : Filled t.ioApics t.ioApicCount ioApics) (isaIrq : U8) : Routes t overrides ioApics isaIrq := by
  have hrun := resolveIsaIrq_run hoverrides hioApics isaIrq
  rw [applyOverrides_eq] at hrun
  constructor
  case overridden =>
    intro entry hfind hvalid
    rcases decodeFlags_cases entry with ⟨hreserved, _⟩ | ⟨_, polarity, trigger, hflags⟩
    · exact absurd hreserved hvalid
    · rw [hfind] at hrun
      dsimp only at hrun
      rw [hflags] at hrun
      exact ⟨polarity, trigger, hflags, hrun⟩
  case reserved =>
    intro entry hfind hreserved
    rcases decodeFlags_cases entry with ⟨_, hflags⟩ | ⟨hvalid, _⟩
    · rw [hfind] at hrun
      dsimp only at hrun
      rw [hflags] at hrun
      exact hrun
    · exact absurd hreserved hvalid
  case identity =>
    intro hfind
    rw [hfind] at hrun
    exact hrun
  case nearest =>
    intro gsi hserved
    rcases ioApicIndexForGsi_cases hioApics gsi with ⟨_, hnot⟩ | ⟨index, hindex, _, hnearest⟩
    · exact absurd hserved hnot
    · exact ⟨index, hioApics.count_eq ▸ hnearest.lt_length, hindex, hnearest⟩

end IrqRouting

open IrqRouting in
/-- On the topology of a MADT, the first one of its first 24 overrides decides. -/
theorem resolveIsaIrq_routes {table : Bytes} {t : ApicTopology} {records : List (List U8)}
    (hparse : (Acpi.parseMadt table).run = .returned (.ok t))
    (htiles : Madt.format.Tiles records (table.toList.drop 44)) (isaIrq : U8) :
    Routes t ((records.filterMap Madt.sourceOverride).take 24) ((records.filterMap Madt.ioApic).take 32) isaIrq := by
  have hreads := Acpi.reads_of_parseMadt hparse htiles
  exact routes_of_filled hreads.sourceOverrides hreads.ioApics isaIrq

/-! ### A table with more overrides than places -/

namespace CrowdedMadt

def ioApic : List U8 := [1, 12, 0, 0, 0, 0, 0xC0, 0xFE, 0, 0, 0, 0]

/-- An override of another bus. -/
def foreign : List U8 := [2, 10, 1, 0, 0, 0, 0, 0, 0, 0]

/-- The timer interrupt of a PC, IRQ 0, at GSI 2. -/
def timer : List U8 := [2, 10, 0, 0, 2, 0, 0, 0, 0, 0]

/-- The override of the timer is the one after `n` others. -/
def records (n : Nat) : List (List U8) := ioApic :: (List.replicate n foreign ++ [timer])

def table (n : Nat) (h : n < 100) : Bytes :=
  ⟨List.replicate 44 0 ++ (records n).flatten, by
    have hflatten : (List.replicate n foreign).flatten.length = n * 10 := by
      rw [List.length_flatten, List.map_replicate, List.sum_replicate]
      rfl
    rw [List.length_append, List.length_replicate, records, List.flatten_cons, List.flatten_append,
      List.length_append, List.length_append, hflatten]
    simp only [ioApic, timer, List.flatten_cons, List.flatten_nil, List.length_cons, List.length_nil, List.append_nil]
    omega⟩

def topology (n : Nat) (h : n < 100) : ApicTopology :=
  match (Acpi.parseMadt (table n h)).run with
  | .returned (.ok t) => t
  | _ => .empty

private theorem tiles (n : Nat) (h : n < 100) : Madt.format.Tiles (records n) ((table n h).toList.drop 44) := by
  refine ⟨?_, List.forall_mem_cons.mpr ⟨⟨by decide, by decide⟩, ?_⟩⟩
  · rw [table, List.drop_left' List.length_replicate]
  · intro r hr
    rcases List.mem_append.mp hr with hr | hr
    · rw [List.eq_of_mem_replicate hr]
      exact ⟨by decide, by decide⟩
    · rw [List.mem_singleton.mp hr]
      exact ⟨by decide, by decide⟩

private theorem parse (n : Nat) (h : n < 100) :
    (Acpi.parseMadt (table n h)).run = .returned (.ok (topology n h)) := by
  have hlen : 40 ≤ (table n h).len := by
    rw [Bytes.len, table, List.length_append, List.length_replicate]
    omega
  rcases Acpi.parseMadt_ends hlen with ⟨t, hrun, _⟩ | ⟨e, _, _, hnone⟩
  · rw [topology, hrun]
  · exact absurd ⟨_, tiles n h⟩ hnone

end CrowdedMadt

open IrqRouting CrowdedMadt in
/-- After 23 overrides of another bus, the override of the timer is still among the first 24. -/
theorem resolveIsaIrq_routes_timer :
    (resolveIsaIrq (topology 23 (by decide)) 0).run = .returned (.ok ⟨0, 2, .conformsToBus, .conformsToBus⟩) := by
  have h := resolveIsaIrq_routes (parse 23 (by decide)) (tiles 23 (by decide)) 0
  obtain ⟨polarity, trigger, hflags, hrun⟩ := h.overridden ⟨0, 0, 2, 0⟩ (by decide +kernel)
    (fun hreserved => hreserved.elim (by decide) (by decide))
  cases hflags
  rw [hrun]
  decide +kernel

open IrqRouting CrowdedMadt in
/-- After 24 of them it is not seen, and the timer is routed to GSI 0. -/
theorem override_beyond_capacity :
    (Acpi.parseMadt (table 24 (by decide))).run = .returned (.ok (topology 24 (by decide))) ∧
      Madt.format.Tiles (records 24) ((table 24 (by decide)).toList.drop 44) ∧
      ((records 24).filterMap Madt.sourceOverride).find? (fun entry => entry.Applies 0) = some ⟨0, 0, 2, 0⟩ ∧
      (resolveIsaIrq (topology 24 (by decide)) 0).run = .returned (.ok (.identity 0)) ∧
      (IrqRoute.identity 0).gsi = 0 :=
  ⟨parse 24 (by decide), tiles 24 (by decide), by decide +kernel, by decide +kernel, rfl⟩

end X11Os
