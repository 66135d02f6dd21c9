import X11Os.Lib.Bytes
import X11Os.Lib.Checks
import X11Os.Lib.Records
import X11Os.Lib.SlotArray
import X11Os.Memory.User

/-!
# The interrupt topology of the firmware

`discover` finds the MADT among the ACPI tables, and `parse_madt` copies its records into arrays of fixed size.  The
records of a MADT tell their own length in their second byte (`Madt.format`).  `parse_madt` accepts a table exactly if
its records tile it, and then the four arrays hold the decoded records of their kind in the order of the table, up to
the size of the array (`parseMadt_exact`).  Neither of the two functions panics, whatever the firmware has left in
memory (`discover_ends`).
-/

namespace X11Os

open Word SlotArray

/-! ### Tables -/

structure LocalApicInfo where
  processorId : U8
  apicId : U8
  flags : U32
deriving DecidableEq, Repr

structure LocalX2ApicInfo where
  uid : U32
  x2ApicId : U32
  flags : U32
deriving DecidableEq, Repr

structure IoApicInfo where
  id : U8
  address : U32
  globalSystemInterruptBase : U32
deriving DecidableEq, Repr

structure InterruptSourceOverride where
  bus : U8
  source : U8
  globalSystemInterrupt : U32
  flags : U16
deriving DecidableEq, Repr

inductive AcpiError where
  | missingRsdp
  | invalidRsdpSignature
  | invalidRsdpChecksum
  | invalidExtendedChecksum
  | invalidTableAddress
  | invalidTableHeader
  | invalidTableChecksum
  | xsdtNotFound
  | madtNotFound
  | truncatedMadtEntry
deriving DecidableEq, Repr

structure ApicTopology where
  localApicAddress : U64
  localApics : Vector (Option LocalApicInfo) 256
  localX2Apics : Vector (Option LocalX2ApicInfo) 256
  ioApics : Vector (Option IoApicInfo) 32
  sourceOverrides : Vector (Option InterruptSourceOverride) 24
  localApicCount : Nat
  localX2ApicCount : Nat
  ioApicCount : Nat
  sourceOverrideCount : Nat
deriving DecidableEq, Repr

def ApicTopology.empty : ApicTopology where
  localApicAddress := 0
  localApics := .replicate 256 none
  localX2Apics := .replicate 256 none
  ioApics := .replicate 32 none
  sourceOverrides := .replicate 24 none
  localApicCount := 0
  localX2ApicCount := 0
  ioApicCount := 0
  sourceOverrideCount := 0

namespace Acpi

def rsdpSignature : List U8 := [0x52, 0x53, 0x44, 0x20, 0x50, 0x54, 0x52, 0x20]
def xsdtSignature : List U8 := [0x58, 0x53, 0x44, 0x54]
def madtSignature : List U8 := [0x41, 0x50, 0x49, 0x43]

def madtTypeLocalApic : U8 := 0
def madtTypeIoApic : U8 := 1
def madtTypeInterruptSourceOverride : U8 := 2
def madtTypeLocalX2Apic : U8 := 9

/-! ### Parsing the MADT -/

def readLocalApic (entry : Bytes) : Fallible AcpiError LocalApicInfo := do
  return ⟨← entry.index 2, ← entry.index 3, ← entry.fromLe 4 4 8⟩

def readIoApic (entry : Bytes) : Fallible AcpiError IoApicInfo := do
  return ⟨← entry.index 2, ← entry.fromLe 4 4 8, ← entry.fromLe 4 8 12⟩

def readSourceOverride (entry : Bytes) : Fallible AcpiError InterruptSourceOverride := do
  return ⟨← entry.index 2, ← entry.index 3, ← entry.fromLe 4 4 8, ← entry.fromLe 2 8 10⟩

def readLocalX2Apic (entry : Bytes) : Fallible AcpiError LocalX2ApicInfo := do
  let x2ApicId ← entry.fromLe 4 4 8
  let flags ← entry.fromLe 4 8 12
  let uid ← entry.fromLe 4 12 16
  return ⟨uid, x2ApicId, flags⟩

/-- An entry is read only if there is a place for it. -/
def storeNext {α : Type} {n : Nat} (slots : Vector (Option α) n) (count : Nat) (read : Fallible AcpiError α) :
    Fallible AcpiError (Vector (Option α) n × Nat) :=
  if count < n then do return push slots count (← read) else return (slots, count)

/-- The `match` over the type of the record at `offset`, which ends at `next`. -/
def storeEntry (table : Bytes) (offset next : Nat) (entryType : U8) (entryLength : Nat) (topology : ApicTopology) :
    Fallible AcpiError ApicTopology :=
  if entryType = madtTypeLocalApic ∧ entryLength ≥ 8 then do
    let entry ← table.slice offset next
    let (localApics, localApicCount) ← storeNext topology.localApics topology.localApicCount (readLocalApic entry)
    return { topology with localApics, localApicCount }
  else if entryType = madtTypeIoApic ∧ entryLength ≥ 12 then do
    let entry ← table.slice offset next
    let (ioApics, ioApicCount) ← storeNext topology.ioApics topology.ioApicCount (readIoApic entry)
    return { topology with ioApics, ioApicCount }
  else if entryType = madtTypeInterruptSourceOverride ∧ entryLength ≥ 10 then do
    let entry ← table.slice offset next
    let (sourceOverrides, sourceOverrideCount) ←
      storeNext topology.sourceOverrides topology.sourceOverrideCount (readSourceOverride entry)
    return { topology with sourceOverrides, sourceOverrideCount }
  else if entryType = madtTypeLocalX2Apic ∧ entryLength ≥ 16 then do
    let entry ← table.slice offset next
    let (localX2Apics, localX2ApicCount) ←
      storeNext topology.localX2Apics topology.localX2ApicCount (readLocalX2Apic entry)
    return { topology with localX2Apics, localX2ApicCount }
  else return topology

/-- The loop over the records; running out of fuel counts as a panic. -/
def parseEntries (table : Bytes) : Nat → Nat → ApicTopology → Fallible AcpiError ApicTopology
  | 0, _, _ => liftM (Panics.panicked (α := ApicTopology))
  | fuel + 1, offset, topology =>
    if offset < table.len then do
      reject (table.len - offset < 2) .truncatedMadtEntry
      let entryType ← table.index offset
      let entryLength ← table.index (← Usize.add offset 1)
      reject (entryLength.toNat < 2) .truncatedMadtEntry
      let next ← Usize.add offset entryLength.toNat
      reject (next > table.len) .truncatedMadtEntry
      let topology ← storeEntry table offset next entryType entryLength.toNat topology
      parseEntries table fuel next topology
    else return topology

def parseMadt (table : Bytes) : Fallible AcpiError ApicTopology := do
  let localApicAddress ← table.fromLe 4 36 40
  parseEntries table table.len 44 { ApicTopology.empty with localApicAddress := localApicAddress.setWidth 64 }

/-! ### Finding the MADT -/

private theorem toNat_lt_isize (w : U32) : w.toNat < 2 ^ 63 := Nat.lt_trans w.isLt (by decide)

def readBytes (memory : U64 → U8) (mapping : PhysicalMemoryMapping) (physicalAddress : U64) (length : Nat)
    (hlength : length < 2 ^ 63) : Fallible AcpiError Bytes := do
  let virtualAddress ← okOr (mapping.translate physicalAddress) .invalidTableAddress
  let stop ← okOr (checkedAdd virtualAddress (BitVec.ofNat 64 length)) .invalidTableAddress
  reject (stop ≤ virtualAddress) .invalidTableAddress
  return ⟨X11Os.readBytes memory virtualAddress length, by rwa [length_readBytes]⟩

def checksum (bytes : List U8) : U8 := bytes.foldl (fun sum byte => sum + byte) 0

/-- The loop over the addresses in the XSDT. -/
def searchMadt (memory : U64 → U8) (mapping : PhysicalMemoryMapping) (xsdt : Bytes) :
    List Nat → Fallible AcpiError ApicTopology
  | [] => throw .madtNotFound
  | index :: rest => do
    let offset ← Usize.add 36 (← Usize.mul index 8)
    let tableAddress ← xsdt.fromLe 8 offset (← Usize.add offset 8)
    if tableAddress = 0 then searchMadt memory mapping xsdt rest
    else
      let header ← readBytes memory mapping tableAddress 36 (by decide)
      if (← header.range 0 4) ≠ madtSignature then searchMadt memory mapping xsdt rest
      else
        let madtLength ← header.fromLe 4 4 8
        reject (madtLength.toNat < 44) .invalidTableHeader
        let madt ← readBytes memory mapping tableAddress madtLength.toNat (toNat_lt_isize madtLength)
        reject (checksum madt.toList ≠ 0) .invalidTableChecksum
        parseMadt madt

def discover (memory : U64 → U8) (rsdpPhysicalAddress : U64) (mapping : PhysicalMemoryMapping) :
    Fallible AcpiError ApicTopology := do
  reject (rsdpPhysicalAddress = 0) .missingRsdp
  let rsdp ← readBytes memory mapping rsdpPhysicalAddress 36 (by decide)
  reject ((← rsdp.range 0 8) ≠ rsdpSignature) .invalidRsdpSignature
  reject (checksum (← rsdp.range 0 20) ≠ 0) .invalidRsdpChecksum
  let revision ← rsdp.index 15
  reject (revision = 0) .xsdtNotFound
  let xsdtAddress ← rsdp.fromLe 8 24 32
  reject (checksum rsdp.toList ≠ 0) .invalidExtendedChecksum
  let xsdtHeader ← readBytes memory mapping xsdtAddress 36 (by decide)
  reject ((← xsdtHeader.range 0 4) ≠ xsdtSignature) .invalidTableHeader
  let xsdtLength ← xsdtHeader.fromLe 4 4 8
  reject (xsdtLength.toNat < 36) .invalidTableHeader
  let xsdt ← readBytes memory mapping xsdtAddress xsdtLength.toNat (toNat_lt_isize xsdtLength)
  reject (checksum xsdt.toList ≠ 0) .invalidTableChecksum
  searchMadt memory mapping xsdt (List.range ((xsdtLength.toNat - 36) / 8))

end Acpi

/-! ### Records of a MADT -/

namespace Madt

/-- The second byte of a record is its length. -/
def format : RecordFormat U8 where
  header := 2
  header_pos := by decide
  size l := (leWord 1 l 1).toNat

/-- A record of a kind that is long enough to hold all fields. -/
def ofKind {α : Type} (kind : U8) (least : Nat) (fields : List U8 → α) (r : List U8) : Option α :=
  if leWord 1 r 0 = kind ∧ least ≤ r.length then some (fields r) else none

def localApic : List U8 → Option LocalApicInfo := ofKind 0 8 fun r => ⟨leWord 1 r 2, leWord 1 r 3, leWord 4 r 4⟩

def ioApic : List U8 → Option IoApicInfo := ofKind 1 12 fun r => ⟨leWord 1 r 2, leWord 4 r 4, leWord 4 r 8⟩

def sourceOverride : List U8 → Option InterruptSourceOverride :=
  ofKind 2 10 fun r => ⟨leWord 1 r 2, leWord 1 r 3, leWord 4 r 4, leWord 2 r 8⟩

def localX2Apic : List U8 → Option LocalX2ApicInfo :=
  ofKind 9 16 fun r => ⟨leWord 4 r 12, leWord 4 r 4, leWord 4 r 8⟩

end Madt

/-- The arrays of the topology hold the first records of each kind, in their order. -/
structure ApicTopology.Reads (t : ApicTopology) (records : List (List U8)) : Prop where
  localApics : Filled t.localApics t.localApicCount ((records.filterMap Madt.localApic).take 256)
  ioApics : Filled t.ioApics t.ioApicCount ((records.filterMap Madt.ioApic).take 32)
  sourceOverrides :
    Filled t.sourceOverrides t.sourceOverrideCount ((records.filterMap Madt.sourceOverride).take 24)
  localX2Apics : Filled t.localX2Apics t.localX2ApicCount ((records.filterMap Madt.localX2Apic).take 256)

namespace ApicTopology.Reads

variable {α : Type} {n : Nat} {slots : Vector (Option α) n} {count : Nat} {records : List (List U8)} {r : List U8}
  {f : List U8 → Option α}

private theorem filled_of_none (h : Filled slots count ((records.filterMap f).take n)) (hf : f r = none) :
    Filled slots count (((records ++ [r]).filterMap f).take n) := by
  rwa [List.filterMap_append, List.filterMap_cons_none hf, List.filterMap_nil, List.append_nil]

private theorem filled_of_some {x : α} (h : Filled slots count ((records.filterMap f).take n)) (hf : f r = some x) :
    Filled (push slots count x).1 (push slots count x).2 (((records ++ [r]).filterMap f).take n) := by
  rw [List.filterMap_append, List.filterMap_cons_some hf, List.filterMap_nil]
  exact h.push x

end ApicTopology.Reads

namespace Madt

variable {α : Type} {kind : U8} {least : Nat} {fields : List U8 → α} {r : List U8}

private theorem ofKind_of_ne (h : leWord 1 r 0 ≠ kind) : ofKind kind least fields r = none := if_neg fun h' => h h'.1

end Madt

namespace Acpi

open Fallible ApicTopology.Reads Madt

private theorem storeNext_ends {α β : Type} {n : Nat} {slots : Vector (Option α) n} {count : Nat}
    {read : Fallible AcpiError α}
    {f : Vector (Option α) n × Nat → Fallible AcpiError β} {R : β → Prop} {E : AcpiError → Prop} {x : α}
    (hread : read.run = .returned (.ok x)) (hf : Ends (f (push slots count x)) R E) :
    Ends (storeNext slots count read >>= f) R E := by
  refine .bind (P := fun p => p = push slots count x) (.inl ⟨_, ?_, rfl⟩) fun p hp => hp ▸ hf
  unfold storeNext push
  split_ifs
  · show Panics.bind read.run _ = _
    rw [hread]
    rfl
  · rfl

section Fields

variable {entry : Bytes}

private theorem readLocalApic_run (h : 8 ≤ entry.len) : (readLocalApic entry).run =
    .returned (.ok ⟨leWord 1 entry.toList 2, leWord 1 entry.toList 3, leWord 4 entry.toList 4⟩) := by
  rw [readLocalApic, entry.index_eq_leWord 2 (by omega), entry.index_eq_leWord 3 (by omega),
    entry.fromLe_of_le 4 4 (by omega)]
  rfl

private theorem readIoApic_run (h : 12 ≤ entry.len) : (readIoApic entry).run =
    .returned (.ok ⟨leWord 1 entry.toList 2, leWord 4 entry.toList 4, leWord 4 entry.toList 8⟩) := by
  rw [readIoApic, entry.index_eq_leWord 2 (by omega), entry.fromLe_of_le 4 4 (by omega),
    entry.fromLe_of_le 4 8 (by omega)]
  rfl

private theorem readSourceOverride_run (h : 10 ≤ entry.len) : (readSourceOverride entry).run =
    .returned (.ok ⟨leWord 1 entry.toList 2, leWord 1 entry.toList 3, leWord 4 entry.toList 4,
      leWord 2 entry.toList 8⟩) := by
  rw [readSourceOverride, entry.index_eq_leWord 2 (by omega), entry.index_eq_leWord 3 (by omega),
    entry.fromLe_of_le 4 4 (by omega), entry.fromLe_of_le 2 8 (by omega)]
  rfl

private theorem readLocalX2Apic_run (h : 16 ≤ entry.len) : (readLocalX2Apic entry).run =
    .returned (.ok ⟨leWord 4 entry.toList 12, leWord 4 entry.toList 4, leWord 4 entry.toList 8⟩) := by
  rw [readLocalX2Apic, entry.fromLe_of_le 4 4 (by omega), entry.fromLe_of_le 4 8 (by omega),
    entry.fromLe_of_le 4 12 (by omega)]
  rfl

end Fields

/-- What the `match` does with a record: it goes to the array of its kind, or to none. -/
private theorem storeEntry_ends {table : Bytes} {offset length : Nat} {t : ApicTopology} {done : List (List U8)}
    (hnext : offset + length ≤ table.len) (ht : t.Reads done) {r : List U8}
    (hr : r = (table.toList.drop offset).take length) :
    Ends (storeEntry table offset (offset + length) (leWord 1 r 0) length t)
      (fun t' => t'.Reads (done ++ [r]) ∧ t'.localApicAddress = t.localApicAddress) fun _ => False := by
  obtain ⟨entry, hslice, hentry⟩ := table.slice_of_le (Nat.le_add_right offset length) hnext
  rw [Nat.add_sub_cancel_left, ← hr] at hentry
  have hlen : entry.len = length := by
    rw [Bytes.len, hentry, hr, List.length_take, List.length_drop]
    exact Nat.min_eq_left (Nat.le_sub_of_add_le' hnext)
  rw [← hentry, ← hlen]
  rw [← hlen] at hslice
  unfold storeEntry
  split_ifs with hlocal hio hoverride hx2
  · refine .lift hslice (storeNext_ends (readLocalApic_run hlocal.2) (.pure ⟨?_, rfl⟩))
    have hkind := hlocal.1
    exact ⟨filled_of_some ht.localApics (if_pos hlocal),
      filled_of_none ht.ioApics (ofKind_of_ne (by rw [hkind]; decide)),
      filled_of_none ht.sourceOverrides (ofKind_of_ne (by rw [hkind]; decide)),
      filled_of_none ht.localX2Apics (ofKind_of_ne (by rw [hkind]; decide))⟩
  · refine .lift hslice (storeNext_ends (readIoApic_run hio.2) (.pure ⟨?_, rfl⟩))
    have hkind := hio.1
    exact ⟨filled_of_none ht.localApics (if_neg hlocal), filled_of_some ht.ioApics (if_pos hio),
      filled_of_none ht.sourceOverrides (ofKind_of_ne (by rw [hkind]; decide)),
      filled_of_none ht.localX2Apics (ofKind_of_ne (by rw [hkind]; decide))⟩
  · refine .lift hslice (storeNext_ends (readSourceOverride_run hoverride.2) (.pure ⟨?_, rfl⟩))
    have hkind := hoverride.1
    exact ⟨filled_of_none ht.localApics (if_neg hlocal), filled_of_none ht.ioApics (if_neg hio),
      filled_of_some ht.sourceOverrides (if_pos hoverride),
      filled_of_none ht.localX2Apics (ofKind_of_ne (by rw [hkind]; decide))⟩
  · refine .lift hslice (storeNext_ends (readLocalX2Apic_run hx2.2) (.pure ⟨?_, rfl⟩))
    exact ⟨filled_of_none ht.localApics (if_neg hlocal), filled_of_none ht.ioApics (if_neg hio),
      filled_of_none ht.sourceOverrides (if_neg hoverride), filled_of_some ht.localX2Apics (if_pos hx2)⟩
  · exact .pure ⟨⟨filled_of_none ht.localApics (if_neg hlocal), filled_of_none ht.ioApics (if_neg hio),
      filled_of_none ht.sourceOverrides (if_neg hoverride), filled_of_none ht.localX2Apics (if_neg hx2)⟩, rfl⟩

/-- The loop splits the rest of the table into records. -/
private theorem parseEntries_ends {table : Bytes} {fuel offset : Nat} {t : ApicTopology} {done : List (List U8)}
    (hfuel : table.len - offset < fuel) (ht : t.Reads done) :
    Ends (parseEntries table fuel offset t)
      (fun t' => ∃ records, format.split (table.toList.drop offset) = some records ∧ t'.Reads (done ++ records) ∧
        t'.localApicAddress = t.localApicAddress)
      fun e => e = .truncatedMadtEntry ∧ format.split (table.toList.drop offset) = none := by
  induction fuel generalizing offset t done with
  | zero => omega
  | succ fuel ih =>
    have hbound : table.len < 2 ^ 63 := table.length_lt
    have hlength : (table.toList.drop offset).length = table.len - offset := List.length_drop
    unfold parseEntries
    split_ifs with hoffset
    · have hne : table.toList.drop offset ≠ [] := by
        rw [← List.length_pos_iff]
        omega
      have hheader : format.header = 2 := rfl
      refine .reject (fun hshort => ⟨rfl, RecordFormat.split_eq_none_of hne (by omega)⟩) fun hshort => ?_
      refine .lift (table.index_eq_leWord offset hoffset) (.lift (Usize.add_of_lt (by omega)) ?_)
      refine .lift (table.index_eq_leWord (offset + 1) (by omega)) ?_
      have hfront : format.front (table.toList.drop offset) = (leWord 1 table.toList (offset + 1)).toNat :=
        congrArg BitVec.toNat ((leWord_take _ (Nat.le_refl 2)).trans (leWord_drop ..))
      rw [← hfront]
      generalize hlen : format.front (table.toList.drop offset) = length at hfront
      refine .reject (fun hsmall => ⟨rfl, RecordFormat.split_eq_none_of hne (by omega)⟩) fun hsmall => ?_
      have hbyte : length < 2 ^ 8 := hfront ▸ (leWord 1 table.toList (offset + 1)).isLt
      refine .lift (Usize.add_of_lt (by omega)) ?_
      refine .reject (fun hlong => ⟨rfl, RecordFormat.split_eq_none_of hne (by omega)⟩) fun hlong => ?_
      have hsplit := RecordFormat.split_of_ne_nil (F := format) hne (by omega) (by omega)
      rw [hlen, List.drop_drop] at hsplit
      have hkind : leWord 1 ((table.toList.drop offset).take length) 0 = leWord 1 table.toList offset :=
        (leWord_take _ (by omega)).trans (leWord_drop ..)
      rw [← hkind]
      refine .bind ((storeEntry_ends (by omega) ht rfl).imp (fun _ h => h) fun _ h => h.elim)
        fun t' ⟨ht', haddress⟩ => ?_
      refine (ih (by omega) ht').imp ?_ fun e ⟨he, hnone⟩ => ⟨he, by rw [hsplit, hnone, Option.map_none]⟩
      rintro t'' ⟨records, hrecords, hreads, haddress'⟩
      rw [List.append_assoc, List.singleton_append] at hreads
      exact ⟨_, by rw [hsplit, hrecords, Option.map_some], hreads, haddress'.trans haddress⟩
    · refine .pure ⟨[], ?_, ?_, rfl⟩
      · rw [List.drop_of_length_le (Nat.not_lt.mp hoffset), RecordFormat.split_nil]
      · rwa [List.append_nil]

private theorem empty_reads (localApicAddress : U64) : { ApicTopology.empty with localApicAddress }.Reads [] :=
  ⟨filled_empty, filled_empty, filled_empty, filled_empty⟩

theorem parseMadt_ends {table : Bytes} (h : 40 ≤ table.len) :
    Ends (parseMadt table) (fun t => ∃ records, format.Tiles records (table.toList.drop 44) ∧ t.Reads records)
      fun e => e = .truncatedMadtEntry ∧ ¬ ∃ records, format.Tiles records (table.toList.drop 44) := by
  refine .lift (table.fromLe_of_le 4 36 h) ?_
  refine (parseEntries_ends (by omega) (empty_reads _)).imp ?_ ?_
  · intro t ⟨records, hsplit, hreads, _⟩
    exact ⟨records, RecordFormat.split_eq_some.mp hsplit, hreads⟩
  · intro e ⟨he, hsplit⟩
    exact ⟨he, RecordFormat.split_eq_none.mp hsplit⟩

private theorem len_of_parseMadt {table : Bytes} {t : ApicTopology} (h : (parseMadt table).run = .returned (.ok t)) :
    40 ≤ table.len := by
  by_contra hshort
  have hpanics : table.fromLe 4 36 40 = .panicked := by
    rw [Bytes.fromLe, Bytes.range, Bytes.get, if_neg fun hrange => hshort hrange.2]
    rfl
  have hrun : (parseMadt table).run = .panicked := by
    unfold parseMadt
    rw [hpanics]
    rfl
  rw [hrun] at h
  cases h

theorem reads_of_parseMadt {table : Bytes} {t : ApicTopology} {records : List (List U8)}
    (h : (parseMadt table).run = .returned (.ok t)) (htiles : format.Tiles records (table.toList.drop 44)) :
    t.Reads records := by
  obtain ⟨records', htiles', hreads⟩ := (parseMadt_ends (len_of_parseMadt h)).of_ok h
  rwa [htiles.unique htiles']

/-- `parse_madt` accepts what is tiled by records, and stores them. -/
structure ParsesExactly (table : Bytes) : Prop where
  accepts_iff : (∃ t, (parseMadt table).run = .returned (.ok t)) ↔
    ∃ records, format.Tiles records (table.toList.drop 44)
  rejects : (¬ ∃ records, format.Tiles records (table.toList.drop 44)) →
    (parseMadt table).run = .returned (.error .truncatedMadtEntry)
  reads : ∀ t records, (parseMadt table).run = .returned (.ok t) → format.Tiles records (table.toList.drop 44) →
    t.Reads records

theorem parseMadt_exact (table : Bytes) (h : 44 ≤ table.len) : ParsesExactly table := by
  refine ⟨?_, ?_, fun t records => reads_of_parseMadt⟩
  all_goals rcases parseMadt_ends (Nat.le_trans (by decide) h) with ⟨t, hrun, records, htiles, _⟩ |
    ⟨e, hrun, rfl, hnone⟩
  · exact ⟨fun _ => ⟨records, htiles⟩, fun _ => ⟨t, hrun⟩⟩
  · refine ⟨fun ⟨t, ht⟩ => ?_, fun h => absurd h hnone⟩
    rw [hrun] at ht
    cases ht
  · exact fun hnone => absurd ⟨records, htiles⟩ hnone
  · exact fun _ => hrun

/-- A table with one record, of an I/O APIC. -/
theorem parseMadt_exact_ioApic :
    ∃ t, (parseMadt ⟨List.replicate 44 0 ++ [1, 12, 7, 0, 0, 0, 0xC0, 0xFE, 0, 0, 0, 0], by decide⟩).run =
        .returned (.ok t) ∧
      Filled t.ioApics t.ioApicCount [⟨7, 0xFEC00000, 0⟩] := by
  have h := parseMadt_exact ⟨List.replicate 44 0 ++ [1, 12, 7, 0, 0, 0, 0xC0, 0xFE, 0, 0, 0, 0], by decide⟩
    (by decide)
  have htiles : format.Tiles [[1, 12, 7, 0, 0, 0, 0xC0, 0xFE, 0, 0, 0, 0]]
      ((List.replicate 44 0 ++ [1, 12, 7, 0, 0, 0, 0xC0, 0xFE, 0, 0, 0, 0]).drop 44) :=
    ⟨rfl, List.forall_mem_singleton.mpr ⟨by decide, by decide⟩⟩
  obtain ⟨t, ht⟩ := h.accepts_iff.mpr ⟨_, htiles⟩
  exact ⟨t, ht, (h.reads t _ ht htiles).ioApics⟩

/-! ### The table that is parsed -/

/-- The bytes of a MADT in memory, as its header and its checksum tell. -/
structure IsMadt (memory : U64 → U8) (madt : Bytes) : Prop where
  found : ∃ address, madt.toList = X11Os.readBytes memory address madt.len
  signature : madt.toList.take 4 = madtSignature
  length_eq : (leWord 4 madt.toList 4).toNat = madt.len
  least : 44 ≤ madt.len
  checksum_eq : checksum madt.toList = 0

section Discover

variable {memory : U64 → U8} {mapping : PhysicalMemoryMapping} {address : U64}

private theorem readBytes_ends {length : Nat} (hlength : length < 2 ^ 63) :
    Ends (readBytes memory mapping address length hlength)
      (fun bytes => bytes.len = length ∧ ∃ virtualAddress, mapping.translate address = some virtualAddress ∧
        bytes.toList = X11Os.readBytes memory virtualAddress length)
      fun _ => True := by
  refine .okOr (fun _ => trivial) fun virtualAddress htranslate => ?_
  refine .okOr (fun _ => trivial) fun stop _ => .reject (fun _ => trivial) fun _ => ?_
  refine .pure ⟨?_, virtualAddress, htranslate, rfl⟩
  exact length_readBytes ..

/-- Two readings from one address begin with the same bytes. -/
private theorem take_readBytes {n k : Nat} (h : k ≤ n) :
    (X11Os.readBytes memory address n).take k = X11Os.readBytes memory address k := by
  obtain ⟨m, rfl⟩ := Nat.exists_eq_add_of_le h
  rw [readBytes_add, List.take_left' (length_readBytes ..)]

private theorem searchMadt_ends {xsdt : Bytes} {indices : List Nat} (h : ∀ i ∈ indices, 36 + i * 8 + 8 ≤ xsdt.len) :
    Ends (searchMadt memory mapping xsdt indices)
      (fun t => ∃ madt records, IsMadt memory madt ∧ format.Tiles records (madt.toList.drop 44) ∧ t.Reads records)
      fun _ => True := by
  have hbound : xsdt.len < 2 ^ 63 := xsdt.length_lt
  induction indices with
  | nil => exact .throw trivial
  | cons i rest ih =>
    rw [List.forall_mem_cons] at h
    have hi := h.1
    unfold searchMadt
    refine .lift (Usize.mul_of_lt (by omega))
      (.lift (Usize.add_of_lt (by omega)) (.lift (Usize.add_of_lt (by omega)) ?_))
    refine .lift (xsdt.fromLe_of_le 8 (36 + i * 8) hi) ?_
    split_ifs with hzero
    · exact ih h.2
    · refine .bind (readBytes_ends _) fun header ⟨hheader, virtualAddress, htranslate, hbytes⟩ => ?_
      refine .lift (Bytes.range_of_le (by decide) (by omega)) ?_
      split_ifs with hsignature
      · exact ih h.2
      · refine .lift (header.fromLe_of_le 4 4 (by omega)) (.reject (fun _ => trivial) fun hleast => ?_)
        refine .bind (readBytes_ends _) fun madt ⟨hmadt, virtualAddress', htranslate', hbytes'⟩ => ?_
        obtain rfl : virtualAddress = virtualAddress' := Option.some_inj.mp (htranslate.symm.trans htranslate')
        refine .reject (fun _ => trivial) fun hchecksum => ?_
        refine (parseMadt_ends (by omega)).imp (fun t ⟨records, htiles, hreads⟩ => ?_) fun _ _ => trivial
        -- the header was read from the same memory as the table
        have hfront : ∀ k ≤ 36, madt.toList.take k = header.toList.take k := by
          intro k hk
          rw [hbytes, hbytes', take_readBytes hk, take_readBytes (by omega)]
        have hlength : leWord 4 madt.toList 4 = leWord 4 header.toList 4 := by
          rw [← leWord_take madt.toList (n := 8) (by decide), hfront 8 (by decide), leWord_take _ (by decide)]
        refine ⟨madt, records, ⟨⟨virtualAddress, hmadt ▸ hbytes'⟩, ?_, ?_, ?_, not_not.mp hchecksum⟩, htiles, hreads⟩
        · rw [hfront 4 (by decide)]
          exact not_not.mp hsignature
        · rw [hlength, hmadt]
        · omega

/-- Whatever is in memory, `discover` returns, and a topology that it returns is the one of a MADT in memory. -/
theorem discover_ends :
    Ends (discover memory address mapping)
      (fun t => ∃ madt records, IsMadt memory madt ∧ format.Tiles records (madt.toList.drop 44) ∧ t.Reads records)
      fun _ => True := by
  refine .reject (fun _ => trivial) fun _ => .bind (readBytes_ends _) fun rsdp ⟨hrsdp, _⟩ => ?_
  refine .lift (Bytes.range_of_le (by decide) (by omega)) (.reject (fun _ => trivial) fun _ => ?_)
  refine .lift (Bytes.range_of_le (by decide) (by omega)) (.reject (fun _ => trivial) fun _ => ?_)
  refine .lift (Bytes.index_of_lt (by omega)) (.reject (fun _ => trivial) fun _ => ?_)
  refine .lift (rsdp.fromLe_of_le 8 24 (by omega)) (.reject (fun _ => trivial) fun _ => ?_)
  refine .bind (readBytes_ends _) fun header ⟨hheader, _⟩ => ?_
  refine .lift (Bytes.range_of_le (by decide) (by omega)) (.reject (fun _ => trivial) fun _ => ?_)
  refine .lift (header.fromLe_of_le 4 4 (by omega)) (.reject (fun _ => trivial) fun _ => ?_)
  refine .bind (readBytes_ends _) fun xsdt ⟨hxsdt, _⟩ => .reject (fun _ => trivial) fun _ => ?_
  apply searchMadt_ends
  intro i hi
  rw [List.mem_range] at hi
  omega

end Discover

end Acpi

end X11Os
