import X11Os.Lib.Checks
import X11Os.Lib.Lists
import X11Os.Process.Image

/-!
# The accepted ELF format

What an executable is (`Elf.WellFormed`), in terms of the numbers that its bytes encode, and that `ElfImage::parse`
accepts exactly these byte strings and decodes their program table.
-/

namespace X11Os

open Word Fallible

/-! ### The format -/

/-- A program header, as far as the loader reads it. -/
structure ProgramHeader where
  kind : Nat
  flags : Nat
  offset : Nat
  vaddr : Nat
  filesz : Nat
  memsz : Nat
deriving DecidableEq, Repr

/-- A segment that can be loaded from a file of the given length: not both writable and executable, not empty, its
file part in the file and its range in user space. -/
structure ProgramHeader.Loadable (length : Nat) (h : ProgramHeader) : Prop where
  permissions : ¬ (h.flags.testBit 1 = true ∧ h.flags.testBit 0 = true)
  sizes : h.filesz ≤ h.memsz
  nonempty : 0 < h.memsz
  file : h.offset + h.filesz ≤ length
  start : userSpaceStart.toNat ≤ h.vaddr
  stop : h.vaddr + h.memsz ≤ kernelSpaceStart.toNat

namespace Elf

variable (bytes : Bytes)

def entry : Nat := bytes.leAt 8 24
def phoff : Nat := bytes.leAt 8 32
def phentsize : Nat := bytes.leAt 2 54
def phnum : Nat := bytes.leAt 2 56

def programHeaderAt (base : Nat) : ProgramHeader where
  kind := bytes.leAt 4 base
  flags := bytes.leAt 4 (base + 4)
  offset := bytes.leAt 8 (base + 8)
  vaddr := bytes.leAt 8 (base + 16)
  filesz := bytes.leAt 8 (base + 32)
  memsz := bytes.leAt 8 (base + 40)

def programHeader (index : Nat) : ProgramHeader := programHeaderAt bytes (phoff bytes + index * phentsize bytes)

/-- The PT_LOAD headers among the given ones, in this order. -/
def loadHeadersOf (indices : List Nat) : List ProgramHeader :=
  (indices.map (programHeader bytes)).filter (·.kind == 1)

def loadHeaders : List ProgramHeader := loadHeadersOf bytes (List.range (phnum bytes))

structure WellFormed : Prop where
  length : 64 ≤ bytes.len
  magic : bytes.toList.take 4 = [0x7f, 0x45, 0x4c, 0x46]
  class64 : bytes.toList[4]? = some 2
  littleEndian : bytes.toList[5]? = some 1
  executable : bytes.leAt 2 16 = 2
  machine : bytes.leAt 2 18 = 62
  entrySize : 56 ≤ phentsize bytes
  count : 1 ≤ phnum bytes ∧ phnum bytes ≤ 8
  table : phoff bytes + phentsize bytes * phnum bytes ≤ bytes.len
  loadable : ∀ h ∈ loadHeaders bytes, h.Loadable bytes.len
  entryLoaded : ∃ h ∈ loadHeaders bytes, h.vaddr ≤ entry bytes ∧ entry bytes < h.vaddr + h.memsz

end Elf

/-- The segment has the fields of the header. -/
structure ProgramHeader.DecodesTo (h : ProgramHeader) (s : LoadSegment) : Prop where
  start : s.virtualRange.start.toNat = h.vaddr
  stop : s.virtualRange.stop.toNat = h.vaddr + h.memsz
  flags : s.flags.toNat = h.flags
  fileOffset : s.fileOffset.toNat = h.offset
  fileSize : s.fileSize.toNat = h.filesz
  memorySize : s.memorySize.toNat = h.memsz

theorem ProgramHeader.DecodesTo.contains {h : ProgramHeader} {s : LoadSegment} (hs : h.DecodesTo s) {address : U64} :
    s.virtualRange.contains address = true ↔ h.vaddr ≤ address.toNat ∧ address.toNat < h.vaddr + h.memsz := by
  rw [VirtRange.contains_iff, hs.start, hs.stop]

/-! ### One header -/

/-- A flag is set when its bit is. -/
private theorem and_twoPow_ne_zero {flags : U32} {i : Nat} (hi : i < 32) :
    flags &&& BitVec.twoPow 32 i ≠ 0 ↔ flags.toNat.testBit i = true := by
  have hpow : BitVec.twoPow 32 i ≠ 0 := by
    intro h
    have hbit := congrArg (BitVec.getLsbD · i) h
    simp [hi] at hbit
  rw [BitVec.and_twoPow, ← BitVec.getLsbD]
  split_ifs with hbit
  · exact ⟨fun _ => hbit, fun _ => hpow⟩
  · simp [hbit]

namespace ElfImage

open Elf

variable {bytes : Bytes}

private theorem parseSegment_checks {base : Nat} (hbase : base + 48 ≤ bytes.len) :
    Checks (parseSegment bytes base) ((programHeaderAt bytes base).Loadable bytes.len)
      (programHeaderAt bytes base).DecodesTo := by
  have hlen : bytes.len < 2 ^ 63 := bytes.length_lt
  have hadd : ∀ k ≤ 48, Usize.add base k = .returned (base + k) := fun k hk => if_pos (by omega)
  obtain ⟨flags, hflags, hflagsVal⟩ := bytes.readLe_of_le 4 (base + 4) (by omega)
  obtain ⟨fileOffset, hfileOffset, hfileOffsetVal⟩ := bytes.readLe_of_le 8 (base + 8) (by omega)
  obtain ⟨vaddr, hvaddr, hvaddrVal⟩ := bytes.readLe_of_le 8 (base + 16) (by omega)
  obtain ⟨fileSize, hfileSize, hfileSizeVal⟩ := bytes.readLe_of_le 8 (base + 32) (by omega)
  obtain ⟨memorySize, hmemorySize, hmemorySizeVal⟩ := bytes.readLe_of_le 8 (base + 40) (by omega)
  unfold parseSegment
  refine .lift (hadd 4 (by decide)) (.okOr_some hflags ?_)
  refine .lift (hadd 8 (by decide)) (.okOr_some hfileOffset ?_)
  refine .lift (hadd 16 (by decide)) (.okOr_some hvaddr ?_)
  refine .lift (hadd 32 (by decide)) (.okOr_some hfileSize ?_)
  refine .lift (hadd 40 (by decide)) (.okOr_some hmemorySize ?_)
  -- from here on only the decoded numbers matter
  generalize hh : programHeaderAt bytes base = h
  replace hflagsVal : flags.toNat = h.flags := hh ▸ hflagsVal
  replace hfileOffsetVal : fileOffset.toNat = h.offset := hh ▸ hfileOffsetVal
  replace hvaddrVal : vaddr.toNat = h.vaddr := hh ▸ hvaddrVal
  replace hfileSizeVal : fileSize.toNat = h.filesz := hh ▸ hfileSizeVal
  replace hmemorySizeVal : memorySize.toNat = h.memsz := hh ▸ hmemorySizeVal
  have hkernel : h.Loadable bytes.len → h.vaddr + h.memsz < 2 ^ 64 :=
    fun hload => Nat.lt_of_le_of_lt hload.stop kernelSpaceStart.isLt
  have hW : flags &&& pfW ≠ 0 ↔ h.flags.testBit 1 = true := by
    rw [← hflagsVal]
    exact and_twoPow_ne_zero (i := 1) (by decide)
  have hX : flags &&& pfX ≠ 0 ↔ h.flags.testBit 0 = true := by
    rw [← hflagsVal]
    exact and_twoPow_ne_zero (i := 0) (by decide)
  refine .reject (fun hboth hload => hload.permissions ⟨hW.mp hboth.1, hX.mp hboth.2⟩) fun hpermissions => ?_
  rw [hW, hX] at hpermissions
  refine .reject (fun hlt hload => ?_) fun hsizes => ?_
  · have hle := hload.sizes
    rw [BitVec.lt_def, hfileSizeVal, hmemorySizeVal] at hlt
    omega
  rw [BitVec.not_lt, BitVec.le_def, hfileSizeVal, hmemorySizeVal] at hsizes
  refine .okOr (fun hnone hload => ?_) fun fileEnd hfileEnd => ?_
  · have hle := hload.file
    rw [checkedAdd_eq_none, hfileOffsetVal, hfileSizeVal] at hnone
    omega
  rw [checkedAdd_eq_some, hfileOffsetVal, hfileSizeVal] at hfileEnd
  refine .reject (fun hgt hload => ?_) fun hfile => ?_
  · have hle := hload.file
    omega
  refine .okOr (fun hnone hload => ?_) fun virtualEnd hvirtualEnd => ?_
  · have hlt := hkernel hload
    rw [checkedAdd_eq_none, hvaddrVal, hmemorySizeVal] at hnone
    omega
  rw [checkedAdd_eq_some, hvaddrVal, hmemorySizeVal] at hvirtualEnd
  have hordered : vaddr ≤ virtualEnd := by
    rw [BitVec.le_def]
    omega
  have hrange : VirtRange.new vaddr virtualEnd = some ⟨vaddr, virtualEnd, hordered⟩ := dif_pos hordered
  refine .okOr_some hrange ?_
  have hempty : (⟨vaddr, virtualEnd, hordered⟩ : VirtRange).len = 0 ↔ h.memsz = 0 := by
    rw [← BitVec.toNat_inj, VirtRange.len, BitVec.toNat_sub_of_le hordered, hvirtualEnd, hvaddrVal,
      Nat.add_sub_cancel_left]
    rfl
  have huser : (⟨vaddr, virtualEnd, hordered⟩ : VirtRange).isUser = true ↔
      userSpaceStart.toNat ≤ h.vaddr ∧ h.vaddr + h.memsz ≤ kernelSpaceStart.toNat := by
    rw [VirtRange.isUser, Bool.and_eq_true, decide_eq_true_iff, decide_eq_true_iff, ge_iff_le, BitVec.le_def,
      BitVec.le_def, hvirtualEnd, hvaddrVal]
  refine .reject (fun hbad hload => ?_) fun hgood => ?_
  · rcases hbad with hbad | hbad
    · exact absurd (hempty.mp hbad) (Nat.pos_iff_ne_zero.mp hload.nonempty)
    · rw [huser.mpr ⟨hload.start, hload.stop⟩] at hbad
      cases hbad
  rw [hempty, not_or, Bool.not_eq_true, Bool.not_eq_false', huser] at hgood
  refine .pure ?_ ⟨hvaddrVal, hvirtualEnd, hflagsVal, hfileOffsetVal, hfileSizeVal, hmemorySizeVal⟩
  exact ⟨hpermissions, hsizes, Nat.pos_iff_ne_zero.mpr hgood.1, by omega, hgood.2.1, hgood.2.2⟩

/-! ### The program table -/

private theorem loadHeadersOf_cons (bytes : Bytes) (index : Nat) (rest : List Nat) :
    loadHeadersOf bytes (index :: rest) =
    if (programHeader bytes index).kind = 1 then programHeader bytes index :: loadHeadersOf bytes rest
    else loadHeadersOf bytes rest := by
  simp only [loadHeadersOf, List.map_cons, List.filter_cons, beq_iff_eq]

/-- What the loop leaves: the decoded headers after the segments that were there, and whether the entry is loaded. -/
structure Collected (bytes : Bytes) (entry : U64) (indices : List Nat) (before after : List LoadSegment × Bool) :
    Prop where
  segments : ∃ decoded, after.1 = before.1 ++ decoded ∧
    List.Forall₂ ProgramHeader.DecodesTo (loadHeadersOf bytes indices) decoded
  entryIsLoaded : after.2 = true ↔ before.2 = true ∨
    ∃ h ∈ loadHeadersOf bytes indices, h.vaddr ≤ entry.toNat ∧ entry.toNat < h.vaddr + h.memsz

private theorem parseHeaders_checks {entry : U64} {indices : List Nat}
    (htable : ∀ i ∈ indices, phoff bytes + i * phentsize bytes + 48 ≤ bytes.len) {before : List LoadSegment × Bool}
    (hroom : before.1.length + indices.length ≤ maxSegments) :
    Checks (parseHeaders bytes entry (phoff bytes) (phentsize bytes) indices before)
      (∀ h ∈ loadHeadersOf bytes indices, h.Loadable bytes.len) (Collected bytes entry indices before) := by
  have hlen : bytes.len < 2 ^ 63 := bytes.length_lt
  induction indices generalizing before with
  | nil =>
    refine .pure (fun h hh => absurd hh List.not_mem_nil) ⟨⟨[], (List.append_nil _).symm, .nil⟩, ?_⟩
    simp [loadHeadersOf]
  | cons index rest ih =>
    obtain ⟨segments, found⟩ := before
    rw [List.forall_mem_cons] at htable
    obtain ⟨hbase, hrest⟩ := htable
    have hmul : Usize.mul index (phentsize bytes) = .returned (index * phentsize bytes) := if_pos (by omega)
    have hadd : Usize.add (phoff bytes) (index * phentsize bytes) =
      .returned (phoff bytes + index * phentsize bytes) := if_pos (by omega)
    obtain ⟨kind, hkind, hkindVal⟩ :=
      bytes.readLe_of_le 4 (phoff bytes + index * phentsize bytes) (by omega)
    unfold parseHeaders
    refine .lift hmul (.lift hadd (.okOr_some hkind ?_))
    rw [List.length_cons] at hroom
    have hload : kind = ptLoad ↔ (programHeader bytes index).kind = 1 := by
      rw [← BitVec.toNat_inj, hkindVal]
      rfl
    by_cases hone : (programHeader bytes index).kind = 1
    · have hheaders := (loadHeadersOf_cons bytes index rest).trans (if_pos hone)
      rw [if_neg (not_not.mpr (hload.mpr hone)), hheaders, List.forall_mem_cons]
      refine .bind (parseSegment_checks hbase) (fun hbad hall => hbad hall.1) fun segment hsegment hdecodes => ?_
      -- there is a place in the segment table for every header of the file
      have hpush : pushSegment segments segment = .returned (segments ++ [segment]) :=
        if_pos (by dsimp only at hroom; omega)
      refine .lift hpush ?_
      refine (ih hrest ?_).imp (and_iff_right hsegment).symm fun after hafter => ?_
      · rw [List.length_append, List.length_singleton]
        dsimp only at hroom
        omega
      · obtain ⟨⟨decoded, hdecoded, hforall⟩, hentry⟩ := hafter
        refine ⟨⟨segment :: decoded, ?_, ?_⟩, ?_⟩
        · rw [hdecoded, List.append_assoc]
          rfl
        · rw [hheaders]
          exact .cons hdecodes hforall
        · rw [hentry, hheaders, Bool.or_eq_true, hdecodes.contains, List.exists_mem_cons_iff, or_assoc]
          rfl
    · have hheaders := (loadHeadersOf_cons bytes index rest).trans (if_neg hone)
      rw [if_pos (fun h => hone (hload.mp h)), hheaders]
      refine (ih hrest (by dsimp only at hroom ⊢; omega)).imp Iff.rfl fun after hafter => ?_
      exact ⟨hheaders ▸ hafter.segments, hheaders ▸ hafter.entryIsLoaded⟩

/-! ### The whole file -/

/-- The image holds the file, its entry and its PT_LOAD headers. -/
structure Represents (bytes : Bytes) (image : ElfImage) : Prop where
  file : image.bytes = bytes
  entry : image.entry.toNat = Elf.entry bytes
  segments : List.Forall₂ ProgramHeader.DecodesTo (loadHeaders bytes) image.segments

/-- The checks of the file header; the tail of the parser is the loop over the program table. -/
theorem parse_checks (bytes : Bytes) : Checks (parse bytes) (WellFormed bytes) (Represents bytes) := by
  have hlen : bytes.len < 2 ^ 63 := bytes.length_lt
  unfold parse
  refine .reject (fun hshort hwf => Nat.not_lt.mpr hwf.length hshort) fun hlength => ?_
  rw [Nat.not_lt] at hlength
  refine .lift (Bytes.range_of_le (by decide) (by omega))
    (.reject (fun hmagic hwf => hmagic hwf.magic) fun hmagic => ?_)
  refine .lift (Bytes.index_of_lt (by omega)) (.reject (fun hbad hwf => hbad ?_) fun hclass => ?_)
  · exact (Bytes.get_eq_iff _).mpr hwf.class64
  refine .lift (Bytes.index_of_lt (by omega)) (.reject (fun hbad hwf => hbad ?_) fun hendian => ?_)
  · exact (Bytes.get_eq_iff _).mpr hwf.littleEndian
  obtain ⟨kind, hkind, hkindVal⟩ := bytes.readLe_of_le 2 16 (by omega)
  obtain ⟨machine, hmachine, hmachineVal⟩ := bytes.readLe_of_le 2 18 (by omega)
  obtain ⟨entry, hentry, hentryVal⟩ := bytes.readLe_of_le 8 24 (by omega)
  obtain ⟨phoff, hphoff, hphoffVal⟩ := bytes.readLe_of_le 8 32 (by omega)
  obtain ⟨phentsize, hphentsize, hphentsizeVal⟩ := bytes.readLe_of_le 2 54 (by omega)
  obtain ⟨phnum, hphnum, hphnumVal⟩ := bytes.readLe_of_le 2 56 (by omega)
  replace hphoffVal : phoff.toNat = Elf.phoff bytes := hphoffVal
  replace hphentsizeVal : phentsize.toNat = Elf.phentsize bytes := hphentsizeVal
  replace hphnumVal : phnum.toNat = Elf.phnum bytes := hphnumVal
  have hexec : kind = etExec ↔ bytes.leAt 2 16 = 2 := by
    rw [← BitVec.toNat_inj, hkindVal]
    rfl
  have hx86 : machine = emX86_64 ↔ bytes.leAt 2 18 = 62 := by
    rw [← BitVec.toNat_inj, hmachineVal]
    rfl
  have hzero : phnum = 0 ↔ Elf.phnum bytes = 0 := by
    rw [← BitVec.toNat_inj, hphnumVal]
    rfl
  refine .okOr_some hkind (.reject (fun hbad hwf => hbad (hexec.mpr hwf.executable)) fun hkindOk => ?_)
  refine .okOr_some hmachine (.reject (fun hbad hwf => hbad (hx86.mpr hwf.machine)) fun hmachineOk => ?_)
  refine .okOr_some hentry (.okOr_some hphoff (.okOr_some hphentsize (.okOr_some hphnum ?_)))
  rw [hphentsizeVal, hphnumVal, hphoffVal]
  refine .reject (fun hbad hwf => ?_) fun hcount => ?_
  · have hsize := hwf.entrySize
    have hcount := hwf.count
    rw [hzero, maxSegments] at hbad
    omega
  rw [hzero, maxSegments] at hcount
  refine .okOr (fun hnone hwf => ?_) fun tableSize htableSize => ?_
  · have htable := hwf.table
    rw [Usize.checkedMul_eq_none] at hnone
    omega
  obtain ⟨rfl, -⟩ := Usize.checkedMul_eq_some.mp htableSize
  refine .okOr (fun hnone hwf => ?_) fun tableEnd htableEnd => ?_
  · have htable := hwf.table
    rw [Usize.checkedAdd_eq_none] at hnone
    omega
  obtain ⟨rfl, -⟩ := Usize.checkedAdd_eq_some.mp htableEnd
  refine .reject (fun hbad hwf => Nat.not_lt.mpr hwf.table hbad) fun hfits => ?_
  have hinside : ∀ i ∈ List.range (Elf.phnum bytes), Elf.phoff bytes + i * Elf.phentsize bytes + 48 ≤ bytes.len := by
    intro i hi
    have hle : (i + 1) * Elf.phentsize bytes ≤ Elf.phnum bytes * Elf.phentsize bytes :=
      Nat.mul_le_mul_right _ (List.mem_range.mp hi)
    rw [Nat.add_mul, Nat.mul_comm (Elf.phnum bytes)] at hle
    omega
  have hroom : ([] : List LoadSegment).length + (List.range (Elf.phnum bytes)).length ≤ maxSegments := by
    rw [List.length_range, List.length_nil, maxSegments]
    omega
  refine .bind (parseHeaders_checks hinside hroom) (fun hbad hwf => hbad hwf.loadable) ?_
  rintro ⟨segments, entryIsLoaded⟩ hloadable ⟨⟨decoded, hsegments, hdecoded⟩, hloaded⟩
  obtain rfl : segments = decoded := hsegments
  replace hloaded : entryIsLoaded = true ↔
      ∃ h ∈ loadHeaders bytes, h.vaddr ≤ Elf.entry bytes ∧ Elf.entry bytes < h.vaddr + h.memsz := by
    rw [show Elf.entry bytes = entry.toNat from hentryVal.symm]
    exact hloaded.trans (or_iff_right Bool.false_ne_true)
  refine .reject (fun hbad hwf => ?_) fun hgood => .pure ?_ ⟨rfl, hentryVal, hdecoded⟩
  · rcases hbad with hbad | hbad
    · obtain ⟨h, hh, -⟩ := hwf.entryLoaded
      rw [← hdecoded.length_eq] at hbad
      exact List.length_pos_of_mem hh |>.ne' hbad
    · rw [hloaded.mpr hwf.entryLoaded] at hbad
      cases hbad
  · rw [not_or, Bool.not_eq_true, Bool.not_eq_false', hloaded] at hgood
    exact
      { length := hlength
        magic := not_not.mp hmagic
        class64 := (Bytes.get_eq_iff _).mp (not_not.mp hclass)
        littleEndian := (Bytes.get_eq_iff _).mp (not_not.mp hendian)
        executable := hexec.mp (not_not.mp hkindOk)
        machine := hx86.mp (not_not.mp hmachineOk)
        entrySize := by omega
        count := by omega
        table := Nat.not_lt.mp hfits
        loadable := hloadable
        entryLoaded := hgood.2 }

private theorem Represents.segment_of_lt {image : ElfImage} (h : Represents bytes image) {i : Nat}
    (hi : i < (loadHeaders bytes).length) :
    ∃ s, image.segment i = some s ∧ ((loadHeaders bytes).get ⟨i, hi⟩).DecodesTo s := by
  have hlt : i < image.segments.length := h.segments.length_eq ▸ hi
  have hsegment : image.segment i = image.segments[i]? := if_neg (Nat.not_le.mpr hlt)
  refine ⟨image.segments.get ⟨i, hlt⟩, ?_, h.segments.get hi hlt⟩
  rw [hsegment, List.getElem?_eq_getElem hlt]
  rfl

/-- The parser ends on every byte string, accepts exactly the well-formed ones, and then `segment` enumerates the
decoded PT_LOAD headers in the order of the table. -/
theorem parse_accepts_format (bytes : Bytes) :
    ∃ result : Except ElfError ElfImage, (parse bytes).run = .returned result ∧
      ((∃ image, result = .ok image) ↔ WellFormed bytes) ∧
      ∀ image, result = .ok image → image.segmentCount = (loadHeaders bytes).length ∧
        (∀ i (hi : i < (loadHeaders bytes).length),
          ∃ s, image.segment i = some s ∧ ((loadHeaders bytes).get ⟨i, hi⟩).DecodesTo s) ∧
        ∀ i, image.segmentCount ≤ i → image.segment i = none := by
  rcases parse_checks bytes with ⟨image, hrun, hwf, hrep⟩ | ⟨e, hrun, hwf⟩
  · refine ⟨.ok image, hrun, ⟨fun _ => hwf, fun _ => ⟨image, rfl⟩⟩, ?_⟩
    rintro _ ⟨⟩
    exact ⟨hrep.segments.length_eq.symm, fun i hi => hrep.segment_of_lt hi, fun i hi => if_pos hi⟩
  · refine ⟨.error e, hrun, ⟨fun h => ?_, fun h => absurd h hwf⟩, fun _ h => by cases h⟩
    obtain ⟨_, h⟩ := h
    cases h

end ElfImage

/-! ### The segments of an accepted image -/

/-- A segment of a file of the given length, with the file part at the beginning of the range. -/
structure LoadSegment.OfFile (length : Nat) (s : LoadSegment) : Prop where
  range : s.virtualRange.stop.toNat = s.virtualRange.start.toNat + s.memorySize.toNat
  nonempty : 0 < s.memorySize.toNat
  sizes : s.fileSize.toNat ≤ s.memorySize.toNat
  file : s.fileOffset.toNat + s.fileSize.toNat ≤ length

private theorem ProgramHeader.DecodesTo.ofFile {h : ProgramHeader} {s : LoadSegment} {length : Nat}
    (hs : h.DecodesTo s) (hload : h.Loadable length) : s.OfFile length where
  range := by rw [hs.stop, hs.start, hs.memorySize]
  nonempty := hs.memorySize ▸ hload.nonempty
  sizes := by
    rw [hs.fileSize, hs.memorySize]
    exact hload.sizes
  file := by
    rw [hs.fileOffset, hs.fileSize]
    exact hload.file

namespace ElfImage

theorem ofFile_of_parse {bytes : Bytes} {image : ElfImage} (h : (parse bytes).run = .returned (.ok image)) :
    image.bytes = bytes ∧ ∀ s ∈ image.segments, s.OfFile bytes.len := by
  obtain ⟨hwf, hrep⟩ := (parse_checks bytes).of_ok h
  refine ⟨hrep.file, fun s hs => ?_⟩
  obtain ⟨header, hheader, hdecodes⟩ := hrep.segments.exists_left hs
  exact hdecodes.ofFile (hwf.loadable header hheader)

end ElfImage

end X11Os
