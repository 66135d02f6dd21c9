import X11Os.Lib.Bytes
import X11Os.Memory.AddressSpace

/-!
# ELF images

The validation of an ELF64 executable (`process/image.rs`).  Offsets are computed as the source computes them: the
ones that it does not check panic on overflow, and so does an index outside the byte string or the segment table.
-/

namespace X11Os

open Word

inductive ElfError where
  | tooSmall
  | badMagic
  | unsupportedClass
  | unsupportedEndian
  | unsupportedType
  | unsupportedMachine
  | invalidProgramTable
  | invalidSegmentRange
  | invalidSegmentPermissions
  | invalidEntry
deriving DecidableEq, Repr

namespace Elf

def magic : List U8 := [0x7f, 0x45, 0x4c, 0x46]
def class64 : U8 := 2
def data2Lsb : U8 := 1
def etExec : U16 := 2
def emX86_64 : U16 := 62
def ptLoad : U32 := 1
def pfX : U32 := 1
def pfW : U32 := 2

end Elf

structure LoadSegment where
  virtualRange : VirtRange
  flags : U32
  fileOffset : U64
  fileSize : U64
  memorySize : U64
deriving DecidableEq, Repr

namespace LoadSegment

def executable (s : LoadSegment) : Bool := s.flags &&& Elf.pfX != 0
def writable (s : LoadSegment) : Bool := s.flags &&& Elf.pfW != 0

end LoadSegment

def maxSegments : Nat := 8

/-- A validated image.  The segment table holds the segments that are present, in order. -/
structure ElfImage where
  bytes : Bytes
  entry : U64
  segments : List LoadSegment

namespace ElfImage

def readU16 (bytes : Bytes) (offset : Nat) : Option U16 := bytes.readLe 2 offset
def readU32 (bytes : Bytes) (offset : Nat) : Option U32 := bytes.readLe 4 offset
def readU64 (bytes : Bytes) (offset : Nat) : Option U64 := bytes.readLe 8 offset

/-- `segments[segment_count] = Some(segment)`. -/
def pushSegment (segments : List LoadSegment) (segment : LoadSegment) : Panics (List LoadSegment) :=
  if segments.length < maxSegments then .returned (segments ++ [segment]) else .panicked

/-- The segment of the PT_LOAD header at `base`. -/
def parseSegment (bytes : Bytes) (base : Nat) : Fallible ElfError LoadSegment := do
  let flags ← okOr (readU32 bytes (← Usize.add base 4)) .invalidProgramTable
  let fileOffset ← okOr (readU64 bytes (← Usize.add base 8)) .invalidSegmentRange
  let virtualAddress ← okOr (readU64 bytes (← Usize.add base 16)) .invalidSegmentRange
  let fileSize ← okOr (readU64 bytes (← Usize.add base 32)) .invalidSegmentRange
  let memorySize ← okOr (readU64 bytes (← Usize.add base 40)) .invalidSegmentRange
  reject (flags &&& Elf.pfW ≠ 0 ∧ flags &&& Elf.pfX ≠ 0) .invalidSegmentPermissions
  reject (memorySize < fileSize) .invalidSegmentRange
  let fileEnd ← okOr (checkedAdd fileOffset fileSize) .invalidSegmentRange
  reject (fileEnd.toNat > bytes.len) .invalidSegmentRange
  let virtualEnd ← okOr (checkedAdd virtualAddress memorySize) .invalidSegmentRange
  let range ← okOr (VirtRange.new virtualAddress virtualEnd) .invalidSegmentRange
  reject (range.len = 0 ∨ !range.isUser) .invalidSegmentRange
  return ⟨range, flags, fileOffset, fileSize, memorySize⟩

/-- The loop over the program headers, with the segments so far and whether one of them holds the entry. -/
def parseHeaders (bytes : Bytes) (entry : U64) (phoff phentsize : Nat) :
    List Nat → List LoadSegment × Bool → Fallible ElfError (List LoadSegment × Bool)
  | [], found => return found
  | index :: rest, (segments, entryIsLoaded) => do
    let base ← Usize.add phoff (← Usize.mul index phentsize)
    let kind ← okOr (readU32 bytes base) .invalidProgramTable
    if kind ≠ Elf.ptLoad then parseHeaders bytes entry phoff phentsize rest (segments, entryIsLoaded)
    else
      let segment ← parseSegment bytes base
      let segments ← pushSegment segments segment
      parseHeaders bytes entry phoff phentsize rest (segments, entryIsLoaded || segment.virtualRange.contains entry)

def parse (bytes : Bytes) : Fallible ElfError ElfImage := do
  reject (bytes.len < 64) .tooSmall
  reject ((← bytes.range 0 4) ≠ Elf.magic) .badMagic
  reject ((← bytes.index 4) ≠ Elf.class64) .unsupportedClass
  reject ((← bytes.index 5) ≠ Elf.data2Lsb) .unsupportedEndian
  let kind ← okOr (readU16 bytes 16) .tooSmall
  reject (kind ≠ Elf.etExec) .unsupportedType
  let machine ← okOr (readU16 bytes 18) .tooSmall
  reject (machine ≠ Elf.emX86_64) .unsupportedMachine
  let entry ← okOr (readU64 bytes 24) .tooSmall
  let phoff ← okOr (readU64 bytes 32) .tooSmall
  let phentsize ← okOr (readU16 bytes 54) .tooSmall
  let phnum ← okOr (readU16 bytes 56) .tooSmall
  reject (phentsize.toNat < 56 ∨ phnum = 0 ∨ phnum.toNat > maxSegments) .invalidProgramTable
  let tableSize ← okOr (Usize.checkedMul phentsize.toNat phnum.toNat) .invalidProgramTable
  let tableEnd ← okOr (Usize.checkedAdd phoff.toNat tableSize) .invalidProgramTable
  reject (tableEnd > bytes.len) .invalidProgramTable
  let (segments, entryIsLoaded) ←
    parseHeaders bytes entry phoff.toNat phentsize.toNat (List.range phnum.toNat) ([], false)
  reject (segments.length = 0 ∨ !entryIsLoaded) .invalidEntry
  return ⟨bytes, entry, segments⟩

def segmentCount (image : ElfImage) : Nat := image.segments.length

def segment (image : ElfImage) (index : Nat) : Option LoadSegment :=
  if index ≥ image.segmentCount then none else image.segments[index]?

end ElfImage

end X11Os
