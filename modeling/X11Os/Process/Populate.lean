import X11Os.Process.Loader

/-!
# Populating an address space

The bytes of the image and the cleared stack, written to the frames of an address space that is already mapped
(`process/populate.rs`, `process/populated_address_space.rs`).
-/

namespace X11Os

open Word

variable {σ ε : Type}

inductive PopulateError where
  | missingMappedPage
  | segmentOutsideMapping
  | fileRangeInvalid
  | addressOverflow
deriving DecidableEq, Repr

/-- A backend that writes to the frame at a physical address; its errors are not looked at. -/
structure ImagePageWriter (σ ε : Type) where
  copyIntoPage : U64 → Nat → List U8 → Exec σ ε Unit
  zeroPageRange : U64 → Nat → Nat → Exec σ ε Unit

def LoadResult.page (loaded : LoadResult) (index : Nat) : Option MappedPage :=
  if index ≥ loaded.pages.length then none else loaded.pages[index]?

def findMappedPage (loaded : LoadResult) (virtualAddress : U64) : Option Nat :=
  (List.range loaded.pages.length).find? fun index =>
    (loaded.page index).any fun page => page.virtualAddress == virtualAddress

/-- `bytes[start..stop]`. -/
def indexRange (bytes : List U8) (start stop : Nat) : Panics (List U8) :=
  if start ≤ stop ∧ stop ≤ bytes.length then .returned ((bytes.drop start).take (stop - start)) else .panicked

/-- The part of a page that comes from the file. -/
def copyFileChunk (writer : ImagePageWriter σ ε) (physical : U64) (pageOffset : Nat) (fileBytes : List U8)
    (fileChunkStart copyLen : Nat) : Exec σ PopulateError Unit :=
  if copyLen ≠ 0 then do
    let sourceEnd ← okOr (Usize.checkedAdd fileChunkStart copyLen) .fileRangeInvalid
    let source ← indexRange fileBytes fileChunkStart sourceEnd
    mapErr (fun _ => .fileRangeInvalid) (writer.copyIntoPage physical pageOffset source)
  else return ()

/-- The writes of one round: the page is cleared, and the part of the segment that comes from the file is copied. -/
def populatePage (writer : ImagePageWriter σ ε) (loaded : LoadResult) (segment : LoadSegment) (fileBytes : List U8)
    (offset pageBase : U64) (pageOffset chunk : Nat) : Exec σ PopulateError Unit := do
  let mappedIndex ← okOr (findMappedPage loaded pageBase) .missingMappedPage
  let mapped ← okOr (loaded.page mappedIndex) .missingMappedPage
  let physical := mapped.physicalAddress
  -- the whole page, also where a segment before this one has written
  mapErr (fun _ => .fileRangeInvalid) (writer.zeroPageRange physical 0 pageSize4K.toNat)
  let fileChunkStart := min offset.toNat segment.fileSize.toNat
  let fileRemaining := fileBytes.length - fileChunkStart
  let copyLen := min fileRemaining chunk
  copyFileChunk writer physical pageOffset fileBytes fileChunkStart copyLen

/-- The page loop of one segment.  A round moves the offset by a byte at least, so that as many rounds as the segment
has bytes are enough. -/
def populatePages (writer : ImagePageWriter σ ε) (loaded : LoadResult) (segment : LoadSegment) (fileBytes : List U8)
    (memoryEnd : U64) : Nat → U64 → Exec σ PopulateError Unit
  | rounds, offset => do
    if offset < segment.memorySize then
      match rounds with
      -- never reached: the rounds do not run out before the offset does
      | 0 => (Panics.panicked : Panics Unit)
      | rounds + 1 =>
        let virtualAddress ← okOr (checkedAdd segment.virtualRange.start offset) .addressOverflow
        reject (virtualAddress ≥ segment.virtualRange.stop ∨ virtualAddress ≥ memoryEnd) .segmentOutsideMapping
        let pageBase := virtualAddress &&& pageMask
        let pageOffset := (virtualAddress - pageBase).toNat
        let remainingMemory := (segment.memorySize - offset).toNat
        let pageRoom := pageSize4K.toNat - pageOffset
        let chunk := min remainingMemory pageRoom
        populatePage writer loaded segment fileBytes offset pageBase pageOffset chunk
        let offset ← okOr (checkedAdd offset (BitVec.ofNat 64 chunk)) .addressOverflow
        populatePages writer loaded segment fileBytes memoryEnd rounds offset
    else return ()

/-- The loop over the segments. -/
def populateSegments (writer : ImagePageWriter σ ε) (bytes : Bytes) (loaded : LoadResult) :
    List LoadSegment → Exec σ PopulateError Unit
  | [] => return ()
  | segment :: rest => do
    let fileEnd ← okOr (checkedAdd segment.fileOffset segment.fileSize) .fileRangeInvalid
    let fileBytes ← okOr (bytes.get segment.fileOffset.toNat fileEnd.toNat) .fileRangeInvalid
    let memoryEnd ← okOr (checkedAdd segment.virtualRange.start segment.memorySize) .addressOverflow
    populatePages writer loaded segment fileBytes memoryEnd segment.memorySize.toNat 0
    populateSegments writer bytes loaded rest

def populateImage (writer : ImagePageWriter σ ε) (image : ElfImage) (loaded : LoadResult) :
    Exec σ PopulateError Unit :=
  populateSegments writer image.bytes loaded image.segments

inductive PopulationError where
  | image (error : PopulateError)
  | stackWriteFailed
deriving DecidableEq, Repr

structure PopulatedAddressSpace where
  built : BuiltAddressSpace
deriving DecidableEq, Repr

/-- The loop over the stack pages. -/
def zeroStack (writer : ImagePageWriter σ ε) : List MappedStackPage → Exec σ PopulationError Unit
  | [] => return ()
  | mapped :: rest => do
    mapErr (fun _ => .stackWriteFailed) (writer.zeroPageRange mapped.physicalAddress 0 pageSize4K.toNat)
    zeroStack writer rest

def PopulatedAddressSpace.populate (writer : ImagePageWriter σ ε) (imageBytes : ElfImage)
    (built : BuiltAddressSpace) :
    Exec σ PopulationError PopulatedAddressSpace := do
  mapErr .image (populateImage writer imageBytes built.load)
  zeroStack writer built.stackPages
  return ⟨built⟩

end X11Os
