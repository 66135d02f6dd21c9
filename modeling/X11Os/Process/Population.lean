import X11Os.Lib.Amd64
import X11Os.Lib.Patch
import X11Os.Process.AllOrNothing
import X11Os.Process.MappedPages

/-!
# What a populated address space holds

A writer that performs its writes turns the frames of a load into the image: every byte of a mapped page is the
byte of the file that belongs at its address, or zero, and the frames of the stack are zero.  Every round of the
page loop is one patch of the memory, on the frame of its page; the frames are distinct, so the patches do not
disturb each other.
-/

namespace X11Os

open Word Exec Amd64

variable {σ ε : Type}

/-- The writer performs its writes on the given frames, as long as they stay inside the page. -/
structure ImagePageWriter.Faithful (writer : ImagePageWriter σ ε) (memory : σ → Memory) (frames : U64 → Prop) :
    Prop where
  zero : ∀ p, frames p → ∀ offset length, offset + length ≤ 4096 → ∀ s, ∃ s',
    Runs (writer.zeroPageRange p offset length) s () s' ∧ ∀ x, memory s' x =
      if offset ≤ (x - p).toNat ∧ (x - p).toNat < offset + length then 0 else memory s x
  copy : ∀ p, frames p → ∀ offset (bytes : List U8), offset + bytes.length ≤ 4096 → ∀ s, ∃ s',
    Runs (writer.copyIntoPage p offset bytes) s () s' ∧ ∀ x, memory s' x =
      if offset ≤ (x - p).toNat then (bytes[(x - p).toNat - offset]?).getD (memory s x) else memory s x

/-- On the states of an invariant, which it keeps, the writer performs its writes on the given frames, as long as
there is something to write and it stays inside the page. -/
structure ImagePageWriter.FaithfulOn (writer : ImagePageWriter σ ε) (I : σ → Prop) (memory : σ → Memory)
    (frames : U64 → Prop) : Prop where
  zero : ∀ p, frames p → ∀ offset length, length ≠ 0 → offset + length ≤ 4096 → ∀ s, I s → ∃ s',
    Runs (writer.zeroPageRange p offset length) s () s' ∧ I s' ∧ ∀ x, memory s' x =
      if offset ≤ (x - p).toNat ∧ (x - p).toNat < offset + length then 0 else memory s x
  copy : ∀ p, frames p → ∀ offset (bytes : List U8), bytes ≠ [] → offset + bytes.length ≤ 4096 → ∀ s, I s → ∃ s',
    Runs (writer.copyIntoPage p offset bytes) s () s' ∧ I s' ∧ ∀ x, memory s' x =
      if offset ≤ (x - p).toNat then (bytes[(x - p).toNat - offset]?).getD (memory s x) else memory s x

private theorem ImagePageWriter.Faithful.faithfulOn {writer : ImagePageWriter σ ε} {memory : σ → Memory}
    {frames : U64 → Prop} (hw : writer.Faithful memory frames) : writer.FaithfulOn (fun _ => True) memory frames where
  zero p hp offset length _ hfit s _ := by
    obtain ⟨s', hruns, hs'⟩ := hw.zero p hp offset length hfit s
    exact ⟨s', hruns, trivial, hs'⟩
  copy p hp offset bytes _ hfit s _ := by
    obtain ⟨s', hruns, hs'⟩ := hw.copy p hp offset bytes hfit s
    exact ⟨s', hruns, trivial, hs'⟩

/-! ### One page -/

/-- What the segment puts at a virtual address: a byte of its file part, or zero. -/
def segmentByte (bytes : Bytes) (segment : LoadSegment) (v : Nat) : U8 :=
  if segment.virtualRange.start.toNat ≤ v ∧ v < segment.virtualRange.start.toNat + segment.fileSize.toNat then
    (bytes.toList[segment.fileOffset.toNat + (v - segment.virtualRange.start.toNat)]?).getD 0
  else 0

/-- The file part of a segment. -/
def filePart (bytes : Bytes) (segment : LoadSegment) : List U8 :=
  (bytes.toList.drop segment.fileOffset.toNat).take segment.fileSize.toNat

section Segment

variable {writer : ImagePageWriter σ ε} {I : σ → Prop} {memory : σ → Memory} {frames : U64 → Prop} {bytes : Bytes}
  {segment : LoadSegment}

private theorem length_filePart (hfile : segment.OfFile bytes.len) :
    (filePart bytes segment).length = segment.fileSize.toNat := by
  have hle := hfile.file
  rw [Bytes.len] at hle
  rw [filePart, List.length_take, List.length_drop]
  omega

private theorem copyFileChunk_runs (hw : writer.FaithfulOn I memory frames) {p : U64} (hp : frames p)
    (source : List U8)
    (pageOffset start length : Nat) (hpage : pageOffset + length ≤ 4096) (hsource : start + length ≤ source.length)
    (hfit : source.length < 2 ^ 64) {s : σ} (hs : I s) :
    ∃ s', Runs (copyFileChunk writer p pageOffset source start length) s () s' ∧ I s' ∧ ∀ x, memory s' x =
      if pageOffset ≤ (x - p).toNat then
        (((source.drop start).take length)[(x - p).toNat - pageOffset]?).getD (memory s x)
      else memory s x := by
  unfold copyFileChunk
  split_ifs with hzero
  · have hsum : Usize.checkedAdd start length = some (start + length) :=
      Usize.checkedAdd_eq_some.mpr ⟨rfl, by omega⟩
    have hrange : indexRange source start (start + length) = .returned ((source.drop start).take length) := by
      rw [indexRange, if_pos ⟨Nat.le_add_right _ _, hsource⟩, Nat.add_sub_cancel_left]
    have hlength : ((source.drop start).take length).length = length := by
      rw [List.length_take, List.length_drop]
      omega
    have hnonempty : (source.drop start).take length ≠ [] := by
      intro hnil
      rw [hnil, List.length_nil] at hlength
      exact hzero hlength.symm
    obtain ⟨s', hruns, hinv, hs'⟩ :=
      hw.copy p hp pageOffset ((source.drop start).take length) hnonempty (by omega) s hs
    exact ⟨s', .bind (.okOr hsum) (.bind (.lift hrange) (.mapErr hruns)), hinv, hs'⟩
  · refine ⟨s, .pure, hs, fun x => ?_⟩
    rw [not_not.mp hzero]
    simp

/-- The bytes of one round are those that belong on the page: before the start of the segment and after its file part
there are zeros. -/
private theorem chunk_eq_segmentByte (hfile : segment.OfFile bytes.len) {o d pageOffset copyLen : Nat}
    (ho : o < segment.memorySize.toNat) (hround : o = 0 ∨ (segment.virtualRange.start.toNat + o) % 4096 = 0)
    (hd : d < 4096) (hoffset : pageOffset = (segment.virtualRange.start.toNat + o) % 4096)
    (hlen : copyLen = min (segment.fileSize.toNat - min o segment.fileSize.toNat)
      (min (segment.memorySize.toNat - o) (4096 - pageOffset))) :
    (if pageOffset ≤ d then
      ((((filePart bytes segment).drop (min o segment.fileSize.toNat)).take copyLen)[d - pageOffset]?).getD 0
    else 0) = segmentByte bytes segment ((segment.virtualRange.start.toNat + o) / 4096 * 4096 + d) := by
  have hsizes := hfile.sizes
  unfold segmentByte
  by_cases hbefore : pageOffset ≤ d
  · have haddr : (segment.virtualRange.start.toNat + o) / 4096 * 4096 + d =
        segment.virtualRange.start.toNat + (o + (d - pageOffset)) := by omega
    rw [if_pos hbefore, haddr, Nat.add_sub_cancel_left, List.getElem?_take, List.getElem?_drop, filePart,
      List.getElem?_take, List.getElem?_drop]
    by_cases hin : o + (d - pageOffset) < segment.fileSize.toNat
    · rw [if_pos (by omega), if_pos (by omega), if_pos (by omega), Nat.min_eq_left (by omega)]
    · rw [if_neg (by omega), if_neg (by omega)]
      rfl
  · rw [if_neg hbefore, if_neg (by omega)]

end Segment

/-! ### The frames of a load -/

/-- The frame that the population writes for the page at an address. -/
def LoadResult.frameOf (load : LoadResult) (b : U64) : U64 :=
  (((findMappedPage load b).bind load.page).map MappedPage.physicalAddress).getD 0

/-- Pages under different addresses on different frames. -/
structure LoadResult.Framed (load : LoadResult) : Prop where
  pages : (load.pages.map MappedPage.virtualAddress).Nodup
  aligned : ∀ mapped ∈ load.pages, mapped.physicalAddress.toNat % 4096 = 0
  distinct : (load.pages.map MappedPage.physicalAddress).Nodup

/-- Aligned frames with a byte in common are the same. -/
theorem eq_of_within {p q x : U64} (hp : p.toNat % 4096 = 0) (hq : q.toNat % 4096 = 0) (hx : Within p 4096 x)
    (hx' : Within q 4096 x) : p = q := by
  have hplt := p.isLt
  have hqlt := q.isLt
  have hxlt := x.isLt
  unfold Within at hx hx'
  rw [BitVec.toNat_sub] at hx hx'
  apply BitVec.eq_of_toNat_eq
  omega

namespace LoadResult.Framed

variable {load : LoadResult}

theorem frameOf_eq (h : load.Framed) {mapped : MappedPage} (hmapped : mapped ∈ load.pages) :
    load.frameOf mapped.virtualAddress = mapped.physicalAddress := by
  obtain ⟨index, found, hindex, hpage, hfound, hsame⟩ := findMappedPage_spec (List.mem_map_of_mem hmapped)
  obtain rfl : found = mapped := List.inj_on_of_nodup_map h.pages hfound hmapped hsame
  simp [LoadResult.frameOf, hindex, hpage]

/-- A byte belongs to the frame of one page. -/
private theorem eq_of_common (h : load.Framed) {b b' x : U64} (hb : b ∈ load.pages.map MappedPage.virtualAddress)
    (hb' : b' ∈ load.pages.map MappedPage.virtualAddress) (hx : Within (load.frameOf b) 4096 x)
    (hx' : Within (load.frameOf b') 4096 x) : b = b' := by
  obtain ⟨mapped, hmapped, rfl⟩ := List.mem_map.mp hb
  obtain ⟨mapped', hmapped', rfl⟩ := List.mem_map.mp hb'
  rw [h.frameOf_eq hmapped] at hx
  rw [h.frameOf_eq hmapped'] at hx'
  have hframe := eq_of_within (h.aligned _ hmapped) (h.aligned _ hmapped') hx hx'
  rw [List.inj_on_of_nodup_map h.distinct hmapped hmapped' hframe]

end LoadResult.Framed

/-! ### The page loop -/

/-- The content of a page of a segment, on its frame. -/
def pagePatch (load : LoadResult) (bytes : Bytes) (segment : LoadSegment) (b : U64) : Patch U64 U8 where
  region := { x | Within (load.frameOf b) 4096 x }
  content x := segmentByte bytes segment (b.toNat + (x - load.frameOf b).toNat)

/-- The pages that are left when the loop has come to an offset. -/
def pagesLeft (segment : LoadSegment) (offset : U64) : List U64 :=
  if offset < segment.memorySize then
    pagesFrom ((segment.virtualRange.start + offset) &&& pageMask) ((segment.virtualRange.stop.toNat + 4095 -
      (segment.virtualRange.start.toNat + offset.toNat) / 4096 * 4096) / 4096)
  else []

section Loop

variable {writer : ImagePageWriter σ ε} {I : σ → Prop} {memory : σ → Memory} {frames : U64 → Prop} {bytes : Bytes}
  {segment : LoadSegment} {load : LoadResult} {memoryEnd : U64}

/-- One round writes the content of its page, and nothing else. -/
private theorem populatePage_runs (hw : writer.FaithfulOn I memory frames) (hfile : segment.OfFile bytes.len)
    (hframed : load.Framed)
    (hframes : ∀ mapped ∈ load.pages, frames mapped.physicalAddress) {offset b : U64} {pageOffset chunk : Nat}
    (hb : b ∈ load.pages.map MappedPage.virtualAddress) (hlt : offset.toNat < segment.memorySize.toNat)
    (hround : offset.toNat = 0 ∨ (segment.virtualRange.start.toNat + offset.toNat) % 4096 = 0)
    (hbNat : b.toNat = (segment.virtualRange.start.toNat + offset.toNat) / 4096 * 4096)
    (hpageOffset : pageOffset = (segment.virtualRange.start.toNat + offset.toNat) % 4096)
    (hchunk : chunk = min (segment.memorySize.toNat - offset.toNat) (4096 - pageOffset)) {s : σ} (hs : I s) :
    ∃ s', Runs (populatePage writer load segment (filePart bytes segment) offset b pageOffset chunk) s () s' ∧ I s' ∧
      Patched [pagePatch load bytes segment b] (memory s) (memory s') := by
  obtain ⟨index, mapped, hindex, hpage, hmapped, rfl⟩ := findMappedPage_spec hb
  have hsize := length_filePart hfile
  have hfileLt := segment.fileSize.isLt
  obtain ⟨s₁, hzero, hinv₁, hs₁⟩ :=
    hw.zero mapped.physicalAddress (hframes mapped hmapped) 0 4096 (by decide) (by decide) s hs
  obtain ⟨s₂, hcopy, hinv₂, hs₂⟩ := copyFileChunk_runs hw (hframes mapped hmapped) (filePart bytes segment) pageOffset
    (min offset.toNat segment.fileSize.toNat)
    (min ((filePart bytes segment).length - min offset.toNat segment.fileSize.toNat) chunk) (by omega) (by omega)
    (by omega) hinv₁
  refine ⟨s₂, .bind (.okOr hindex) (.bind (.okOr hpage) (.bind (.mapErr hzero) hcopy)), hinv₂, .single ?_ ?_⟩
  · intro x hx
    replace hx : (x - mapped.physicalAddress).toNat < 4096 := by
      rw [← hframed.frameOf_eq hmapped]
      exact hx
    have hcleared : memory s₁ x = 0 := by
      rw [hs₁ x, if_pos ⟨Nat.zero_le _, by omega⟩]
    rw [hs₂ x, hcleared, chunk_eq_segmentByte hfile hlt hround hx hpageOffset (by rw [hsize, hchunk])]
    show _ = segmentByte _ _ _
    rw [hframed.frameOf_eq hmapped, hbNat]
  · intro x hx
    replace hx : ¬ (x - mapped.physicalAddress).toNat < 4096 := by
      rw [← hframed.frameOf_eq hmapped]
      exact hx
    have hnone : ∀ l : List U8,
      (l.take (min ((filePart bytes segment).length - min offset.toNat segment.fileSize.toNat)
        chunk))[(x - mapped.physicalAddress).toNat - pageOffset]? = none := by
      intro l
      refine List.getElem?_eq_none (Nat.le_trans (List.length_take_le _ _) ?_)
      omega
    rw [hs₂ x, hnone, Option.getD_none, ite_self, hs₁ x, if_neg (by omega)]

/-- One round takes one page off. -/
private theorem pagesLeft_eq (hfile : segment.OfFile bytes.len) {offset next : U64}
    (hlt : offset < segment.memorySize)
    (hnext : next.toNat = offset.toNat + min (segment.memorySize.toNat - offset.toNat)
      (4096 - (segment.virtualRange.start.toNat + offset.toNat) % 4096)) :
    pagesLeft segment offset = ((segment.virtualRange.start + offset) &&& pageMask) :: pagesLeft segment next := by
  have hrange := hfile.range
  have hstop := segment.virtualRange.stop.isLt
  rw [BitVec.lt_def] at hlt
  have hsum : (segment.virtualRange.start + offset).toNat = segment.virtualRange.start.toNat + offset.toNat := by
    rw [BitVec.toNat_add, Nat.mod_eq_of_lt (by omega)]
  unfold pagesLeft
  rw [if_pos (BitVec.lt_def.mpr hlt)]
  by_cases hend : next < segment.memorySize
  · rw [if_pos hend]
    rw [BitVec.lt_def] at hend
    have hcount : (segment.virtualRange.stop.toNat + 4095 -
        (segment.virtualRange.start.toNat + offset.toNat) / 4096 * 4096) / 4096 =
        (segment.virtualRange.stop.toNat + 4095 -
          (segment.virtualRange.start.toNat + next.toNat) / 4096 * 4096) / 4096 + 1 := by omega
    have hbase : ((segment.virtualRange.start + offset) &&& pageMask) + pageSize4K =
        (segment.virtualRange.start + next) &&& pageMask := by
      apply BitVec.eq_of_toNat_eq
      rw [BitVec.toNat_add, toNat_and_pageMask, toNat_and_pageMask, hsum, toNat_pageSize4K, BitVec.toNat_add]
      omega
    rw [hcount, pagesFrom, hbase]
  · rw [if_neg hend]
    rw [BitVec.not_lt, BitVec.le_def] at hend
    have hcount : (segment.virtualRange.stop.toNat + 4095 -
        (segment.virtualRange.start.toNat + offset.toNat) / 4096 * 4096) / 4096 = 1 := by omega
    rw [hcount]
    rfl

/-- One round, once its checks are passed. -/
private theorem populatePages_step {fileBytes : List U8} {rounds chunk : Nat} {offset va next : U64} {s s₁ s' : σ}
    (hlt : offset < segment.memorySize) (hadd : checkedAdd segment.virtualRange.start offset = some va)
    (hinside : ¬ (va ≥ segment.virtualRange.stop ∨ va ≥ memoryEnd))
    (hchunk : min (segment.memorySize - offset).toNat (pageSize4K.toNat - (va - (va &&& pageMask)).toNat) = chunk)
    (hpage : Runs (populatePage writer load segment fileBytes offset (va &&& pageMask) (va - (va &&& pageMask)).toNat
      chunk) s () s₁)
    (hstep : checkedAdd offset (BitVec.ofNat 64 chunk) = some next)
    (hrest : Runs (populatePages writer load segment fileBytes memoryEnd rounds next) s₁ () s') :
    Runs (populatePages writer load segment fileBytes memoryEnd (rounds + 1) offset) s () s' := by
  subst hchunk
  unfold populatePages
  rw [if_pos hlt]
  refine .bind (.okOr hadd) ?_
  refine .bind (.reject hinside) ?_
  refine .bind hpage ?_
  exact .bind (.okOr hstep) hrest

private theorem populatePages_runs (hw : writer.FaithfulOn I memory frames) (hfile : segment.OfFile bytes.len)
    (hframed : load.Framed) (hframes : ∀ mapped ∈ load.pages, frames mapped.physicalAddress)
    (hmemoryEnd : memoryEnd = segment.virtualRange.stop) (rounds : Nat) (offset : U64)
    (hrounds : segment.memorySize.toNat ≤ offset.toNat + rounds)
    (hround : offset.toNat < segment.memorySize.toNat →
      offset.toNat = 0 ∨ (segment.virtualRange.start.toNat + offset.toNat) % 4096 = 0)
    (hmapped : ∀ b ∈ pagesLeft segment offset, b ∈ load.pages.map MappedPage.virtualAddress) {s : σ} (hs : I s) :
    ∃ s', Runs (populatePages writer load segment (filePart bytes segment) memoryEnd rounds offset) s () s' ∧ I s' ∧
      Patched ((pagesLeft segment offset).map (pagePatch load bytes segment)) (memory s) (memory s') := by
  -- a round writes the page at the offset; the patches of the later ones come after it
  induction rounds generalizing offset s with
  | zero =>
    have hend : ¬ offset < segment.memorySize := by
      rw [BitVec.lt_def]
      omega
    rw [populatePages, if_neg hend, pagesLeft, if_neg hend]
    exact ⟨s, .pure, hs, .nil _⟩
  | succ rounds ih =>
    by_cases hlt : offset < segment.memorySize
    · have hrange := hfile.range
      have hstop := segment.virtualRange.stop.isLt
      have hltNat := BitVec.lt_def.mp hlt
      have hva : (segment.virtualRange.start + offset).toNat = segment.virtualRange.start.toNat + offset.toNat := by
        rw [BitVec.toNat_add, Nat.mod_eq_of_lt (by omega)]
      have hb := toNat_and_pageMask (segment.virtualRange.start + offset)
      rw [hva] at hb
      have hpageOffset : (segment.virtualRange.start + offset -
          ((segment.virtualRange.start + offset) &&& pageMask)).toNat =
            (segment.virtualRange.start.toNat + offset.toNat) % 4096 := by
        rw [BitVec.toNat_sub_of_le (BitVec.le_def.mpr (by omega)), hva, hb]
        omega
      have hremaining : (segment.memorySize - offset).toNat = segment.memorySize.toNat - offset.toNat :=
        BitVec.toNat_sub_of_le (BitVec.le_of_lt hlt)
      generalize hchunk : min (segment.memorySize - offset).toNat (pageSize4K.toNat -
        (segment.virtualRange.start + offset - ((segment.virtualRange.start + offset) &&& pageMask)).toNat) = chunk
      have hchunkVal := hchunk
      rw [hremaining, hpageOffset, toNat_pageSize4K] at hchunkVal
      have hnext : (offset + BitVec.ofNat 64 chunk).toNat = offset.toNat + chunk := by
        rw [BitVec.toNat_add, BitVec.toNat_ofNat]
        omega
      have hpages := pagesLeft_eq hfile hlt (hnext.trans (by rw [hchunkVal]))
      rw [hpages, List.forall_mem_cons] at hmapped
      obtain ⟨s₁, hpage, hinv₁, hs₁⟩ := populatePage_runs hw hfile hframed hframes hmapped.1 hltNat
        (hround hltNat) hb hpageOffset (by rw [hpageOffset, hchunkVal]) hs
      obtain ⟨s', hrest, hinv', hs'⟩ := ih _ (by omega) (by omega) hmapped.2 hinv₁
      have hadd : checkedAdd segment.virtualRange.start offset = some (segment.virtualRange.start + offset) :=
        checkedAdd_eq_some.mpr hva
      have hinside : ¬ (segment.virtualRange.start + offset ≥ segment.virtualRange.stop ∨
          segment.virtualRange.start + offset ≥ memoryEnd) := by
        rw [hmemoryEnd, or_self, ge_iff_le, BitVec.le_def]
        omega
      have hstep : checkedAdd offset (BitVec.ofNat 64 chunk) = some (offset + BitVec.ofNat 64 chunk) := by
        rw [checkedAdd_eq_some, hnext, BitVec.toNat_ofNat]
        omega
      refine ⟨s', populatePages_step hlt hadd hinside hchunk hpage hstep hrest, hinv', ?_⟩
      · rw [hpages, List.map_cons, ← List.singleton_append]
        -- two pages of the load have different frames, so that the patches agree where they meet
        refine hs₁.append hs' fun p hp q hq x hxp hxq => ?_
        obtain rfl := List.mem_singleton.mp hp
        obtain ⟨b, hb, rfl⟩ := List.mem_map.mp hq
        rw [hframed.eq_of_common hmapped.1 (hmapped.2 b hb) hxp hxq]
    · rw [pagesLeft, if_neg hlt]
      unfold populatePages
      rw [if_neg hlt]
      exact ⟨s, .pure, hs, .nil _⟩

/-! ### The segments and the stack -/

private theorem pagesLeft_zero (hfile : segment.OfFile bytes.len) : pagesLeft segment 0 = segment.pages := by
  have hpos : (0 : U64) < segment.memorySize := BitVec.lt_def.mpr hfile.nonempty
  rw [pagesLeft, if_pos hpos]
  show pagesFrom ((segment.virtualRange.start + 0#64) &&& pageMask) _ = _
  rw [BitVec.add_zero]
  rfl

theorem populateSegments_runs (hw : writer.FaithfulOn I memory frames) (hframed : load.Framed)
    (hframes : ∀ mapped ∈ load.pages, frames mapped.physicalAddress) {segments : List LoadSegment}
    (hfile : ∀ segment ∈ segments, segment.OfFile bytes.len)
    (hmapped : ∀ b ∈ segments.flatMap LoadSegment.pages, b ∈ load.pages.map MappedPage.virtualAddress)
    (hnodup : (segments.flatMap LoadSegment.pages).Nodup) {s : σ} (hs : I s) :
    ∃ s', Runs (populateSegments writer bytes load segments) s () s' ∧ I s' ∧
      Patched (segments.flatMap fun segment => segment.pages.map (pagePatch load bytes segment)) (memory s)
        (memory s') := by
  induction segments generalizing s with
  | nil => exact ⟨s, .pure, hs, .nil _⟩
  | cons segment rest ih =>
    rw [List.forall_mem_cons] at hfile
    rw [List.flatMap_cons, List.nodup_append] at hnodup
    rw [List.flatMap_cons, List.forall_mem_append] at hmapped
    have hrange := hfile.1.range
    have hstop := segment.virtualRange.stop.isLt
    have hlen : bytes.len < 2 ^ 63 := bytes.length_lt
    have hfileEnd := checkedAdd_of_lt (Nat.lt_of_le_of_lt hfile.1.file (by omega) :
      segment.fileOffset.toNat + segment.fileSize.toNat < 2 ^ 64)
    have hmemoryEnd := checkedAdd_of_lt (hrange ▸ hstop :
      segment.virtualRange.start.toNat + segment.memorySize.toNat < 2 ^ 64)
    have hbytes : bytes.get segment.fileOffset.toNat (segment.fileOffset + segment.fileSize).toNat =
        some (filePart bytes segment) := by
      rw [checkedAdd_eq_some.mp hfileEnd]
      exact Bytes.get_of_le hfile.1.file
    have hend : segment.virtualRange.start + segment.memorySize = segment.virtualRange.stop := by
      apply BitVec.eq_of_toNat_eq
      rw [checkedAdd_eq_some.mp hmemoryEnd, hrange]
    obtain ⟨s₁, hpages, hinv₁, hs₁⟩ := populatePages_runs hw hfile.1 hframed hframes hend segment.memorySize.toNat 0
      (Nat.le_add_left _ _) (fun _ => .inl rfl) (by rw [pagesLeft_zero hfile.1]; exact hmapped.1) hs
    obtain ⟨s₂, hrest, hinv₂, hs₂⟩ := ih hfile.2 hmapped.2 hnodup.2.1 hinv₁
    refine ⟨s₂, .bind (.okOr hfileEnd) (.bind (.okOr hbytes) (.bind (.okOr hmemoryEnd) (.bind hpages hrest))), hinv₂,
      ?_⟩
    rw [pagesLeft_zero hfile.1] at hs₁
    refine hs₁.append hs₂ fun p hp q hq x hxp hxq => ?_
    -- a page of this segment and one of a later segment are different pages
    obtain ⟨b, hb, rfl⟩ := List.mem_map.mp hp
    obtain ⟨segment', hsegment', hq⟩ := List.mem_flatMap.mp hq
    obtain ⟨b', hb', rfl⟩ := List.mem_map.mp hq
    have hlater : b' ∈ rest.flatMap LoadSegment.pages := List.mem_flatMap.mpr ⟨segment', hsegment', hb'⟩
    exact absurd (hframed.eq_of_common (hmapped.1 b hb) (hmapped.2 b' hlater) hxp hxq) (hnodup.2.2 b hb b' hlater)

/-- A cleared frame. -/
def zeroPatch (p : U64) : Patch U64 U8 where
  region := { x | Within p 4096 x }
  content _ := 0

private theorem zeroStack_runs (hw : writer.FaithfulOn I memory frames) {stack : List MappedStackPage}
    (hframes : ∀ mapped ∈ stack, frames mapped.physicalAddress) {s : σ} (hs : I s) :
    ∃ s', Runs (zeroStack writer stack) s () s' ∧ I s' ∧
      Patched (stack.map fun mapped => zeroPatch mapped.physicalAddress) (memory s) (memory s') := by
  induction stack generalizing s with
  | nil => exact ⟨s, .pure, hs, .nil _⟩
  | cons mapped rest ih =>
    rw [List.forall_mem_cons] at hframes
    obtain ⟨s₁, hzero, hinv₁, hs₁⟩ := hw.zero mapped.physicalAddress hframes.1 0 4096 (by decide) (by decide) s hs
    obtain ⟨s₂, hrest, hinv₂, hs₂⟩ := ih hframes.2 hinv₁
    have hpatch : Patched [zeroPatch mapped.physicalAddress] (memory s) (memory s₁) := by
      refine .single (fun x hx => ?_) fun x hx => ?_
      · have hx : (x - mapped.physicalAddress).toNat < 4096 := hx
        rw [hs₁ x, if_pos ⟨Nat.zero_le _, by omega⟩]
        rfl
      · have hx : ¬ (x - mapped.physicalAddress).toNat < 4096 := hx
        rw [hs₁ x, if_neg (by omega)]
    refine ⟨s₂, .bind (.mapErr hzero) hrest, hinv₂, ?_⟩
    rw [List.map_cons, ← List.singleton_append]
    refine hpatch.append hs₂ fun p hp q hq x _ _ => ?_
    obtain rfl := List.mem_singleton.mp hp
    obtain ⟨_, _, rfl⟩ := List.mem_map.mp hq
    rfl

end Loop

/-! ### The whole address space -/

def BuiltAddressSpace.frames (built : BuiltAddressSpace) : List U64 :=
  built.load.pages.map MappedPage.physicalAddress ++ built.stackPages.map MappedStackPage.physicalAddress

/-- The pages of the image with their contents, and the cleared stack. -/
def spacePatches (image : ElfImage) (built : BuiltAddressSpace) : List (Patch U64 U8) :=
  (image.segments.flatMap fun segment => segment.pages.map (pagePatch built.load image.bytes segment)) ++
    built.stackPages.map fun mapped => zeroPatch mapped.physicalAddress

private theorem populate_runs {writer : ImagePageWriter σ ε} {I : σ → Prop} {memory : σ → Memory} {image : ElfImage}
    {built : BuiltAddressSpace} (hw : writer.FaithfulOn I memory (· ∈ built.frames)) (hframed : built.load.Framed)
    (hfile : ∀ segment ∈ image.segments, segment.OfFile image.bytes.len)
    (hpages : built.load.pages.map MappedPage.virtualAddress = image.segments.flatMap LoadSegment.pages)
    (hstackAligned : ∀ mapped ∈ built.stackPages, mapped.physicalAddress.toNat % 4096 = 0)
    (hapart : ∀ mapped ∈ built.stackPages, mapped.physicalAddress ∉ built.load.pages.map MappedPage.physicalAddress)
    {s : σ} (hs : I s) :
    ∃ s', Runs (PopulatedAddressSpace.populate writer image built) s ⟨built⟩ s' ∧ I s' ∧
      Patched (spacePatches image built) (memory s) (memory s') := by
  obtain ⟨s₁, hsegments, hinv₁, hs₁⟩ := populateSegments_runs hw hframed
    (fun mapped hmapped => List.mem_append_left _ (List.mem_map_of_mem hmapped)) hfile
    (fun b hb => by rwa [hpages]) (hpages ▸ hframed.pages) hs
  obtain ⟨s₂, hzero, hinv₂, hs₂⟩ := zeroStack_runs hw
    (fun mapped hmapped => List.mem_append_right _ (List.mem_map_of_mem hmapped)) hinv₁
  refine ⟨s₂, .bind (.mapErr hsegments) (.bind hzero .pure), hinv₂, hs₁.append hs₂ fun p hp q hq x hxp hxq => ?_⟩
  -- a frame of the image is none of the stack
  obtain ⟨segment, hsegment, hp⟩ := List.mem_flatMap.mp hp
  obtain ⟨b, hb, rfl⟩ := List.mem_map.mp hp
  obtain ⟨stack, hstack, rfl⟩ := List.mem_map.mp hq
  have hmem : b ∈ built.load.pages.map MappedPage.virtualAddress := by
    rw [hpages]
    exact List.mem_flatMap.mpr ⟨segment, hsegment, hb⟩
  obtain ⟨mapped, hmapped, rfl⟩ := List.mem_map.mp hmem
  have hxp : Within (built.load.frameOf mapped.virtualAddress) 4096 x := hxp
  rw [hframed.frameOf_eq hmapped] at hxp
  have hsame := eq_of_within (hframed.aligned mapped hmapped) (hstackAligned stack hstack) hxp hxq
  exact absurd (List.mem_map.mpr ⟨mapped, hmapped, hsame⟩) (hapart stack hstack)

/-- The memory after a population, next to the one before: the pages of the image hold the bytes of the file and
zeros, the stack holds zeros, and nothing else has changed. -/
structure Populated (image : ElfImage) (built : BuiltAddressSpace) (m m' : Memory) : Prop where
  file : ∀ mapped ∈ built.load.pages, ∀ i < 4096, ∀ segment ∈ image.segments,
    segment.virtualRange.start.toNat ≤ mapped.virtualAddress.toNat + i →
    mapped.virtualAddress.toNat + i < segment.virtualRange.start.toNat + segment.fileSize.toNat →
    image.bytes.toList[segment.fileOffset.toNat +
      (mapped.virtualAddress.toNat + i - segment.virtualRange.start.toNat)]? =
      some (m' (mapped.physicalAddress + BitVec.ofNat 64 i))
  zero : ∀ mapped ∈ built.load.pages, ∀ i < 4096,
    (∀ segment ∈ image.segments, ¬ (segment.virtualRange.start.toNat ≤ mapped.virtualAddress.toNat + i ∧
      mapped.virtualAddress.toNat + i < segment.virtualRange.start.toNat + segment.fileSize.toNat)) →
    m' (mapped.physicalAddress + BitVec.ofNat 64 i) = 0
  stack : ∀ mapped ∈ built.stackPages, ∀ i < 4096, m' (mapped.physicalAddress + BitVec.ofNat 64 i) = 0
  outside : ∀ x, (∀ p ∈ built.frames, ¬ Within p 4096 x) → m' x = m x

theorem toNat_add_ofNat_sub {p : U64} {i : Nat} (hi : i < 4096) : (p + BitVec.ofNat 64 i - p).toNat = i := by
  rw [BitVec.add_comm, BitVec.add_sub_cancel, BitVec.toNat_ofNat]
  omega

section Populated

variable {image : ElfImage} {plan : LoadPlan} {built : BuiltAddressSpace} {m m' : Memory}

/-- The byte of a page of the image, by the segment that the page belongs to. -/
private theorem patched_page (hframed : built.load.Framed)
    (h : Patched (spacePatches image built) m m') {mapped : MappedPage} (hmapped : mapped ∈ built.load.pages)
    {segment : LoadSegment} (hsegment : segment ∈ image.segments) (hb : mapped.virtualAddress ∈ segment.pages)
    {i : Nat} (hi : i < 4096) : m' (mapped.physicalAddress + BitVec.ofNat 64 i) =
      segmentByte image.bytes segment (mapped.virtualAddress.toNat + i) := by
  have hsub := toNat_add_ofNat_sub (p := mapped.physicalAddress) hi
  have hframe := hframed.frameOf_eq hmapped
  have hpatch : pagePatch built.load image.bytes segment mapped.virtualAddress ∈ spacePatches image built :=
    List.mem_append_left _ (List.mem_flatMap.mpr ⟨segment, hsegment, List.mem_map_of_mem hb⟩)
  rw [h.inside _ hpatch _ (show Within (built.load.frameOf mapped.virtualAddress) 4096 _ by
    rw [hframe, Within, hsub]; exact hi)]
  show segmentByte _ _ _ = _
  rw [hframe, hsub]

private theorem populated_of_patched (hlays : plan.Lays image) (hframed : built.load.Framed)
    (hfile : ∀ segment ∈ image.segments, segment.OfFile image.bytes.len)
    (hpages : built.load.pages.map MappedPage.virtualAddress = image.segments.flatMap LoadSegment.pages)
    (h : Patched (spacePatches image built) m m') : Populated image built m m' where
  file mapped hmapped i hi segment hsegment hle hlt := by
    have hof := hfile segment hsegment
    have hmem : mapped.virtualAddress ∈ image.segments.flatMap LoadSegment.pages :=
      hpages ▸ List.mem_map_of_mem hmapped
    obtain ⟨owner, howner, hb⟩ := List.mem_flatMap.mp hmem
    have haligned := ((hlays.mem_pages howner).mp hb).1
    have hb' : mapped.virtualAddress ∈ segment.pages := by
      have hrange := hof.range
      have hsizes := hof.sizes
      rw [hlays.mem_pages hsegment]
      omega
    have hbound : segment.fileOffset.toNat + (mapped.virtualAddress.toNat + i - segment.virtualRange.start.toNat) <
        image.bytes.toList.length := by
      have hfits : segment.fileOffset.toNat + segment.fileSize.toNat ≤ image.bytes.toList.length := hof.file
      omega
    rw [patched_page hframed h hmapped hsegment hb' hi, segmentByte, if_pos ⟨hle, hlt⟩,
      List.getElem?_eq_getElem hbound, Option.getD_some]
  zero mapped hmapped i hi hno := by
    have hmem : mapped.virtualAddress ∈ image.segments.flatMap LoadSegment.pages :=
      hpages ▸ List.mem_map_of_mem hmapped
    obtain ⟨owner, howner, hb⟩ := List.mem_flatMap.mp hmem
    rw [patched_page hframed h hmapped howner hb hi, segmentByte, if_neg (hno owner howner)]
  stack mapped hmapped i hi := by
    have hpatch : zeroPatch mapped.physicalAddress ∈ spacePatches image built :=
      List.mem_append_right _ (List.mem_map_of_mem hmapped)
    rw [h.inside _ hpatch _ (show Within _ 4096 _ by rw [Within, toNat_add_ofNat_sub hi]; exact hi)]
    rfl
  outside x hx := by
    refine h.outside x fun p hp => ?_
    rcases List.mem_append.mp hp with hp | hp
    · obtain ⟨segment, hsegment, hp⟩ := List.mem_flatMap.mp hp
      obtain ⟨b, hb, rfl⟩ := List.mem_map.mp hp
      have hmem : b ∈ built.load.pages.map MappedPage.virtualAddress := by
        rw [hpages]
        exact List.mem_flatMap.mpr ⟨segment, hsegment, hb⟩
      obtain ⟨mapped, hmapped, rfl⟩ := List.mem_map.mp hmem
      show ¬ Within (built.load.frameOf mapped.virtualAddress) 4096 x
      rw [hframed.frameOf_eq hmapped]
      exact hx _ (List.mem_append_left _ (List.mem_map_of_mem hmapped))
    · obtain ⟨mapped, hmapped, rfl⟩ := List.mem_map.mp hp
      exact hx _ (List.mem_append_right _ (List.mem_map_of_mem hmapped))

/-- The frames hold nothing that was there before. -/
private theorem eq_on_frames_of_patched {m₁ m₁' m₂ m₂' : Memory} (hframed : built.load.Framed)
    (hpages : built.load.pages.map MappedPage.virtualAddress = image.segments.flatMap LoadSegment.pages)
    (h₁ : Patched (spacePatches image built) m₁ m₁') (h₂ : Patched (spacePatches image built) m₂ m₂') {p x : U64}
    (hp : p ∈ built.frames) (hx : Within p 4096 x) : m₁' x = m₂' x := by
  suffices hpatch : ∃ patch ∈ spacePatches image built, x ∈ patch.region by
    obtain ⟨patch, hpatch, hx⟩ := hpatch
    rw [h₁.inside patch hpatch x hx, h₂.inside patch hpatch x hx]
  rcases List.mem_append.mp hp with hp | hp
  · obtain ⟨mapped, hmapped, rfl⟩ := List.mem_map.mp hp
    have hmem : mapped.virtualAddress ∈ image.segments.flatMap LoadSegment.pages :=
      hpages ▸ List.mem_map_of_mem hmapped
    obtain ⟨segment, hsegment, hb⟩ := List.mem_flatMap.mp hmem
    refine ⟨_, List.mem_append_left _ (List.mem_flatMap.mpr ⟨segment, hsegment, List.mem_map_of_mem hb⟩), ?_⟩
    show Within (built.load.frameOf mapped.virtualAddress) 4096 x
    rwa [hframed.frameOf_eq hmapped]
  · obtain ⟨mapped, hmapped, rfl⟩ := List.mem_map.mp hp
    exact ⟨_, List.mem_append_right _ (List.mem_map_of_mem hmapped), hx⟩

end Populated

/-- Population is exact and leaks nothing: with a faithful writer it succeeds on the frames of any load of an accepted
image, whatever they held before, and two populations leave the same bytes in them. -/
theorem populate_exact (bytes : Bytes) (spec : AddressSpaceSpec) (image : ElfImage) (plan : LoadPlan)
    (hparse : (ElfImage.parse bytes).run = .returned (.ok image)) (hplan : LoadPlan.build spec image = .ok plan)
    {τ : Type} (mapper : PageTableMapper τ) (t t' : τ) (built : BuiltAddressSpace)
    (hload : (mapLoadPlan mapper plan).exec t = .returned (.ok built.load, t'))
    (haligned : ∀ p ∈ built.frames, p.toNat % 4096 = 0)
    (hdistinct : (built.load.pages.map MappedPage.physicalAddress).Nodup)
    (hapart : ∀ mapped ∈ built.stackPages, mapped.physicalAddress ∉ built.load.pages.map MappedPage.physicalAddress)
    (writer : ImagePageWriter σ ε) (memory : σ → Memory) (hw : writer.Faithful memory (· ∈ built.frames)) :
    (∀ s, ∃ s', Runs (PopulatedAddressSpace.populate writer image built) s ⟨built⟩ s' ∧
      Populated image built (memory s) (memory s')) ∧
    ∀ s₁ s₁' s₂ s₂', Runs (PopulatedAddressSpace.populate writer image built) s₁ ⟨built⟩ s₁' →
      Runs (PopulatedAddressSpace.populate writer image built) s₂ ⟨built⟩ s₂' →
      ∀ p ∈ built.frames, ∀ x, Within p 4096 x → memory s₁' x = memory s₂' x := by
  have hlays := LoadPlan.build_lays hplan
  obtain ⟨rfl, hfile⟩ := ElfImage.ofFile_of_parse hparse
  obtain ⟨hpages, hnodup⟩ := hlays.load_pages hload
  have hframed : built.load.Framed :=
    ⟨hpages ▸ hnodup, fun mapped hmapped => haligned _ (List.mem_append_left _ (List.mem_map_of_mem hmapped)),
      hdistinct⟩
  have hstack : ∀ mapped ∈ built.stackPages, mapped.physicalAddress.toNat % 4096 = 0 :=
    fun mapped hmapped => haligned _ (List.mem_append_right _ (List.mem_map_of_mem hmapped))
  have hruns := fun s => populate_runs hw.faithfulOn hframed hfile hpages hstack hapart (s := s) trivial
  refine ⟨fun s => ?_, fun s₁ s₁' s₂ s₂' h₁ h₂ p hp x hx => ?_⟩
  · obtain ⟨s', hrun, -, hpatched⟩ := hruns s
    exact ⟨s', hrun, populated_of_patched hlays hframed hfile hpages hpatched⟩
  · obtain ⟨t₁, hrun₁, -, hpatched₁⟩ := hruns s₁
    obtain ⟨t₂, hrun₂, -, hpatched₂⟩ := hruns s₂
    cases hrun₁.symm.trans h₁
    cases hrun₂.symm.trans h₂
    exact eq_on_frames_of_patched hframed hpages hpatched₁ hpatched₂ hp hx

/-! ### A memory as backend -/

/-- The writer on a memory. -/
def directWriter : ImagePageWriter Memory Empty where
  copyIntoPage p offset bytes := modify fun m x =>
    if offset ≤ (x - p).toNat then (bytes[(x - p).toNat - offset]?).getD (m x) else m x
  zeroPageRange p offset length := modify fun m x =>
    if offset ≤ (x - p).toNat ∧ (x - p).toNat < offset + length then 0 else m x

private theorem directWriter_faithful (frames : U64 → Prop) : directWriter.Faithful id frames where
  zero _ _ _ _ _ _ := ⟨_, .modify, fun _ => rfl⟩
  copy _ _ _ _ _ _ := ⟨_, .modify, fun _ => rfl⟩

namespace MinimalElf

/-- The segment of the minimal image. -/
def segment : LoadSegment := ⟨⟨0x401001, 0x402001, by decide⟩, 5, 0, 16, 0x1000⟩

/-- The segments of the minimal image, and its pages on a table with two frames. -/
def loaded : Option (List LoadSegment × List MappedPage) :=
  match (ElfImage.parse bytes).run, buildProcessImage bytes spec with
  | .returned (.ok elf), .returned (.ok image) =>
    match (mapLoadPlan PageMap.mapper image.loadPlan).exec ⟨fun _ => none, 2⟩ with
    | .returned (.ok load, _) => some (elf.segments, load.pages)
    | _ => none
  | _, _ => none

theorem loads : ∃ (elf : ElfImage) (image : ProcessImage) (load : LoadResult) (t' : PageMap),
    (ElfImage.parse bytes).run = .returned (.ok elf) ∧
    LoadPlan.build spec elf = .ok image.loadPlan ∧
    (mapLoadPlan PageMap.mapper image.loadPlan).exec ⟨fun _ => none, 2⟩ = .returned (.ok load, t') ∧
    elf.segments = [segment] ∧ load.pages = [⟨0x401000, 0x2000⟩, ⟨0x402000, 0x1000⟩] := by
  have hloaded : loaded = some ([segment], [⟨0x401000, 0x2000⟩, ⟨0x402000, 0x1000⟩]) := by decide +kernel
  unfold loaded at hloaded
  split at hloaded
  · rename_i elf image hparse himage
    split at hloaded
    · rename_i load t' hload
      obtain ⟨-, -, elf', hparse', hplan⟩ := buildProcessImage_eq_ok himage
      cases hparse.symm.trans hparse'
      obtain ⟨hsegments, hpages⟩ := Prod.ext_iff.mp (Option.some.inj hloaded)
      exact ⟨elf, image, load, t', hparse, hplan, hload, hsegments, hpages⟩
    · cases hloaded
  · cases hloaded

/-- The first page of the stack, on the frame behind those of the image. -/
def stackPage : MappedStackPage := ⟨⟨0x7fff0000, by decide⟩, 0x3000⟩

end MinimalElf

/-- On a memory full of ones: the byte before the segment is zero, then comes the file; the stack is zero, and the
frame behind it is untouched. -/
theorem populate_exact_minimal : ∃ image built m', built.stackPages = [MinimalElf.stackPage] ∧
    Runs (PopulatedAddressSpace.populate directWriter image built) (fun _ => 0xff) ⟨built⟩ m' ∧
    m' (0x2000 + 0#64) = 0 ∧ m' (0x2000 + 1#64) = 0x7f ∧ m' (0x3000 + 0#64) = 0 ∧ m' 0x4000 = 0xff := by
  obtain ⟨elf, image, load, t', hparse, hplan, hload, hsegments, hpages⟩ := MinimalElf.loads
  have hbytes : elf.bytes = MinimalElf.bytes := (ElfImage.ofFile_of_parse hparse).1
  have hfirst : (⟨0x401000, 0x2000⟩ : MappedPage) ∈ load.pages := by
    rw [hpages]
    exact List.mem_cons_self
  obtain ⟨built, rfl, hstackPages⟩ : ∃ built : BuiltAddressSpace, built.load = load ∧
      built.stackPages = [MinimalElf.stackPage] :=
    ⟨⟨image, load, [MinimalElf.stackPage], true, true, false⟩, rfl, rfl⟩
  have hframes : built.frames = [0x2000, 0x1000, 0x3000] := by
    rw [BuiltAddressSpace.frames, hpages, hstackPages]
    rfl
  have haligned : ∀ p ∈ built.frames, p.toNat % 4096 = 0 := by
    rw [hframes]
    simp
  have hdistinct : (built.load.pages.map MappedPage.physicalAddress).Nodup := by
    rw [hpages]
    decide
  have hapart : ∀ mapped ∈ built.stackPages,
      mapped.physicalAddress ∉ built.load.pages.map MappedPage.physicalAddress := by
    rw [hpages, hstackPages]
    decide
  obtain ⟨m', hruns, hm'⟩ := (populate_exact _ _ elf image.loadPlan hparse hplan PageMap.mapper _ t' built hload
    haligned hdistinct hapart directWriter id (directWriter_faithful _)).1 (fun _ => 0xff)
  replace hm' : Populated elf built (fun _ => 0xff) m' := hm'
  have hno : ∀ segment ∈ elf.segments, ¬ (segment.virtualRange.start.toNat ≤ (0x401000#64).toNat + 0 ∧
      (0x401000#64).toNat + 0 < segment.virtualRange.start.toNat + segment.fileSize.toNat) := by
    rw [hsegments]
    decide
  have hbyte := hm'.file _ hfirst 1 (by decide) MinimalElf.segment (by rw [hsegments]; exact List.mem_cons_self)
    (by decide) (by decide)
  rw [hbytes] at hbyte
  have hstack := hm'.stack MinimalElf.stackPage (by rw [hstackPages]; exact List.mem_cons_self) 0 (by decide)
  have hzero := hm'.zero _ hfirst 0 (by decide) hno
  have houtside := hm'.outside 0x4000 (by rw [hframes]; simp [Within])
  exact ⟨elf, built, m', hstackPages, hruns, hzero, (Option.some.inj hbyte).symm, hstack, houtside⟩

end X11Os
