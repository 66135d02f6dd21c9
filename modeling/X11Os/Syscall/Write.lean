import X11Os.Syscall.Basic

/-!
# What a write emits

`sys_write_with_memory` works on 256-byte chunks, and validates, copies and emits each chunk before it looks at the
next.  The loop is the same as running over the list of chunks of the slice (`writeLoop_eq`); from that follows what
the sink has received when a chunk fails.  A write that fails after its first chunk has already emitted bytes.
-/

namespace X11Os

open Word

/-! ### The chunks of a slice -/

namespace UserSlice

/-- The `k`-th chunk: 256 bytes, or what is left of the slice. -/
def chunk (slice : UserSlice) (k : Nat) : UserSlice where
  ptr := slice.ptr + BitVec.ofNat 64 (256 * k)
  len := BitVec.ofNat 64 (min 256 (slice.len.toNat - 256 * k))

def chunksFrom (slice : UserSlice) (k n : Nat) : List UserSlice := (List.range' k n).map slice.chunk

def chunks (slice : UserSlice) : List UserSlice := slice.chunksFrom 0 slice.chunkCount

/-- The slice does not run past the end of the address space. -/
def Fits (slice : UserSlice) : Prop := slice.ptr.toNat + slice.len.toNat < 2 ^ 64

variable {slice : UserSlice} {k : Nat}

theorem toNat_chunk_ptr (hfits : slice.Fits) (hk : k < slice.chunkCount) :
    (slice.chunk k).ptr.toNat = slice.ptr.toNat + 256 * k := by
  unfold Fits at hfits
  unfold chunkCount at hk
  rw [chunk, BitVec.toNat_add, BitVec.toNat_ofNat]
  omega

theorem toNat_chunk_len (slice : UserSlice) (k : Nat) :
    (slice.chunk k).len.toNat = min 256 (slice.len.toNat - 256 * k) := by
  rw [chunk, BitVec.toNat_ofNat]
  omega

theorem chunk_len_ne_zero (hk : k < slice.chunkCount) : (slice.chunk k).len ≠ 0 := by
  intro h
  have hzero : (slice.chunk k).len.toNat = 0 := by
    rw [h]
    rfl
  rw [toNat_chunk_len] at hzero
  unfold chunkCount at hk
  omega

theorem mem_chunks {c : UserSlice} : c ∈ slice.chunks ↔ ∃ k, k < slice.chunkCount ∧ slice.chunk k = c := by
  simp [chunks, chunksFrom, List.mem_range']

/-- Every byte of the slice is a byte of one of its chunks. -/
theorem contains_chunk (hfits : slice.Fits) {a : U64} (ha : slice.Contains a) :
    (a.toNat - slice.ptr.toNat) / 256 < slice.chunkCount ∧
      (slice.chunk ((a.toNat - slice.ptr.toNat) / 256)).Contains a := by
  obtain ⟨hle, hlt⟩ := ha
  have hk : (a.toNat - slice.ptr.toNat) / 256 < slice.chunkCount := by
    unfold chunkCount
    omega
  refine ⟨hk, ?_⟩
  unfold Contains
  rw [toNat_chunk_ptr hfits hk, toNat_chunk_len]
  omega

end UserSlice

theorem fits_of_validateSlice {slice : UserSlice} {range : VirtRange} (hlen : slice.len ≠ 0)
    (hok : validateSlice slice = .ok range) : slice.Fits := by
  obtain ⟨-, -, -, h⟩ := (validateSlice_eq_ok hlen).mp hok
  unfold UserSlice.Fits
  omega

/-! ### The loop over the chunks -/

section Loop

variable (view : UserMemoryView) (backend : UserCopyBackend) (sink : WriteSink)

/-- The loop over an explicit list of chunks. -/
def emitChunks (total : U64) : List UserSlice → List (List U8) → Panics SyscallResult × List (List U8)
  | [], received => (.returned (.ok total), received)
  | c :: cs, received =>
    match copyFromUser view backend c c.len.toNat with
    | .panicked => (.panicked, received)
    | .returned (.error error) => (.returned (.error (.invalidUserMemory error)), received)
    | .returned (.ok bytes) =>
      match sink.write received bytes with
      | .error error => (.returned (.error error), received)
      | .ok () => emitChunks total cs (received ++ [bytes])

theorem writeLoop_eq {slice : UserSlice} (hfits : slice.Fits) {n k : Nat} {offset : U64} {received : List (List U8)}
    (hcount : k + n = slice.chunkCount) (hoffset : n ≠ 0 → offset.toNat = 256 * k) :
    writeLoop view backend sink slice n offset received =
      emitChunks view backend sink slice.len (slice.chunksFrom k n) received := by
  -- the offset is the start of the `k`-th chunk as long as there is one
  induction n generalizing k offset received with
  | zero => rfl
  | succ n ih =>
    have hofs : offset.toNat = 256 * k := hoffset (Nat.succ_ne_zero n)
    have hk : k < slice.chunkCount := by omega
    have hlast : 256 * k < slice.len.toNat := by
      unfold UserSlice.chunkCount at hk
      omega
    have hremaining : (slice.len - offset).toNat = slice.len.toNat - 256 * k := by
      rw [BitVec.toNat_sub_of_le (by rw [BitVec.le_def]; omega), hofs]
    have hchunkLen : (if slice.len - offset ≤ bufferLen then slice.len - offset else bufferLen) =
        (slice.chunk k).len := by
      apply BitVec.eq_of_toNat_eq
      have hbuffer : bufferLen.toNat = 256 := rfl
      rw [UserSlice.toNat_chunk_len]
      split_ifs with h <;> rw [BitVec.le_def, hremaining, hbuffer] at h <;> omega
    have hptr : checkedAdd slice.ptr offset = some (slice.chunk k).ptr := by
      rw [checkedAdd_eq_some, UserSlice.toNat_chunk_ptr hfits hk, hofs]
    have hin : offset < slice.len := by
      rw [BitVec.lt_def]
      omega
    have hcons : slice.chunksFrom k (n + 1) = slice.chunk k :: slice.chunksFrom (k + 1) n := rfl
    rw [hcons]
    unfold writeLoop emitChunks
    simp only [hin, if_true, hchunkLen, hptr]
    cases hcopy : copyFromUser view backend (slice.chunk k) (slice.chunk k).len.toNat with
    | panicked => rfl
    | returned copied =>
      cases copied with
      | error error => rfl
      | ok bytes =>
        cases hsink : sink.write received bytes with
        | error error => simp only [hsink]
        | ok _ =>
          have hlen := UserSlice.toNat_chunk_len slice k
          have hnext : (offset + (slice.chunk k).len).toNat = offset.toNat + (slice.chunk k).len.toNat := by
            have := slice.len.isLt
            rw [BitVec.toNat_add, hlen, hofs]
            omega
          have hcount' : k + 1 + n = slice.chunkCount := by omega
          simp only [hsink, checkedAdd_eq_some.mpr hnext]
          refine ih hcount' fun hn => ?_
          -- another chunk follows, so this one was full
          unfold UserSlice.chunkCount at hcount
          omega

/-- Validation and copy of the chunk succeed. -/
def ChunkCopies (c : UserSlice) : Prop := ∃ bytes, copyFromUser view backend c c.len.toNat = .returned (.ok bytes)

variable {view backend sink}

/-- A sink that takes every write. -/
def WriteSink.AcceptsAll (sink : WriteSink) : Prop := ∀ received bytes, sink.write received bytes = .ok ()

private theorem emitChunks_cons_of_copies (hsink : sink.AcceptsAll) {total : U64} {c : UserSlice}
    {cs : List UserSlice} {received : List (List U8)} {bytes : List U8}
    (h : copyFromUser view backend c c.len.toNat = .returned (.ok bytes)) :
    emitChunks view backend sink total (c :: cs) received =
      emitChunks view backend sink total cs (received ++ [bytes]) := by
  simp only [emitChunks, h, hsink received bytes]

private theorem emitChunks_of_all (hsink : sink.AcceptsAll) {total : U64} {cs : List UserSlice}
    {received : List (List U8)} (hall : ∀ c ∈ cs, ChunkCopies view backend c) :
    (emitChunks view backend sink total cs received).1 = .returned (.ok total) := by
  induction cs generalizing received with
  | nil => rfl
  | cons c cs ih =>
    obtain ⟨bytes, h⟩ := hall c List.mem_cons_self
    rw [emitChunks_cons_of_copies hsink h]
    exact ih fun c' hc' => hall c' (List.mem_cons_of_mem _ hc')

private theorem emitChunks_received (hsink : sink.AcceptsAll) {total : U64} {cs : List UserSlice}
    {received : List (List U8)} : received <+: (emitChunks view backend sink total cs received).2 := by
  induction cs generalizing received with
  | nil => exact List.prefix_rfl
  | cons c cs ih =>
    unfold emitChunks
    split
    · exact List.prefix_rfl
    · exact List.prefix_rfl
    · rw [hsink]
      exact (List.prefix_append _ _).trans ih

/-- The first chunk that does not copy decides how the loop ends. -/
private theorem emitChunks_of_not_all (hsink : sink.AcceptsAll) {cs : List UserSlice}
    (hall : ¬ ∀ c ∈ cs, ChunkCopies view backend c) (total : U64) (received : List (List U8)) :
    ∃ c ∈ cs, (∃ error, copyFromUser view backend c c.len.toNat = .returned (.error error) ∧
        (emitChunks view backend sink total cs received).1 = .returned (.error (.invalidUserMemory error))) ∨
      (copyFromUser view backend c c.len.toNat = .panicked ∧
        (emitChunks view backend sink total cs received).1 = .panicked) := by
  induction cs generalizing received with
  | nil => exact absurd (fun c hc => by cases hc) hall
  | cons c cs ih =>
    cases hcopy : copyFromUser view backend c c.len.toNat with
    | panicked => exact ⟨c, List.mem_cons_self, .inr ⟨hcopy, by simp only [emitChunks, hcopy]⟩⟩
    | returned copied =>
      cases copied with
      | error error => exact ⟨c, List.mem_cons_self, .inl ⟨error, hcopy, by simp only [emitChunks, hcopy]⟩⟩
      | ok bytes =>
        rw [emitChunks_cons_of_copies hsink hcopy]
        have hrest : ¬ ∀ c' ∈ cs, ChunkCopies view backend c' := by
          intro h
          refine hall fun c' hc' => ?_
          rcases List.mem_cons.mp hc' with rfl | hc'
          · exact ⟨bytes, hcopy⟩
          · exact h c' hc'
        obtain ⟨c', hc', hend⟩ := ih hrest (received ++ [bytes])
        exact ⟨c', List.mem_cons_of_mem _ hc', hend⟩

/-- Bytes reach the sink exactly when the first chunk copies. -/
private theorem emitChunks_received_ne (hsink : sink.AcceptsAll) {total : U64} {c : UserSlice} {cs : List UserSlice}
    {received : List (List U8)} :
    (emitChunks view backend sink total (c :: cs) received).2 ≠ received ↔ ChunkCopies view backend c := by
  constructor
  · intro hne
    cases hcopy : copyFromUser view backend c c.len.toNat with
    | panicked => exact absurd (by simp only [emitChunks, hcopy]) hne
    | returned copied =>
      cases copied with
      | error error => exact absurd (by simp only [emitChunks, hcopy]) hne
      | ok bytes => exact ⟨bytes, hcopy⟩
  · rintro ⟨bytes, hcopy⟩ heq
    rw [emitChunks_cons_of_copies hsink hcopy] at heq
    have hgrow : received ++ [bytes] <+: (emitChunks view backend sink total cs (received ++ [bytes])).2 :=
      emitChunks_received hsink
    rw [heq] at hgrow
    have := hgrow.length_le
    rw [List.length_append, List.length_singleton] at this
    omega

/-! ### The write as a loop over chunks -/

/-- A non-empty accepted slice is written chunk by chunk. -/
theorem sysWriteWithMemory_eq {slice : UserSlice} {range : VirtRange} {received : List (List U8)}
    (hok : validateSlice slice = .ok range) (hlen : slice.len ≠ 0) :
    sysWriteWithMemory slice view backend sink received =
      emitChunks view backend sink slice.len slice.chunks received := by
  have hempty : slice.isEmpty = false := by
    rw [UserSlice.isEmpty, beq_eq_false_iff_ne]
    exact hlen
  unfold sysWriteWithMemory
  simp only [hok, hempty, Bool.false_eq_true, if_false]
  exact writeLoop_eq view backend sink (fits_of_validateSlice hlen hok) (by omega) fun _ => rfl

private theorem UserSlice.chunks_eq_cons {slice : UserSlice} (hlen : slice.len ≠ 0) :
    ∃ rest, slice.chunks = slice.chunk 0 :: rest := by
  have hpos : slice.len.toNat ≠ 0 := fun h => hlen (BitVec.eq_of_toNat_eq h)
  obtain ⟨n, hn⟩ : ∃ n, slice.chunkCount = n + 1 := Nat.exists_eq_succ_of_ne_zero (by
    unfold UserSlice.chunkCount
    omega)
  exact ⟨slice.chunksFrom 1 n, by rw [UserSlice.chunks, hn]; rfl⟩

/-- The bytes of a chunk are bytes of the slice. -/
theorem UserSlice.contains_of_mem_chunks {slice c : UserSlice} (hfits : slice.Fits) (hc : c ∈ slice.chunks) {a : U64}
    (ha : c.Contains a) : slice.Contains a := by
  obtain ⟨k, hk, rfl⟩ := UserSlice.mem_chunks.mp hc
  obtain ⟨hle, hlt⟩ := ha
  rw [UserSlice.toNat_chunk_ptr hfits hk] at hle hlt
  rw [UserSlice.toNat_chunk_len] at hlt
  unfold UserSlice.Contains
  omega

/-- The copy of a chunk that succeeds has found the page of each of its bytes readable. -/
theorem ChunkCopies.readable {c : UserSlice} (hlen : c.len ≠ 0) (h : ChunkCopies view backend c) {a : U64}
    (ha : c.Contains a) : view.Readable (pageStartOf a) := by
  obtain ⟨bytes, h⟩ := h
  exact ((validateReadableRange_eq_ok hlen).mp (copyFromUser_eq_ok.mp h).1).2 a ha

variable (view backend) in
/-- The backend does not panic on a slice that the view reports readable. -/
def BackendReturns : Prop :=
  ∀ c : UserSlice, (∀ a, c.Contains a → view.Readable (pageStartOf a)) →
    backend.copyFromUser c.ptr c.len.toNat ≠ .panicked

/-- A chunk whose copy panics has a byte whose page is not readable. -/
private theorem not_readable_of_panicked (hbackend : BackendReturns view backend) {c : UserSlice}
    (h : copyFromUser view backend c c.len.toNat = .panicked) :
    ¬ ∀ a, c.Contains a → view.Readable (pageStartOf a) := by
  intro hread
  rcases copyFromUser_eq_panicked.mp h with hvalid | ⟨-, hpanicked⟩
  · by_cases hlen : c.len = 0
    · simp [validateReadableRange, validateSlice, hlen, VirtRange.isEmpty] at hvalid
    · cases hok : validateSlice c with
      | error error => simp [validateReadableRange, hok] at hvalid
      | ok range =>
        rw [(validateReadableRange_eq_ok hlen).mpr ⟨⟨range, hok⟩, hread⟩] at hvalid
        cases hvalid
  · exact hbackend c hread hpanicked

/-! ### Where a write panics -/

variable (view backend) in
/-- The copy of the `j`-th chunk panics and every chunk before it copies. -/
def PanicsAt (slice : UserSlice) (j : Nat) : Prop :=
  (∀ i < j, ChunkCopies view backend (slice.chunk i)) ∧
    copyFromUser view backend (slice.chunk j) (slice.chunk j).len.toNat = .panicked

private theorem panics_of_emitChunks {total : U64} {slice : UserSlice} {n k : Nat} {received : List (List U8)}
    (hbefore : ∀ i < k, ChunkCopies view backend (slice.chunk i))
    (h : (emitChunks view backend sink total (slice.chunksFrom k n) received).1 = .panicked) :
    ∃ j < k + n, PanicsAt view backend slice j := by
  induction n generalizing k received with
  | zero => cases h
  | succ n ih =>
    have hcons : slice.chunksFrom k (n + 1) = slice.chunk k :: slice.chunksFrom (k + 1) n := rfl
    rw [hcons] at h
    cases hcopy : copyFromUser view backend (slice.chunk k) (slice.chunk k).len.toNat with
    | panicked => exact ⟨k, by omega, hbefore, hcopy⟩
    | returned copied =>
      cases copied with
      | error error => simp [emitChunks, hcopy] at h
      | ok bytes =>
        -- the loop has come past the chunk `k`, so that it has been copied
        have hnext : ∀ i < k + 1, ChunkCopies view backend (slice.chunk i) := by
          intro i hi
          rcases Nat.lt_succ_iff_lt_or_eq.mp hi with hi | rfl
          · exact hbefore i hi
          · exact ⟨bytes, hcopy⟩
        cases hw : sink.write received bytes with
        | error error => simp [emitChunks, hcopy, hw] at h
        | ok _ =>
          simp only [emitChunks, hcopy, hw] at h
          obtain ⟨j, hj, hpanic⟩ := ih hnext h
          exact ⟨j, by omega, hpanic⟩

private theorem emitChunks_panics (hsink : sink.AcceptsAll) {total : U64} {slice : UserSlice} {n k j : Nat}
    {received : List (List U8)} (hkj : k ≤ j) (hj : j < k + n) (h : PanicsAt view backend slice j) :
    (emitChunks view backend sink total (slice.chunksFrom k n) received).1 = .panicked := by
  induction n generalizing k received with
  | zero => omega
  | succ n ih =>
    have hcons : slice.chunksFrom k (n + 1) = slice.chunk k :: slice.chunksFrom (k + 1) n := rfl
    rw [hcons]
    rcases Nat.eq_or_lt_of_le hkj with rfl | hlt
    · simp only [emitChunks, h.2]
    · obtain ⟨bytes, hcopy⟩ := h.1 k hlt
      rw [emitChunks_cons_of_copies hsink hcopy]
      exact ih hlt (by omega)

/-- Some sink lets the write run into a panic exactly when the copy of a chunk panics that a write can reach. -/
theorem sysWriteWithMemory_panics {slice : UserSlice} :
    (∃ sink received, (sysWriteWithMemory slice view backend sink received).1 = .panicked) ↔
      slice.len ≠ 0 ∧ (∃ range, validateSlice slice = .ok range) ∧
        ∃ j < slice.chunkCount, PanicsAt view backend slice j := by
  constructor
  · rintro ⟨sink, received, h⟩
    have hlen : slice.len ≠ 0 := by
      intro hlen
      simp [sysWriteWithMemory, validateSlice, UserSlice.isEmpty, hlen] at h
    cases hok : validateSlice slice with
    | error error => simp [sysWriteWithMemory, hok] at h
    | ok range =>
      rw [sysWriteWithMemory_eq hok hlen] at h
      obtain ⟨j, hj, hpanic⟩ := panics_of_emitChunks (fun i hi => absurd hi (Nat.not_lt_zero i)) h
      exact ⟨hlen, ⟨range, rfl⟩, j, by omega, hpanic⟩
  · rintro ⟨hlen, ⟨range, hok⟩, j, hj, hpanic⟩
    refine ⟨⟨fun _ _ => .ok ()⟩, [], ?_⟩
    rw [sysWriteWithMemory_eq hok hlen]
    exact emitChunks_panics (fun _ _ => rfl) (Nat.zero_le j) (by omega) hpanic

/-! ### All or nothing -/

variable (view backend sink) in
/-- A write that fails has emitted nothing, and a write that emits has a readable page under every byte
of the slice. -/
structure WriteAllOrNothing (slice : UserSlice) (received : List (List U8)) : Prop where
  silent_on_error : ∀ error, (sysWriteWithMemory slice view backend sink received).1 = .returned (.error error) →
    (sysWriteWithMemory slice view backend sink received).2 = received
  readable_on_output : (sysWriteWithMemory slice view backend sink received).2 ≠ received →
    ∀ a, slice.Contains a → view.Readable (pageStartOf a)

/-- All or nothing holds exactly for the slices that never reach the loop, those whose first chunk does not copy and
those all of whose chunks do. -/
theorem writeAllOrNothing_iff (hsink : sink.AcceptsAll) (hbackend : BackendReturns view backend) (slice : UserSlice)
    (received : List (List U8)) :
    WriteAllOrNothing view backend sink slice received ↔
      (¬ ∃ range, validateSlice slice = .ok range) ∨ slice.len = 0 ∨
        ¬ ChunkCopies view backend (slice.chunk 0) ∨ ∀ c ∈ slice.chunks, ChunkCopies view backend c := by
  by_cases hlen : slice.len = 0
  · have hempty : sysWriteWithMemory slice view backend sink received = (.returned (.ok 0), received) := by
      simp [sysWriteWithMemory, validateSlice, UserSlice.isEmpty, hlen]
    simp only [hlen, true_or, or_true, iff_true]
    exact ⟨by simp [hempty], by simp [hempty]⟩
  cases hok : validateSlice slice with
  | error error =>
    have hreject : sysWriteWithMemory slice view backend sink received =
        (.returned (.error (.invalidUserRange error)), received) := by
      simp [sysWriteWithMemory, hok]
    simp only [reduceCtorEq, exists_false, not_false_eq_true, true_or, iff_true]
    exact ⟨by simp [hreject], by simp [hreject]⟩
  | ok range =>
    have hfits := fits_of_validateSlice hlen hok
    obtain ⟨rest, hcons⟩ := UserSlice.chunks_eq_cons hlen
    have heq : sysWriteWithMemory slice view backend sink received =
        emitChunks view backend sink slice.len slice.chunks received := sysWriteWithMemory_eq hok hlen
    simp only [Except.ok.injEq, exists_eq', not_true_eq_false, hlen, false_or]
    have hemits : (sysWriteWithMemory slice view backend sink received).2 ≠ received ↔
        ChunkCopies view backend (slice.chunk 0) := by
      rw [heq, hcons]
      exact emitChunks_received_ne hsink
    constructor
    · rintro ⟨hsilent, hreadable⟩
      by_contra hnot
      obtain ⟨hfirst, hall⟩ := not_or.mp hnot
      have hout := hemits.mpr (not_not.mp hfirst)
      obtain ⟨c, hc, ⟨error, -, hend⟩ | ⟨hpanic, -⟩⟩ := emitChunks_of_not_all hsink hall slice.len received
      · rw [← heq] at hend
        exact hout (hsilent _ hend)
      · exact not_readable_of_panicked hbackend hpanic fun a ha =>
          hreadable hout a (UserSlice.contains_of_mem_chunks hfits hc ha)
    · intro h
      constructor
      · intro error hend
        by_contra hout
        rcases h with hfirst | hall
        · exact hfirst (hemits.mp hout)
        · rw [heq, emitChunks_of_all hsink hall] at hend
          cases hend
      · intro hout a ha
        rcases h with hfirst | hall
        · exact absurd (hemits.mp hout) hfirst
        · obtain ⟨hk, hin⟩ := UserSlice.contains_chunk hfits ha
          exact (hall _ (UserSlice.mem_chunks.mpr ⟨_, hk, rfl⟩)).readable (UserSlice.chunk_len_ne_zero hk) hin

end Loop

/-! ### A write that fails after it has emitted -/

namespace SplitWrite

/-- Only the first page of user space is mapped. -/
def view : UserMemoryView where
  translate _ := .returned none
  pageAccess page := .returned (if page = userSpaceStart then .userReadOnly else .unmapped)
  addressSpace := userRange

def backend : UserCopyBackend where
  copyFromUser _ n := .returned (.ok (List.replicate n 0x41))
  length_copied _ n bytes h := by
    cases h
    exact List.length_replicate

def sink : WriteSink := ⟨fun _ _ => .ok ()⟩

/-- The last 256 bytes of the mapped page and one byte of the next. -/
def slice : UserSlice := ⟨0x10f00, 257⟩

theorem not_writeAllOrNothing :
    sysWriteWithMemory slice view backend sink [] =
        (.returned (.error (.invalidUserMemory .unmapped)), [List.replicate 256 0x41]) ∧
      ¬ WriteAllOrNothing view backend sink slice [] := by
  have hrun : sysWriteWithMemory slice view backend sink [] =
      (.returned (.error (.invalidUserMemory .unmapped)), [List.replicate 256 0x41]) := by rfl
  refine ⟨hrun, fun h => ?_⟩
  have := h.silent_on_error (.invalidUserMemory .unmapped) (by rw [hrun])
  rw [hrun] at this
  cases this

/-- Without its last byte the slice lies in the mapped page, and the write succeeds. -/
theorem writeAllOrNothing_one_page :
    sink.AcceptsAll ∧ BackendReturns view backend ∧ WriteAllOrNothing view backend sink ⟨0x10f00, 256⟩ [] := by
  have hsink : sink.AcceptsAll := fun _ _ => rfl
  have hbackend : BackendReturns view backend := fun _ _ => by simp [backend]
  refine ⟨hsink, hbackend, (writeAllOrNothing_iff hsink hbackend _ _).mpr (.inr (.inr (.inr ?_)))⟩
  intro c hc
  have hone : UserSlice.chunks ⟨0x10f00, 256⟩ = [⟨0x10f00, 256⟩] := by decide
  rw [hone, List.mem_singleton] at hc
  exact ⟨List.replicate 256 0x41, by rw [hc]; rfl⟩

end SplitWrite

end X11Os
