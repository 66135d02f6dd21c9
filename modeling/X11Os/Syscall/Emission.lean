import X11Os.Syscall.Write

/-!
# The bytes of a write

What the sink has accepted when a write ends is a prefix of the user's bytes, and all of them exactly when the write
succeeds, for every view, every sink and every backend that copies what user memory holds or fails.
-/

namespace X11Os

open Word

/-! ### Bytes of user memory -/

namespace UserSlice

/-- The bytes of the slice, in address order. -/
def bytes (slice : UserSlice) (userByte : U64 → U8) : List U8 := readBytes userByte slice.ptr slice.len.toNat

private theorem length_bytes (slice : UserSlice) (userByte : U64 → U8) :
    (slice.bytes userByte).length = slice.len.toNat := by
  exact length_readBytes _ _ _

/-- The chunks from the `k`-th on hold the rest of the slice. -/
private theorem flatMap_chunksFrom (slice : UserSlice) (userByte : U64 → U8) {k n : Nat}
    (hcount : k + n = slice.chunkCount) :
    (slice.chunksFrom k n).flatMap (fun c => c.bytes userByte) =
      readBytes userByte (slice.ptr + BitVec.ofNat 64 (256 * k)) (slice.len.toNat - 256 * k) := by
  induction n generalizing k with
  | zero =>
    have hnone : slice.len.toNat - 256 * k = 0 := by
      unfold chunkCount at hcount
      omega
    rw [hnone]
    rfl
  | succ n ih =>
    have hcons : slice.chunksFrom k (n + 1) = slice.chunk k :: slice.chunksFrom (k + 1) n := rfl
    have hptr : slice.ptr + BitVec.ofNat 64 (256 * k) + BitVec.ofNat 64 256 =
        slice.ptr + BitVec.ofNat 64 (256 * (k + 1)) := by
      rw [BitVec.add_assoc, ← BitVec.ofNat_add]
      rfl
    rw [hcons, List.flatMap_cons, ih (by omega), bytes, toNat_chunk_len, ← hptr]
    rcases Nat.lt_or_ge (slice.len.toNat - 256 * k) 256 with hlast | hfull
    · rw [Nat.min_eq_right (by omega), show slice.len.toNat - 256 * (k + 1) = 0 by omega]
      exact List.append_nil _
    · rw [Nat.min_eq_left hfull, show slice.len.toNat - 256 * k = 256 + (slice.len.toNat - 256 * (k + 1)) by omega,
        readBytes_add]
      rfl

private theorem flatMap_chunks (slice : UserSlice) (userByte : U64 → U8) :
    slice.chunks.flatMap (fun c => c.bytes userByte) = slice.bytes userByte := by
  rw [chunks, flatMap_chunksFrom slice userByte (Nat.zero_add _), Nat.mul_zero, Nat.sub_zero,
    BitVec.add_zero]
  rfl

end UserSlice

/-! ### Prefixes -/

/-- The end of a write of the given bytes: what the sink has accepted since then is a prefix of them, all of them
exactly on success, and success reports the total. -/
structure Emits (bytes : List U8) (total : U64) (received : List (List U8))
    (outcome : Panics SyscallResult × List (List U8)) : Prop where
  accepted : ∃ accepted, outcome.2 = received ++ accepted ∧ accepted.flatten <+: bytes ∧
    (accepted.flatten = bytes ↔ ∃ n, outcome.1 = .returned (.ok n))
  total : ∀ n, outcome.1 = .returned (.ok n) → n = total

namespace Emits

variable {bytes : List U8} {total : U64} {received : List (List U8)}

private theorem done : Emits [] total received (.returned (.ok total), received) where
  accepted := ⟨[], (List.append_nil _).symm, List.prefix_rfl, fun _ => ⟨total, rfl⟩, fun _ => rfl⟩
  total n h := by
    cases h
    rfl

/-- Bytes are left, and the write has not succeeded. -/
private theorem stop {result : Panics SyscallResult} (hbytes : bytes ≠ [])
    (hresult : ∀ n, result ≠ .returned (.ok n)) :
    Emits bytes total received (result, received) where
  accepted := by
    refine ⟨[], (List.append_nil _).symm, List.nil_prefix, fun h => absurd h.symm hbytes, ?_⟩
    rintro ⟨n, h⟩
    exact absurd h (hresult n)
  total n h := absurd h (hresult n)

/-- The sink accepts the first bytes. -/
private theorem cons {first : List U8} {outcome : Panics SyscallResult × List (List U8)}
    (h : Emits bytes total (received ++ [first]) outcome) : Emits (first ++ bytes) total received outcome where
  accepted := by
    obtain ⟨accepted, hreceived, hprefix, hall⟩ := h.accepted
    refine ⟨first :: accepted, ?_, ?_, ?_⟩
    · rw [hreceived, List.append_assoc, List.singleton_append]
    · rw [List.flatten_cons]
      exact (List.prefix_append_right_inj first).mpr hprefix
    · rw [List.flatten_cons, List.append_cancel_left_eq]
      exact hall
  total := h.total

end Emits

section Write

variable {view : UserMemoryView} {backend : UserCopyBackend} {sink : WriteSink} {userByte : U64 → U8}

variable (view backend userByte) in
/-- On a slice that the view reports readable, the backend copies what user memory holds, or fails. -/
def CopiesOrFails : Prop :=
  ∀ c : UserSlice, validateReadableRange view c = .returned (.ok ()) →
    backend.copyFromUser c.ptr c.len.toNat = .returned (.ok (c.bytes userByte)) ∨
      ∃ error, backend.copyFromUser c.ptr c.len.toNat = .returned (.error error)

private theorem CopiesOrFails.copied (hbackend : CopiesOrFails view backend userByte) {c : UserSlice}
    {bytes : List U8}
    (h : copyFromUser view backend c c.len.toNat = .returned (.ok bytes)) : bytes = c.bytes userByte := by
  obtain ⟨hvalid, hcopied⟩ := copyFromUser_eq_ok.mp h
  rcases hbackend c hvalid with hok | ⟨error, herror⟩
  · rw [hok] at hcopied
    cases hcopied
    rfl
  · rw [herror] at hcopied
    cases hcopied

/-- The copy of a chunk panics only in the view. -/
private theorem CopiesOrFails.view_panics (hbackend : CopiesOrFails view backend userByte) {c : UserSlice}
    (hlen : c.len ≠ 0)
    (h : copyFromUser view backend c c.len.toNat = .panicked) : ∃ page, view.pageAccess page = .panicked := by
  rcases copyFromUser_eq_panicked.mp h with hvalid | ⟨hvalid, hpanicked⟩
  · cases hok : validateSlice c with
    | error error => simp [validateReadableRange, hok] at hvalid
    | ok range =>
      obtain ⟨q, -, -, -, hpanic, -⟩ := (validateReadableRange_panics hlen hok).mp hvalid
      exact ⟨q, hpanic⟩
  · rcases hbackend c hvalid with hok | ⟨error, herror⟩
    · rw [hok] at hpanicked
      cases hpanicked
    · rw [herror] at hpanicked
      cases hpanicked

private theorem emitChunks_emits (hbackend : CopiesOrFails view backend userByte) (total : U64) {cs : List UserSlice}
    (hlen : ∀ c ∈ cs, c.len ≠ 0) (received : List (List U8)) :
    Emits (cs.flatMap fun c => c.bytes userByte) total received
      (emitChunks view backend sink total cs received) := by
  induction cs generalizing received with
  | nil => exact .done
  | cons c cs ih =>
    rw [List.forall_mem_cons] at hlen
    -- a chunk is not empty, so whoever stops here has not emitted everything
    have hleft : c.bytes userByte ++ cs.flatMap (fun c => c.bytes userByte) ≠ [] := by
      intro hnil
      have hzero := c.length_bytes userByte
      rw [(List.append_eq_nil_iff.mp hnil).1] at hzero
      exact hlen.1 (BitVec.eq_of_toNat_eq hzero.symm)
    rw [List.flatMap_cons]
    unfold emitChunks
    cases hcopy : copyFromUser view backend c c.len.toNat with
    | panicked => exact .stop hleft (by simp)
    | returned copied =>
      cases copied with
      | error error => exact .stop hleft (by simp)
      | ok bytes =>
        obtain rfl := hbackend.copied hcopy
        cases hsink : sink.write received (c.bytes userByte) with
        | error error =>
          simp only [hsink]
          exact .stop hleft (by simp)
        | ok _ =>
          simp only [hsink]
          exact .cons (ih hlen.2 _)

/-! ### The loop ends by its own test -/

/-- A chunk takes the offset to the end of the slice, or by the whole buffer. -/
private theorem toNat_chunkLen {len offset : U64} (hlt : offset < len) :
    (if len - offset ≤ bufferLen then len - offset else bufferLen).toNat = min (len.toNat - offset.toNat) 256 := by
  have hremaining : (len - offset).toNat = len.toNat - offset.toNat :=
    BitVec.toNat_sub_of_le (BitVec.le_of_lt hlt)
  have hbuffer : bufferLen.toNat = 256 := rfl
  split_ifs with h <;> rw [BitVec.le_def, hremaining, hbuffer] at h <;> omega

/-- With a round for every chunk that is left, the loop has come to its end: more rounds make no difference. -/
private theorem writeLoop_fuel {slice : UserSlice} {n : Nat} {offset : U64} {received : List (List U8)}
    (hrounds : slice.len.toNat ≤ offset.toNat + 256 * n) (extra : Nat) :
    writeLoop view backend sink slice (n + extra) offset received =
      writeLoop view backend sink slice n offset received := by
  induction n generalizing offset received with
  | zero =>
    have hend : ¬ offset < slice.len := by
      rw [BitVec.lt_def]
      omega
    rw [Nat.zero_add]
    cases extra with
    | zero => rfl
    | succ extra =>
      unfold writeLoop
      rw [if_neg hend]
  | succ n ih =>
    rw [Nat.add_right_comm]
    unfold writeLoop
    by_cases hlt : offset < slice.len
    · have hchunk := toNat_chunkLen hlt
      simp only [hlt, if_true]
      split
      · rfl
      · split
        · rfl
        · rfl
        · split
          · rfl
          · split
            · rfl
            · rename_i next hnext
              rw [checkedAdd_eq_some, hchunk] at hnext
              exact ih (by omega)
    · rw [if_neg hlt, if_neg hlt]

/-- A write emits the user's bytes in order: it ends, unless the view panics, and what the sink has accepted is a
prefix of the slice, the whole of it exactly if the result is `Ok`, which is then `Ok(len)`. -/
theorem write_emits_user_bytes (view : UserMemoryView) (backend : UserCopyBackend) (userByte : U64 → U8)
    (hbackend : CopiesOrFails view backend userByte) (sink : WriteSink) (slice : UserSlice)
    (received : List (List U8)) :
    (∀ rounds ≥ slice.chunkCount, writeLoop view backend sink slice rounds 0 received =
      writeLoop view backend sink slice slice.chunkCount 0 received) ∧
    ((sysWriteWithMemory slice view backend sink received).1 = .panicked → ∃ page, view.pageAccess page = .panicked) ∧
    Emits (slice.bytes userByte) slice.len received (sysWriteWithMemory slice view backend sink received) := by
  refine ⟨fun rounds hrounds => ?_, fun hpanic => ?_, ?_⟩
  · obtain ⟨extra, rfl⟩ := Nat.exists_eq_add_of_le hrounds
    have hcount : slice.len.toNat ≤ (0 : U64).toNat + 256 * slice.chunkCount := by
      unfold UserSlice.chunkCount
      omega
    exact writeLoop_fuel hcount extra
  · obtain ⟨hlen, ⟨range, hok⟩, j, hj, -, hcopy⟩ := sysWriteWithMemory_panics.mp ⟨sink, received, hpanic⟩
    exact hbackend.view_panics (UserSlice.chunk_len_ne_zero hj) hcopy
  · by_cases hlen : slice.len = 0
    · have hempty : sysWriteWithMemory slice view backend sink received = (.returned (.ok slice.len), received) := by
        simp [sysWriteWithMemory, validateSlice, UserSlice.isEmpty, hlen]
      have hnone : slice.bytes userByte = [] := by
        rw [UserSlice.bytes, hlen]
        rfl
      rw [hempty, hnone]
      exact .done
    · cases hok : validateSlice slice with
      | error error =>
        have hreject : sysWriteWithMemory slice view backend sink received =
            (.returned (.error (.invalidUserRange error)), received) := by
          simp [sysWriteWithMemory, hok]
        rw [hreject]
        refine .stop (fun hnil => hlen (BitVec.eq_of_toNat_eq ?_)) (by simp)
        rw [← slice.length_bytes userByte, hnil]
        rfl
      | ok range =>
        rw [sysWriteWithMemory_eq hok hlen, ← slice.flatMap_chunks userByte]
        refine emitChunks_emits hbackend slice.len (fun c hc => ?_) received
        obtain ⟨k, hk, rfl⟩ := UserSlice.mem_chunks.mp hc
        exact UserSlice.chunk_len_ne_zero hk

end Write

/-! ### A sink that fails in the middle -/

namespace FullSink

/-- Every byte holds the low byte of its address. -/
def userByte (a : U64) : U8 := a.setWidth 8

def backend : UserCopyBackend where
  copyFromUser src n := .returned (.ok (readBytes userByte src n))
  length_copied src n bytes h := by
    cases h
    exact length_readBytes _ _ _

/-- Takes one write. -/
def sink : WriteSink := ⟨fun received _ => if received = [] then .ok () else .error .writeFailed⟩

/-- The last 512 bytes of the mapped page. -/
def slice : UserSlice := ⟨0x10e00, 512⟩

/-- The second chunk is refused; the first is a prefix of the slice. -/
theorem write_emits_first_chunk :
    sysWriteWithMemory slice SplitWrite.view backend sink [] =
        (.returned (.error .writeFailed), [readBytes userByte 0x10e00 256]) ∧
      Emits (slice.bytes userByte) 512 [] (sysWriteWithMemory slice SplitWrite.view backend sink []) := by
  have hbackend : CopiesOrFails SplitWrite.view backend userByte := fun c _ => .inl rfl
  exact ⟨rfl, (write_emits_user_bytes SplitWrite.view backend userByte hbackend sink slice []).2.2⟩

end FullSink

end X11Os
