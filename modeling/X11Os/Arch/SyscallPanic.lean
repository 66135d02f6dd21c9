import X11Os.Arch.UserMemory
import X11Os.Syscall.Write

/-!
# Syscalls that panic

The declared user range ends at `0xffff_8000_0000_0000`, so it contains every non-canonical address.  A write whose
slice reaches the lower end of that hole passes `validate_slice`, and the page walk panics in `VirtAddr::new` as soon
as the loop comes to the first such page.  No other request panics.
-/

namespace X11Os

open Word

variable {mem : X86ActiveUserMemory} {physicalMemory : PhysicalMemoryMapping} {memory : U64 → U8}

/-! ### Copying one chunk -/

private theorem not_inHole_of_readable {a : U64} (h : mem.view.Readable (pageStartOf a)) : ¬ InHole a := by
  obtain ⟨access, hret, -⟩ := h
  intro hhole
  have hpage : InHole (pageStartOf a) := by
    unfold InHole at hhole ⊢
    rw [toNat_pageStartOf]
    omega
  have hpanic : mem.view.pageAccess (pageStartOf a) = .panicked := X86ActiveUserMemory.pageAccess_panics.mpr hpage
  rw [hpanic] at hret
  cases hret

private theorem x86UserCopyBackend_returns :
    BackendReturns mem.view (x86UserCopyBackend mem.view physicalMemory memory) := by
  intro c hread
  refine copyChunks_returns fun a hle hlt htr => ?_
  exact not_inHole_of_readable (hread a ⟨hle, hlt⟩) (X86ActiveUserMemory.translate_panics.mp htr)

/-- A chunk of the user range panics exactly when it reaches the hole and is readable below it. -/
private theorem copyFromUser_panics {c : UserSlice} {range : VirtRange} (hlen : c.len ≠ 0)
    (hok : validateSlice c = .ok range) :
    copyFromUser mem.view (x86UserCopyBackend mem.view physicalMemory memory) c c.len.toNat = .panicked ↔
      2 ^ 47 < c.ptr.toNat + c.len.toNat ∧
        ∀ a, c.Contains a → a.toNat < 2 ^ 47 → mem.view.Readable (pageStartOf a) := by
  obtain ⟨-, -, hlo, hhi⟩ := (validateSlice_eq_ok hlen).mp hok
  have hne : c.len.toNat ≠ 0 := fun h => hlen (BitVec.eq_of_toNat_eq h)
  have hvalidate : copyFromUser mem.view (x86UserCopyBackend mem.view physicalMemory memory) c c.len.toNat =
      .panicked ↔ validateReadableRange mem.view c = .panicked := by
    simp only [copyFromUser, ne_eq, not_true_eq_false, if_false]
    cases hvalid : validateReadableRange mem.view c with
    | panicked => simp
    | returned verdict =>
      cases verdict with
      | error error => simp
      | ok _ =>
        have hread := ((validateReadableRange_eq_ok hlen).mp hvalid).2
        simpa using x86UserCopyBackend_returns c hread
  rw [hvalidate, validateReadableRange_panics hlen hok]
  constructor
  · rintro ⟨q, -, -, hlt, hpanic, hread⟩
    obtain ⟨hhole, -⟩ := X86ActiveUserMemory.pageAccess_panics.mp hpanic
    exact ⟨by omega, fun a ha hlow => hread a ha (by omega)⟩
  · rintro ⟨hend, hread⟩
    -- the first page of the hole, or the page of the first byte if that lies in the hole already
    have hq : (BitVec.ofNat 64 (max (2 ^ 47) (c.ptr.toNat / 4096 * 4096))).toNat =
        max (2 ^ 47) (c.ptr.toNat / 4096 * 4096) := by
      rw [BitVec.toNat_ofNat]
      omega
    refine ⟨BitVec.ofNat 64 (max (2 ^ 47) (c.ptr.toNat / 4096 * 4096)), ?_, ?_, ?_, ?_, fun a ha hlow => ?_⟩
    · omega
    · omega
    · omega
    · refine X86ActiveUserMemory.pageAccess_panics.mpr ?_
      unfold InHole
      omega
    · refine hread a ha ?_
      obtain ⟨hle, -⟩ := ha
      omega

/-! ### Requests -/

variable (mem physicalMemory memory) in
/-- A write whose slice is accepted and reaches the hole, with everything below the hole readable and copied. -/
structure WriteReachesHole (request : SyscallRequest) : Prop where
  is_write : request.number = 0
  reserved : request.arg2 = 0
  nonempty : request.arg1 ≠ 0
  accepted : ∃ range, validateSlice request.userSlice = .ok range
  reaches : 2 ^ 47 < request.arg0.toNat + request.arg1.toNat
  readable_below : ∀ a, request.userSlice.Contains a → a.toNat < 2 ^ 47 → mem.view.Readable (pageStartOf a)
  copies_below : ∀ c ∈ request.userSlice.chunks, c.ptr.toNat + c.len.toNat ≤ 2 ^ 47 →
    ChunkCopies mem.view (x86UserCopyBackend mem.view physicalMemory memory) c

/-- A chunk of an accepted slice is accepted. -/
private theorem validateSlice_chunk {slice : UserSlice} {range : VirtRange} (hlen : slice.len ≠ 0)
    (hok : validateSlice slice = .ok range) {k : Nat} (hk : k < slice.chunkCount) :
    ∃ range', validateSlice (slice.chunk k) = .ok range' := by
  obtain ⟨-, -, hlo, hhi⟩ := (validateSlice_eq_ok hlen).mp hok
  rw [validateSlice_isOk_iff (UserSlice.chunk_len_ne_zero hk),
    UserSlice.toNat_chunk_ptr (fits_of_validateSlice hlen hok) hk, UserSlice.toNat_chunk_len]
  unfold UserSlice.chunkCount at hk
  omega

/-- The chunk that panics is the first that reaches the hole. -/
private theorem exists_panicsAt {slice : UserSlice} {range : VirtRange} (hlen : slice.len ≠ 0)
    (hok : validateSlice slice = .ok range) :
    (∃ j < slice.chunkCount, PanicsAt mem.view (x86UserCopyBackend mem.view physicalMemory memory) slice j) ↔
      2 ^ 47 < slice.ptr.toNat + slice.len.toNat ∧
      (∀ a, slice.Contains a → a.toNat < 2 ^ 47 → mem.view.Readable (pageStartOf a)) ∧
      ∀ c ∈ slice.chunks, c.ptr.toNat + c.len.toNat ≤ 2 ^ 47 →
        ChunkCopies mem.view (x86UserCopyBackend mem.view physicalMemory memory) c := by
  have hfits := fits_of_validateSlice hlen hok
  constructor
  · rintro ⟨j, hj, hbefore, hpanic⟩
    obtain ⟨range', hok'⟩ := validateSlice_chunk hlen hok hj
    obtain ⟨hreach, hread⟩ := (copyFromUser_panics (UserSlice.chunk_len_ne_zero hj) hok').mp hpanic
    rw [UserSlice.toNat_chunk_ptr hfits hj, UserSlice.toNat_chunk_len] at hreach
    have hstart : 256 * j < slice.len.toNat := by
      unfold UserSlice.chunkCount at hj
      omega
    refine ⟨by omega, fun a ha hlow => ?_, fun c hc hend => ?_⟩
    · obtain ⟨hk, hin⟩ := UserSlice.contains_chunk hfits ha
      rcases Nat.lt_trichotomy ((a.toNat - slice.ptr.toNat) / 256) j with hlt | heq | hgt
      · exact (hbefore _ hlt).readable (UserSlice.chunk_len_ne_zero hk) hin
      · rw [heq] at hin
        exact hread a hin hlow
      · -- the chunks after the `j`-th start above the hole's lower end
        obtain ⟨hle, -⟩ := ha
        omega
    · obtain ⟨k, hk, rfl⟩ := UserSlice.mem_chunks.mp hc
      rw [UserSlice.toNat_chunk_ptr hfits hk, UserSlice.toNat_chunk_len] at hend
      refine hbefore k ?_
      unfold UserSlice.chunkCount at hk
      omega
  · rintro ⟨hreach, hread, hcopies⟩
    have hj : (2 ^ 47 - slice.ptr.toNat) / 256 < slice.chunkCount := by
      have : slice.len.toNat ≠ 0 := fun h => hlen (BitVec.eq_of_toNat_eq h)
      unfold UserSlice.chunkCount
      omega
    refine ⟨(2 ^ 47 - slice.ptr.toNat) / 256, hj, fun i hi => ?_, ?_⟩
    · have hk : i < slice.chunkCount := by omega
      refine hcopies _ (UserSlice.mem_chunks.mpr ⟨i, hk, rfl⟩) ?_
      rw [UserSlice.toNat_chunk_ptr hfits hk, UserSlice.toNat_chunk_len]
      omega
    · obtain ⟨range', hok'⟩ := validateSlice_chunk hlen hok hj
      refine (copyFromUser_panics (UserSlice.chunk_len_ne_zero hj) hok').mpr ⟨?_, fun a ha hlow => ?_⟩
      · rw [UserSlice.toNat_chunk_ptr hfits hj, UserSlice.toNat_chunk_len]
        omega
      · exact hread a (UserSlice.contains_of_mem_chunks hfits (UserSlice.mem_chunks.mpr ⟨_, hj, rfl⟩) ha) hlow

/-- Only a write can panic, and only in `sys_write_with_memory`. -/
private theorem dispatch_panics {σ : Type} {request : SyscallRequest} {view : UserMemoryView}
    {backend : UserCopyBackend} {sink : WriteSink} {control : ProcessSyscallControl σ} {received : List (List U8)}
    {owner : σ} :
    (dispatchWithMemoryAndControlAction request view backend sink control received owner).dispatch = .panicked ↔
      request.number = 0 ∧ request.arg2 = 0 ∧
        (sysWriteWithMemory request.userSlice view backend sink received).1 = .panicked := by
  have hwrite : request.syscall = some .write ↔ request.number = 0 := Syscall.fromNumber_eq_write
  unfold dispatchWithMemoryAndControlAction
  rw [← hwrite]
  cases request.syscall with
  | none => simp
  | some syscall =>
    cases syscall with
    | write =>
      by_cases harg : request.arg2 = 0
      · simp only [harg, ne_eq, not_true_eq_false, if_false, true_and]
        cases (sysWriteWithMemory request.userSlice view backend sink received).1 <;> simp
      · simp only [harg, ne_eq, not_false_eq_true, if_true, false_and, and_false, reduceCtorEq]
    | exit =>
      simp only [Option.some.injEq, reduceCtorEq, false_and, iff_false]
      split <;> simp
    | yield =>
      simp only [Option.some.injEq, reduceCtorEq, false_and, iff_false]
      split <;> simp

variable (mem physicalMemory memory) in
/-- The dispatch of the request returns, for every sink and every process control. -/
def DispatchReturns (request : SyscallRequest) : Prop :=
  ∀ (σ : Type) (sink : WriteSink) (control : ProcessSyscallControl σ) (received : List (List U8)) (owner : σ),
    (dispatchWithMemoryAndControlAction request mem.view (x86UserCopyBackend mem.view physicalMemory memory) sink
      control received owner).dispatch ≠ .panicked

/-- Exactly the writes that reach the hole can panic. -/
theorem dispatchReturns_iff (mem : X86ActiveUserMemory) (physicalMemory : PhysicalMemoryMapping) (memory : U64 → U8)
    (request : SyscallRequest) :
    DispatchReturns mem physicalMemory memory request ↔ ¬ WriteReachesHole mem physicalMemory memory request := by
  have hpanics : (¬ DispatchReturns mem physicalMemory memory request) ↔ request.number = 0 ∧ request.arg2 = 0 ∧
      ∃ sink received, (sysWriteWithMemory request.userSlice mem.view
        (x86UserCopyBackend mem.view physicalMemory memory) sink received).1 = .panicked := by
    simp only [DispatchReturns, ne_eq, dispatch_panics, not_forall, not_not]
    constructor
    · rintro ⟨-, sink, -, received, -, hnumber, harg, h⟩
      exact ⟨hnumber, harg, sink, received, h⟩
    · rintro ⟨hnumber, harg, sink, received, h⟩
      exact ⟨Unit, sink, ⟨fun _ _ => ((), .ok ()), fun _ => ((), .ok ())⟩, received, (), hnumber, harg, h⟩
  rw [← not_iff_not, hpanics, not_not, sysWriteWithMemory_panics]
  constructor
  · rintro ⟨hnumber, harg, hlen, ⟨range, hok⟩, hpanic⟩
    obtain ⟨hreach, hread, hcopies⟩ := (exists_panicsAt hlen hok).mp hpanic
    exact ⟨hnumber, harg, hlen, ⟨range, hok⟩, hreach, hread, hcopies⟩
  · rintro ⟨hnumber, harg, hlen, ⟨range, hok⟩, hreach, hread, hcopies⟩
    exact ⟨hnumber, harg, hlen, ⟨range, hok⟩, (exists_panicsAt hlen hok).mpr ⟨hreach, hread, hcopies⟩⟩

/-- One byte at the lowest non-canonical address, with empty page tables. -/
theorem dispatch_panics_at_hole :
    ¬ DispatchReturns ⟨fun _ => ⟨0⟩, 0, fun _ _ => ⟨0⟩⟩ ⟨0⟩ (fun _ => 0) ⟨0, 0x800000000000, 1, 0⟩ := by
  intro h
  have := h Unit ⟨fun _ _ => .ok ()⟩ ⟨fun _ _ => ((), .ok ()), fun _ => ((), .ok ())⟩ [] ()
  exact this rfl

end X11Os
