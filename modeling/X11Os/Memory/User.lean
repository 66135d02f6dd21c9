import X11Os.Memory.AddressSpace

/-!
# User slices

Validation of pointer/length pairs (`memory/user.rs`) and the page-granular validation and copy of user memory
(`memory/user_copy.rs`).
-/

namespace X11Os

open Word

structure UserSlice where
  ptr : U64
  len : U64
deriving DecidableEq, Repr

def UserSlice.isEmpty (slice : UserSlice) : Bool := slice.len == 0

inductive UserRangeError where
  | nullPointer
  | addressOverflow
  | outsideUserSpace
deriving DecidableEq, Repr

def validateSlice (slice : UserSlice) : Except UserRangeError VirtRange :=
  if slice.len = 0 then .ok ⟨slice.ptr, slice.ptr, BitVec.le_refl _⟩
  else if slice.ptr = 0 then .error .nullPointer
  else
    match checkedAdd slice.ptr slice.len with
    | none => .error .addressOverflow
    | some stop =>
      match VirtRange.new slice.ptr stop with
      | none => .error .addressOverflow
      | some range =>
        if range.start < userSpaceStart ∨ range.stop > kernelSpaceStart then .error .outsideUserSpace
        else .ok range

/-- The addresses of the slice. -/
def UserSlice.Contains (slice : UserSlice) (a : U64) : Prop :=
  slice.ptr.toNat ≤ a.toNat ∧ a.toNat < slice.ptr.toNat + slice.len.toNat

/-- A non-empty slice is accepted exactly when it lies in the declared user range, and its range is the slice. -/
theorem validateSlice_eq_ok {slice : UserSlice} (hlen : slice.len ≠ 0) {range : VirtRange} :
    validateSlice slice = .ok range ↔
      range.start = slice.ptr ∧ range.stop.toNat = slice.ptr.toNat + slice.len.toNat ∧
        0x10000 ≤ slice.ptr.toNat ∧ slice.ptr.toNat + slice.len.toNat ≤ 0xffff800000000000 := by
  have hstart : userSpaceStart.toNat = 0x10000 := rfl
  have hkernel : kernelSpaceStart.toNat = 0xffff800000000000 := rfl
  unfold validateSlice
  rw [if_neg hlen]
  split_ifs with hnull
  · simp only [false_iff, not_and, hnull]
    intro _ _ h
    exact absurd h (by decide)
  · split
    · rename_i hnone
      have := checkedAdd_eq_none.mp hnone
      simp only [reduceCtorEq, false_iff, not_and]
      intro _ _ _ h
      omega
    · rename_i stop hsome
      have hstop := checkedAdd_eq_some.mp hsome
      have hle : slice.ptr ≤ stop := by
        rw [BitVec.le_def]
        omega
      simp only [VirtRange.new, hle, dite_true, BitVec.lt_def, gt_iff_lt, hstart, hkernel]
      split_ifs with hout
      · simp only [false_iff, not_and]
        intro _ _ _ h
        omega
      · rw [Except.ok.injEq]
        constructor
        · rintro rfl
          exact ⟨rfl, hstop, by omega, by omega⟩
        · rintro ⟨h1, h2, -, -⟩
          obtain ⟨start, stop', hord⟩ := range
          have : stop' = stop := BitVec.eq_of_toNat_eq (by rw [h2, hstop])
          subst this
          subst h1
          rfl

theorem validateSlice_isOk_iff {slice : UserSlice} (hlen : slice.len ≠ 0) :
    (∃ range, validateSlice slice = .ok range) ↔
      0x10000 ≤ slice.ptr.toNat ∧ slice.ptr.toNat + slice.len.toNat ≤ 0xffff800000000000 := by
  constructor
  · rintro ⟨range, h⟩
    exact ((validateSlice_eq_ok hlen).mp h).2.2
  · rintro ⟨h1, h2⟩
    have hstop : (slice.ptr + slice.len).toNat = slice.ptr.toNat + slice.len.toNat := by
      rw [BitVec.toNat_add]
      omega
    refine ⟨⟨slice.ptr, slice.ptr + slice.len, ?_⟩, (validateSlice_eq_ok hlen).mpr ⟨rfl, hstop, h1, h2⟩⟩
    rw [BitVec.le_def, hstop]
    omega

/-! ### Readable ranges -/

inductive UserReadError where
  | invalidRange (error : UserRangeError)
  | pageAddressOverflow
  | invalidPageAddress
  | unmapped
  | notUserAccessible
  | notReadable
  | backendFailure
deriving DecidableEq, Repr

/-- The verdict on one page. -/
def checkAccess (access : PageAccess) : Except UserReadError Unit :=
  match access with
  | { mapped := false, .. } => .error .unmapped
  | { mapped := true, user := false, .. } => .error .notUserAccessible
  | { mapped := true, user := true, readable := false, .. } => .error .notReadable
  | { mapped := true, user := true, readable := true, .. } => .ok ()

/-- The page loop of `validate_readable_range`, from the page at `pageStart` on.  `fuel` is the number of pages up to
`stop`, so the loop always ends through its own `break`. -/
def validatePages (view : UserMemoryView) (stop : U64) : Nat → U64 → Panics (Except UserReadError Unit)
  | 0, _ => .returned (.ok ())
  | fuel + 1, pageStart =>
    match Page4K.fromStartAddress pageStart with
    | none => .returned (.error .invalidPageAddress)
    | some page =>
      (view.pageAccess page.startAddress).bind fun access =>
        match checkAccess access with
        | .error error => .returned (.error error)
        | .ok () =>
          match checkedAdd pageStart pageSize4K with
          | none => .returned (.error .pageAddressOverflow)
          | some next => if next ≥ stop then .returned (.ok ()) else validatePages view stop fuel next

def pagesUpTo (stop pageStart : U64) : Nat := (stop.toNat - pageStart.toNat + 4095) / 4096

def validateReadableRange (view : UserMemoryView) (slice : UserSlice) : Panics (Except UserReadError Unit) :=
  match validateSlice slice with
  | .error error => .returned (.error (.invalidRange error))
  | .ok range =>
    if range.isEmpty then .returned (.ok ())
    else
      let pageStart := pageStartOf range.start
      validatePages view range.stop (pagesUpTo range.stop pageStart) pageStart

theorem checkAccess_eq_ok {access : PageAccess} :
    checkAccess access = .ok () ↔ access.mapped = true ∧ access.user = true ∧ access.readable = true := by
  obtain ⟨mapped, user, readable, writable, executable⟩ := access
  cases mapped <;> cases user <;> cases readable <;> simp [checkAccess]

/-- A page that begins below the end of the user range is a page, and there is one after it. -/
theorem page_of_lt {stop p : U64} (halign : p.toNat % 4096 = 0) (hlt : p.toNat < stop.toNat)
    (hstop : stop.toNat ≤ 0xffff800000000000) :
    Page4K.fromStartAddress p = some ⟨p, aligned_iff.mpr halign⟩ ∧
      checkedAdd p pageSize4K = some (p + pageSize4K) ∧ (p + pageSize4K).toNat = p.toNat + 4096 := by
  have hnext : (p + pageSize4K).toNat = p.toNat + 4096 := by
    rw [BitVec.toNat_add, toNat_pageSize4K]
    omega
  refine ⟨?_, ?_, hnext⟩
  · rw [Page4K.fromStartAddress, dif_pos (aligned_iff.mpr halign)]
  · rw [checkedAdd_eq_some, hnext, toNat_pageSize4K]

/-- One round of the page loop: the verdict on the page, then the rest of the range. -/
private theorem validatePages_succ (view : UserMemoryView) {stop p : U64} (fuel : Nat) (halign : p.toNat % 4096 = 0)
    (hlt : p.toNat < stop.toNat) (hstop : stop.toNat ≤ 0xffff800000000000) :
    ∃ next : U64, next.toNat = p.toNat + 4096 ∧
      validatePages view stop (fuel + 1) p =
        (view.pageAccess p).bind fun access =>
          match checkAccess access with
          | .error error => .returned (.error error)
          | .ok () => if next ≥ stop then .returned (.ok ()) else validatePages view stop fuel next := by
  obtain ⟨hpage, hadd, hnext⟩ := page_of_lt halign hlt hstop
  refine ⟨p + pageSize4K, hnext, ?_⟩
  rw [validatePages, hpage, hadd]

theorem readable_iff {view : UserMemoryView} {page : U64} {access : PageAccess}
    (h : view.pageAccess page = .returned access) : view.Readable page ↔ checkAccess access = .ok () := by
  rw [checkAccess_eq_ok]
  constructor
  · rintro ⟨access', hret, hok⟩
    rw [h, Panics.returned.injEq] at hret
    exact hret ▸ hok
  · exact fun hok => ⟨access, h, hok⟩

/-- What the page loop returns at a page that is not readable. -/
inductive Refuses (view : UserMemoryView) (page : U64) : Panics (Except UserReadError Unit) → Prop where
  | panics (h : view.pageAccess page = .panicked) : Refuses view page .panicked
  | fails {access : PageAccess} {error : UserReadError} (h : view.pageAccess page = .returned access)
      (hcheck : checkAccess access = .error error) : Refuses view page (.returned (.error error))

theorem Refuses.not_readable {view : UserMemoryView} {page : U64} {verdict : Panics (Except UserReadError Unit)}
    (h : Refuses view page verdict) : ¬ view.Readable page := by
  rintro hread
  cases h with
  | panics h =>
    obtain ⟨access, hret, -⟩ := hread
    rw [h] at hret
    cases hret
  | fails h hcheck =>
    rw [(readable_iff h).mp hread] at hcheck
    cases hcheck

/-- The loop accepts a range whose pages are all readable, and otherwise ends at the first page that is not. -/
theorem validatePages_cases (view : UserMemoryView) {stop p : U64} {fuel : Nat} (halign : p.toNat % 4096 = 0)
    (hlt : p.toNat < stop.toNat) (hstop : stop.toNat ≤ 0xffff800000000000)
    (hfuel : stop.toNat ≤ p.toNat + 4096 * fuel) :
    (validatePages view stop fuel p = .returned (.ok ()) ∧
      ∀ a : U64, p.toNat ≤ a.toNat → a.toNat < stop.toNat → view.Readable (pageStartOf a)) ∨
    ∃ q : U64, q.toNat % 4096 = 0 ∧ p.toNat ≤ q.toNat ∧ q.toNat < stop.toNat ∧
      Refuses view q (validatePages view stop fuel p) ∧
      ∀ a : U64, p.toNat ≤ a.toNat → a.toNat < q.toNat → view.Readable (pageStartOf a) := by
  induction fuel generalizing p with
  | zero => omega
  | succ fuel ih =>
    obtain ⟨next, hnext, heq⟩ := validatePages_succ view fuel halign hlt hstop
    rw [heq]
    have hrefused : ∀ verdict, Refuses view p verdict → ∃ q : U64, q.toNat % 4096 = 0 ∧ p.toNat ≤ q.toNat ∧
        q.toNat < stop.toNat ∧ Refuses view q verdict ∧
        ∀ a : U64, p.toNat ≤ a.toNat → a.toNat < q.toNat → view.Readable (pageStartOf a) :=
      fun verdict h => ⟨p, halign, Nat.le_refl _, hlt, h, fun a hle hlt' => by omega⟩
    cases hacc : view.pageAccess p with
    | panicked => exact .inr (hrefused _ (.panics hacc))
    | returned access =>
      rw [Panics.bind_returned]
      cases hcheck : checkAccess access with
      | error error => exact .inr (hrefused _ (.fails hacc hcheck))
      | ok _ =>
        -- the addresses of the first page are settled, the others by the rounds that follow
        have hfirst : ∀ a : U64, p.toNat ≤ a.toNat → a.toNat < next.toNat → view.Readable (pageStartOf a) := by
          intro a hle hlt'
          rw [pageStartOf_eq halign hle (by omega)]
          exact (readable_iff hacc).mpr hcheck
        have hsplit : ∀ bound, (∀ a : U64, next.toNat ≤ a.toNat → a.toNat < bound → view.Readable (pageStartOf a)) →
            ∀ a : U64, p.toNat ≤ a.toNat → a.toNat < bound → view.Readable (pageStartOf a) := by
          intro bound hrest a hle hlt'
          rcases Nat.lt_or_ge a.toNat next.toNat with ha | ha
          · exact hfirst a hle ha
          · exact hrest a ha hlt'
        dsimp only
        split_ifs with hdone
        · rw [ge_iff_le, BitVec.le_def] at hdone
          exact .inl ⟨rfl, fun a hle hlt' => hfirst a hle (by omega)⟩
        · rw [ge_iff_le, BitVec.le_def] at hdone
          rcases ih (p := next) (by omega) (by omega) (by omega) with ⟨hok, hall⟩ | ⟨q, hq, hle, hqlt, hrefuses, hall⟩
          · exact .inl ⟨hok, hsplit _ hall⟩
          · exact .inr ⟨q, hq, by omega, hqlt, hrefuses, hsplit _ hall⟩

/-- The loop accepts a range exactly when every page of it is readable. -/
private theorem validatePages_eq_ok {view : UserMemoryView} {stop p : U64} {fuel : Nat} (halign : p.toNat % 4096 = 0)
    (hlt : p.toNat < stop.toNat) (hstop : stop.toNat ≤ 0xffff800000000000)
    (hfuel : stop.toNat ≤ p.toNat + 4096 * fuel) :
    validatePages view stop fuel p = .returned (.ok ()) ↔
      ∀ a : U64, p.toNat ≤ a.toNat → a.toNat < stop.toNat → view.Readable (pageStartOf a) := by
  rcases validatePages_cases view halign hlt hstop hfuel with ⟨hok, hall⟩ | ⟨q, hq, hle, hqlt, hrefuses, -⟩
  · exact ⟨fun _ => hall, fun _ => hok⟩
  · refine ⟨fun hok => ?_, fun hall => ?_⟩
    · rw [hok] at hrefuses
      cases hrefuses
    · have hread := hall q hle hqlt
      rw [pageStartOf_eq hq (Nat.le_refl _) (by omega)] at hread
      exact absurd hread hrefuses.not_readable

/-- The loop panics exactly when the view panics at a page that it reaches: all pages before it are readable. -/
private theorem validatePages_panics {view : UserMemoryView} {stop p : U64} {fuel : Nat} (halign : p.toNat % 4096 = 0)
    (hlt : p.toNat < stop.toNat) (hstop : stop.toNat ≤ 0xffff800000000000)
    (hfuel : stop.toNat ≤ p.toNat + 4096 * fuel) :
    validatePages view stop fuel p = .panicked ↔
      ∃ q : U64, q.toNat % 4096 = 0 ∧ p.toNat ≤ q.toNat ∧ q.toNat < stop.toNat ∧ view.pageAccess q = .panicked ∧
        ∀ a : U64, p.toNat ≤ a.toNat → a.toNat < q.toNat → view.Readable (pageStartOf a) := by
  constructor
  · intro hpanicked
    rcases validatePages_cases view halign hlt hstop hfuel with ⟨hok, -⟩ | ⟨q, hq, hle, hqlt, hrefuses, hall⟩
    · rw [hok] at hpanicked
      cases hpanicked
    · rw [hpanicked] at hrefuses
      cases hrefuses with
      | panics hpanic => exact ⟨q, hq, hle, hqlt, hpanic, hall⟩
  · rintro ⟨q, hq, hle, hqlt, hpanic, hall⟩
    have hself : ∀ {q : U64}, q.toNat % 4096 = 0 → view.Readable (pageStartOf q) → view.Readable q := by
      intro q hq hread
      rwa [pageStartOf_eq hq (Nat.le_refl _) (by omega)] at hread
    have hnot : ¬ view.Readable q := (Refuses.panics hpanic).not_readable
    rcases validatePages_cases view halign hlt hstop hfuel with ⟨-, hall'⟩ | ⟨q', hq', hle', -, hrefuses, hall'⟩
    · exact absurd (hself hq (hall' q hle hqlt)) hnot
    · -- the first page that is not readable is the one at which the view panics
      rcases Nat.lt_trichotomy q'.toNat q.toNat with h | h | h
      · exact absurd (hself hq' (hall q' hle' h)) hrefuses.not_readable
      · obtain rfl := BitVec.eq_of_toNat_eq h
        cases hverdict : validatePages view stop fuel p with
        | panicked => rfl
        | returned verdict =>
          rw [hverdict] at hrefuses
          cases hrefuses with
          | fails hret =>
            rw [hpanic] at hret
            cases hret
      · exact absurd (hself hq (hall' q hle h)) hnot

theorem fuel_enough {stop p : U64} (h : p.toNat < stop.toNat) :
    stop.toNat ≤ p.toNat + 4096 * pagesUpTo stop p := by
  unfold pagesUpTo
  omega

theorem validateReadableRange_of_range {view : UserMemoryView} {slice : UserSlice} {range : VirtRange}
    (hlen : slice.len ≠ 0) (hok : validateSlice slice = .ok range) :
    validateReadableRange view slice =
      validatePages view range.stop (pagesUpTo range.stop (pageStartOf slice.ptr)) (pageStartOf slice.ptr) := by
  obtain ⟨hstart, hstop, -⟩ := (validateSlice_eq_ok hlen).mp hok
  have hne : slice.len.toNat ≠ 0 := fun h => hlen (BitVec.eq_of_toNat_eq h)
  have hempty : range.isEmpty = false := by
    rw [VirtRange.isEmpty, beq_eq_false_iff_ne, hstart]
    intro h
    rw [h] at hstop
    omega
  rw [validateReadableRange, hok, ← hstart]
  simp only [hempty, Bool.false_eq_true, if_false]

theorem pageStart_lt_stop {slice : UserSlice} {range : VirtRange} (hlen : slice.len ≠ 0)
    (hok : validateSlice slice = .ok range) : (pageStartOf slice.ptr).toNat < range.stop.toNat := by
  obtain ⟨-, hstop, -⟩ := (validateSlice_eq_ok hlen).mp hok
  have hne : slice.len.toNat ≠ 0 := fun h => hlen (BitVec.eq_of_toNat_eq h)
  rw [toNat_pageStartOf]
  omega

/-- An address of the first page below the slice shares the page of the first byte. -/
private theorem pageStartOf_below {ptr a : U64} (hle : ptr.toNat / 4096 * 4096 ≤ a.toNat)
    (hlt : a.toNat < ptr.toNat) :
    pageStartOf a = pageStartOf ptr :=
  pageStartOf_eq (by rw [toNat_pageStartOf]; omega) (by rw [toNat_pageStartOf]; omega)
    (by rw [toNat_pageStartOf]; omega)

/-- A non-empty slice passes exactly when it lies in the user range and the page of each of its bytes is readable. -/
theorem validateReadableRange_eq_ok {view : UserMemoryView} {slice : UserSlice} (hlen : slice.len ≠ 0) :
    validateReadableRange view slice = .returned (.ok ()) ↔
      (∃ range, validateSlice slice = .ok range) ∧
        ∀ a, slice.Contains a → view.Readable (pageStartOf a) := by
  cases hok : validateSlice slice with
  | error error => simp [validateReadableRange, hok]
  | ok range =>
    obtain ⟨-, hstop, hlo, hhi⟩ := (validateSlice_eq_ok hlen).mp hok
    have hne : slice.len.toNat ≠ 0 := fun h => hlen (BitVec.eq_of_toNat_eq h)
    have hlt := pageStart_lt_stop hlen hok
    rw [validateReadableRange_of_range hlen hok,
      validatePages_eq_ok (by rw [toNat_pageStartOf]; omega) hlt (by omega) (fuel_enough hlt)]
    simp only [Except.ok.injEq, exists_eq', true_and]
    constructor
    · rintro h a ⟨hle, halt⟩
      refine h a ?_ (by omega)
      rw [toNat_pageStartOf]
      omega
    · intro h a hle halt
      rw [toNat_pageStartOf] at hle
      rcases Nat.lt_or_ge a.toNat slice.ptr.toNat with ha | ha
      · rw [pageStartOf_below hle ha]
        exact h slice.ptr ⟨Nat.le_refl _, by omega⟩
      · exact h a ⟨ha, by omega⟩

/-- On an accepted slice the validation panics exactly when the view panics at one of its pages and the pages of all
bytes before that page are readable. -/
theorem validateReadableRange_panics {view : UserMemoryView} {slice : UserSlice} {range : VirtRange}
    (hlen : slice.len ≠ 0) (hok : validateSlice slice = .ok range) :
    validateReadableRange view slice = .panicked ↔
      ∃ q : U64, q.toNat % 4096 = 0 ∧ slice.ptr.toNat / 4096 * 4096 ≤ q.toNat ∧
        q.toNat < slice.ptr.toNat + slice.len.toNat ∧ view.pageAccess q = .panicked ∧
        ∀ a, slice.Contains a → a.toNat < q.toNat → view.Readable (pageStartOf a) := by
  obtain ⟨-, hstop, hlo, hhi⟩ := (validateSlice_eq_ok hlen).mp hok
  have hne : slice.len.toNat ≠ 0 := fun h => hlen (BitVec.eq_of_toNat_eq h)
  have hlt := pageStart_lt_stop hlen hok
  rw [validateReadableRange_of_range hlen hok,
    validatePages_panics (by rw [toNat_pageStartOf]; omega) hlt (by omega) (fuel_enough hlt), toNat_pageStartOf,
    hstop]
  constructor
  · rintro ⟨q, hq, hle, hqlt, hpanic, hall⟩
    exact ⟨q, hq, hle, hqlt, hpanic, fun a ⟨hale, _⟩ halt => hall a (by omega) halt⟩
  · rintro ⟨q, hq, hle, hqlt, hpanic, hall⟩
    refine ⟨q, hq, hle, hqlt, hpanic, fun a hale halt => ?_⟩
    rcases Nat.lt_or_ge a.toNat slice.ptr.toNat with ha | ha
    · rw [pageStartOf_below hale ha]
      exact hall slice.ptr ⟨Nat.le_refl _, by omega⟩ (by omega)
    · exact hall a ⟨ha, by omega⟩ halt

/-! ### Copying -/

/-- `n` bytes of memory from an address on. -/
def readBytes (memory : U64 → U8) (address : U64) (n : Nat) : List U8 :=
  (List.range n).map fun i => memory (address + BitVec.ofNat 64 i)

@[simp]
theorem length_readBytes (memory : U64 → U8) (address : U64) (n : Nat) : (readBytes memory address n).length = n := by
  rw [readBytes, List.length_map, List.length_range]

theorem readBytes_add (memory : U64 → U8) (address : U64) (n k : Nat) :
    readBytes memory address (n + k) =
      readBytes memory address n ++ readBytes memory (address + BitVec.ofNat 64 n) k := by
  unfold readBytes
  rw [List.range_add, List.map_append, List.map_map]
  refine congrArg _ (List.map_congr_left fun i _ => ?_)
  show memory (address + BitVec.ofNat 64 (n + i)) = _
  rw [BitVec.ofNat_add, BitVec.add_assoc]

/-- Fills a destination of the given length.  What the destination held before is not read. -/
structure UserCopyBackend where
  copyFromUser : U64 → Nat → Panics (Except UserReadError (List U8))
  length_copied : ∀ src n bytes, copyFromUser src n = .returned (.ok bytes) → bytes.length = n

def copyFromUser (view : UserMemoryView) (backend : UserCopyBackend) (slice : UserSlice) (n : Nat) :
    Panics (Except UserReadError (List U8)) :=
  if slice.len.toNat ≠ n then .returned (.error (.invalidRange .addressOverflow))
  else (validateReadableRange view slice).attempt fun _ => backend.copyFromUser slice.ptr n

section Copy

variable {view : UserMemoryView} {backend : UserCopyBackend} {slice : UserSlice}

/-- A copy into a destination of the length of the slice succeeds after the validation of the slice. -/
theorem copyFromUser_eq_ok {bytes : List U8} :
    copyFromUser view backend slice slice.len.toNat = .returned (.ok bytes) ↔
      validateReadableRange view slice = .returned (.ok ()) ∧
        backend.copyFromUser slice.ptr slice.len.toNat = .returned (.ok bytes) := by
  rw [copyFromUser, if_neg (not_not.mpr rfl), Panics.attempt_eq_ok]
  exact ⟨fun ⟨_, h⟩ => h, fun h => ⟨(), h⟩⟩

theorem copyFromUser_eq_panicked :
    copyFromUser view backend slice slice.len.toNat = .panicked ↔
      validateReadableRange view slice = .panicked ∨
        validateReadableRange view slice = .returned (.ok ()) ∧
          backend.copyFromUser slice.ptr slice.len.toNat = .panicked := by
  rw [copyFromUser, if_neg (not_not.mpr rfl), Panics.attempt_eq_panicked]
  exact or_congr_right ⟨fun ⟨_, h⟩ => h, fun h => ⟨(), h⟩⟩

end Copy

end X11Os
