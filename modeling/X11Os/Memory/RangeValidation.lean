import X11Os.Memory.User

/-!
# Validation of user ranges is exact

`validate_readable_range` asks the view about the pages of the slice from the lowest on, until one of them fails.  It
accepts exactly the slices of the user range with readable pages, the lowest page that fails decides about the error,
and the view is not asked about any other page: the verdict depends on the pages of the slice only
(`validateReadableRange_exact`).
-/

namespace X11Os

open Word

/-! ### The pages of a slice -/

/-- A byte of the slice lies in the page at this address. -/
def UserSlice.HasPage (slice : UserSlice) (page : U64) : Prop := ∃ a, slice.Contains a ∧ pageStartOf a = page

/-- The slice ends in the address space and lies in the declared user range. -/
structure UserSlice.InUserSpace (slice : UserSlice) : Prop where
  ptr_ne_zero : slice.ptr ≠ 0
  no_overflow : slice.ptr.toNat + slice.len.toNat < 2 ^ 64
  start_le : userSpaceStart.toNat ≤ slice.ptr.toNat
  stop_le : slice.ptr.toNat + slice.len.toNat ≤ kernelSpaceStart.toNat

private theorem UserSlice.inUserSpace_iff {slice : UserSlice} (hlen : slice.len ≠ 0) :
    slice.InUserSpace ↔ ∃ range, validateSlice slice = .ok range := by
  rw [validateSlice_isOk_iff hlen]
  constructor
  · intro h
    exact ⟨h.start_le, h.stop_le⟩
  · rintro ⟨hstart, hstop⟩
    refine ⟨?_, by omega, hstart, hstop⟩
    intro hzero
    rw [hzero] at hstart
    exact absurd hstart (by decide)

/-- The lowest page of the slice that the view does not report as readable. -/
structure LowestFailure (view : UserMemoryView) (slice : UserSlice) (page : U64) : Prop where
  hasPage : slice.HasPage page
  not_readable : ¬ view.Readable page
  lower : ∀ other, slice.HasPage other → other < page → view.Readable other

section Accepted

variable {view : UserMemoryView} {slice : UserSlice} {range : VirtRange}

/-- The pages of the slice are the aligned addresses from its first page up to its end. -/
private theorem UserSlice.hasPage_iff {page : U64} (hlen : slice.len ≠ 0) :
    slice.HasPage page ↔ page.toNat % 4096 = 0 ∧ (pageStartOf slice.ptr).toNat ≤ page.toNat ∧
      page.toNat < slice.ptr.toNat + slice.len.toNat := by
  have hne : slice.len.toNat ≠ 0 := fun h => hlen (BitVec.eq_of_toNat_eq h)
  rw [toNat_pageStartOf]
  constructor
  · rintro ⟨a, ⟨hle, hlt⟩, rfl⟩
    rw [toNat_pageStartOf]
    omega
  · rintro ⟨halign, hle, hlt⟩
    -- the first byte of the slice in the page
    rcases Nat.le_total slice.ptr.toNat page.toNat with h | h
    · exact ⟨page, ⟨h, hlt⟩, pageStartOf_eq halign (Nat.le_refl _) (by omega)⟩
    · exact ⟨slice.ptr, ⟨Nat.le_refl _, by omega⟩, pageStartOf_eq halign h (by omega)⟩

/-- The verdict on a slice of the user range: all pages are readable, or the lowest one that is not decides. -/
private theorem validateReadableRange_cases (view : UserMemoryView) (hlen : slice.len ≠ 0) (h : slice.InUserSpace) :
    (validateReadableRange view slice = .returned (.ok ()) ∧ ∀ page, slice.HasPage page → view.Readable page) ∨
      ∃ page, Refuses view page (validateReadableRange view slice) ∧ LowestFailure view slice page := by
  obtain ⟨range, hok⟩ := (UserSlice.inUserSpace_iff hlen).mp h
  obtain ⟨-, hstop, hlo, hhi⟩ := (validateSlice_eq_ok hlen).mp hok
  have hlt := pageStart_lt_stop hlen hok
  have hpage : ∀ {q : U64}, slice.HasPage q ↔ q.toNat % 4096 = 0 ∧ (pageStartOf slice.ptr).toNat ≤ q.toNat ∧
      q.toNat < range.stop.toNat := by
    intro q
    rw [UserSlice.hasPage_iff hlen, hstop]
  have hself : ∀ {q : U64}, q.toNat % 4096 = 0 → pageStartOf q = q :=
    fun hq => pageStartOf_eq hq (Nat.le_refl _) (by omega)
  rw [validateReadableRange_of_range hlen hok]
  rcases validatePages_cases view (by rw [toNat_pageStartOf]; omega) hlt (by omega) (fuel_enough hlt) with
    ⟨hreturns, hall⟩ | ⟨q, hq, hle, hqlt, hrefuses, hall⟩
  · refine .inl ⟨hreturns, fun page hp => ?_⟩
    obtain ⟨halign, hple, hplt⟩ := hpage.mp hp
    rw [← hself halign]
    exact hall page hple hplt
  · refine .inr ⟨q, hrefuses, hpage.mpr ⟨hq, hle, hqlt⟩, hrefuses.not_readable, fun lower hlower hbelow => ?_⟩
    obtain ⟨halign, hple, -⟩ := hpage.mp hlower
    rw [← hself halign]
    exact hall lower hple hbelow

end Accepted

/-! ### The loop ends -/

/-- The page loop with a limit on its rounds, `none` if it has not ended by then. -/
def pageLoop (view : UserMemoryView) (stop : U64) : Nat → U64 → Option (Panics (Except UserReadError Unit))
  | 0, _ => none
  | fuel + 1, pageStart =>
    match Page4K.fromStartAddress pageStart with
    | none => some (.returned (.error .invalidPageAddress))
    | some page =>
      match view.pageAccess page.startAddress with
      | .panicked => some .panicked
      | .returned access =>
        match checkAccess access with
        | .error error => some (.returned (.error error))
        | .ok () =>
          match checkedAdd pageStart pageSize4K with
          | none => some (.returned (.error .pageAddressOverflow))
          | some next => if next ≥ stop then some (.returned (.ok ())) else pageLoop view stop fuel next

/-- `validate_readable_range` with a limit on the rounds of its loop. -/
def readableRangeWithin (view : UserMemoryView) (slice : UserSlice) (fuel : Nat) :
    Option (Panics (Except UserReadError Unit)) :=
  match validateSlice slice with
  | .error error => some (.returned (.error (.invalidRange error)))
  | .ok range => if range.isEmpty then
    some (.returned (.ok ())) else pageLoop view range.stop fuel (pageStartOf range.start)

/-- With enough rounds the loop ends, and what it returns then does not depend on their number. -/
private theorem pageLoop_eq (view : UserMemoryView) {stop p : U64} {fuel fuel' : Nat} (halign : p.toNat % 4096 = 0)
    (hlt : p.toNat < stop.toNat) (hstop : stop.toNat ≤ 0xffff800000000000)
    (hfuel : stop.toNat ≤ p.toNat + 4096 * fuel) (hfuel' : stop.toNat ≤ p.toNat + 4096 * fuel') :
    pageLoop view stop fuel p = some (validatePages view stop fuel' p) := by
  induction fuel generalizing p fuel' with
  | zero => omega
  | succ fuel ih =>
    cases fuel' with
    | zero => omega
    | succ fuel' =>
      obtain ⟨hpage, hadd, hnext⟩ := page_of_lt halign hlt hstop
      rw [pageLoop, validatePages, hpage, hadd]
      dsimp only
      cases view.pageAccess p with
      | panicked => rfl
      | returned access =>
        rw [Panics.bind_returned]
        cases hcheck : checkAccess access with
        | error error => simp only [hcheck]
        | ok _ =>
          simp only [hcheck]
          split_ifs with hdone
          · rfl
          · rw [ge_iff_le, BitVec.le_def] at hdone
            exact ih (by omega) (by omega) (by omega) (by omega)

/-- Whatever the view and the slice, there is a number of rounds within which the loop ends. -/
private theorem readableRangeWithin_eq (view : UserMemoryView) (slice : UserSlice) :
    ∃ rounds, ∀ fuel, rounds ≤ fuel →
    readableRangeWithin view slice fuel = some (validateReadableRange view slice) := by
  unfold readableRangeWithin validateReadableRange
  cases hok : validateSlice slice with
  | error error => exact ⟨0, fun _ _ => rfl⟩
  | ok range =>
    dsimp only
    by_cases hempty : range.isEmpty = true
    · exact ⟨0, fun _ _ => by rw [if_pos hempty, if_pos hempty]⟩
    · have hlen : slice.len ≠ 0 := by
        intro hzero
        rw [validateSlice, if_pos hzero, Except.ok.injEq] at hok
        rw [← hok] at hempty
        exact hempty (beq_self_eq_true _)
      obtain ⟨hstart, hstop, -, hhi⟩ := (validateSlice_eq_ok hlen).mp hok
      have hlt := pageStart_lt_stop hlen hok
      have henough := fuel_enough hlt
      refine ⟨pagesUpTo range.stop (pageStartOf slice.ptr), fun fuel hfuel => ?_⟩
      rw [if_neg hempty, if_neg hempty, hstart]
      refine pageLoop_eq view (by rw [toNat_pageStartOf]; omega) hlt (by omega) ?_ henough
      exact Nat.le_trans henough (Nat.add_le_add_left (Nat.mul_le_mul_left _ hfuel) _)

/-! ### The validation -/

/-- Errors about addresses of pages are not errors of a page. -/
private theorem Refuses.not_address_error {view : UserMemoryView} {page : U64} {error : UserReadError}
    (h : Refuses view page (.returned (.error error))) :
    error ≠ .invalidPageAddress ∧ error ≠ .pageAddressOverflow := by
  cases h with
  | fails _ hcheck =>
    rename_i access _
    obtain ⟨mapped, user, readable, writable, executable⟩ := access
    cases mapped <;> cases user <;> cases readable <;> cases hcheck <;> exact ⟨nofun, nofun⟩

/-- Two views that agree about a page refuse it in the same way. -/
private theorem Refuses.unique {view view' : UserMemoryView} {page : U64}
    {verdict verdict' : Panics (Except UserReadError Unit)}
    (h : Refuses view page verdict) (h' : Refuses view' page verdict')
    (heq : view'.pageAccess page = view.pageAccess page) :
    verdict = verdict' := by
  cases h with
  | panics h =>
    cases h' with
    | panics _ => rfl
    | fails h' _ =>
      rw [heq, h] at h'
      cases h'
  | fails h hcheck =>
    cases h' with
    | panics h' =>
      rw [heq, h] at h'
      cases h'
    | fails h' hcheck' =>
      rw [heq, h] at h'
      cases h'
      rw [hcheck] at hcheck'
      cases hcheck'
      rfl

private theorem readable_congr {view view' : UserMemoryView} {page : U64}
    (heq : view'.pageAccess page = view.pageAccess page) :
    view'.Readable page ↔ view.Readable page := by
  rw [UserMemoryView.Readable, UserMemoryView.Readable, heq]

private theorem LowestFailure.unique {view view' : UserMemoryView} {slice : UserSlice} {page page' : U64}
    (h : LowestFailure view slice page) (h' : LowestFailure view' slice page')
    (heq : ∀ page, slice.HasPage page → view'.pageAccess page = view.pageAccess page) : page = page' := by
  rcases BitVec.lt_trichotomy page page' with hlt | rfl | hlt
  · exact absurd ((readable_congr (heq page h.hasPage)).mp (h'.lower page h.hasPage hlt)) h.not_readable
  · rfl
  · exact absurd ((readable_congr (heq page' h'.hasPage)).mpr (h.lower page' h'.hasPage hlt)) h'.not_readable

/-- The verdict is reached after finitely many rounds; it depends on the pages of the slice only, and the lowest one
that fails decides. -/
structure ValidatesExactly (view : UserMemoryView) (slice : UserSlice) : Prop where
  terminates : ∃ rounds, ∀ fuel, rounds ≤ fuel →
    readableRangeWithin view slice fuel = some (validateReadableRange view slice)
  accepts_iff : validateReadableRange view slice = .returned (.ok ()) ↔
    slice.len = 0 ∨ slice.InUserSpace ∧ ∀ page, slice.HasPage page → view.Readable page
  lowest : slice.InUserSpace → ∀ page, LowestFailure view slice page →
    Refuses view page (validateReadableRange view slice)
  consults : ∀ view' : UserMemoryView, (∀ page, slice.HasPage page → view'.pageAccess page = view.pageAccess page) →
    validateReadableRange view' slice = validateReadableRange view slice
  no_address_error : validateReadableRange view slice ≠ .returned (.error .invalidPageAddress) ∧
    validateReadableRange view slice ≠ .returned (.error .pageAddressOverflow)

/-- An empty slice is accepted, and a slice outside the user range is refused, without a look at the view. -/
private theorem validateReadableRange_of_empty (view : UserMemoryView) {slice : UserSlice} (hlen : slice.len = 0) :
    validateReadableRange view slice = .returned (.ok ()) := by
  rw [validateReadableRange, validateSlice, if_pos hlen]
  simp [VirtRange.isEmpty]

private theorem validateReadableRange_of_outside (view : UserMemoryView) {slice : UserSlice} (hlen : slice.len ≠ 0)
    (h : ¬ slice.InUserSpace) :
    ∃ error, validateSlice slice = .error error ∧
      validateReadableRange view slice = .returned (.error (.invalidRange error)) := by
  rw [UserSlice.inUserSpace_iff hlen] at h
  cases herror : validateSlice slice with
  | error error => exact ⟨error, rfl, by rw [validateReadableRange, herror]⟩
  | ok range => exact absurd ⟨range, herror⟩ h

section Cases

variable {slice : UserSlice}

private theorem validatesExactly_of_empty (view : UserMemoryView) (hlen : slice.len = 0) :
    ValidatesExactly view slice := by
  have hok := fun view => validateReadableRange_of_empty view hlen
  have hnone : ∀ page, ¬ slice.HasPage page := by
    rintro page ⟨a, ⟨hle, hlt⟩, -⟩
    rw [hlen, show (0 : U64).toNat = 0 from rfl] at hlt
    omega
  refine ⟨readableRangeWithin_eq view slice, ?_, ?_, ?_, ?_⟩
  · exact iff_of_true (hok view) (.inl hlen)
  · intro _ page hpage
    exact absurd hpage.hasPage (hnone page)
  · intro view' _
    rw [hok view, hok view']
  · rw [hok view]
    exact ⟨nofun, nofun⟩

private theorem validatesExactly_of_outside (view : UserMemoryView) (hlen : slice.len ≠ 0)
    (hspace : ¬ slice.InUserSpace) :
    ValidatesExactly view slice := by
  obtain ⟨error, herror, hrefused⟩ := validateReadableRange_of_outside view hlen hspace
  refine ⟨readableRangeWithin_eq view slice, ?_, ?_, ?_, ?_⟩
  · rw [hrefused]
    exact iff_of_false nofun fun h => h.elim hlen fun h => hspace h.1
  · exact fun h => absurd h hspace
  · intro view' _
    obtain ⟨error', herror', hrefused'⟩ := validateReadableRange_of_outside view' hlen hspace
    rw [herror] at herror'
    cases herror'
    rw [hrefused, hrefused']
  · rw [hrefused]
    exact ⟨nofun, nofun⟩

private theorem validatesExactly_of_readable (view : UserMemoryView) (hlen : slice.len ≠ 0)
    (hspace : slice.InUserSpace) (hok : validateReadableRange view slice = .returned (.ok ()))
    (hall : ∀ page, slice.HasPage page → view.Readable page) : ValidatesExactly view slice := by
  refine ⟨readableRangeWithin_eq view slice, ?_, ?_, ?_, ?_⟩
  · exact iff_of_true hok (.inr ⟨hspace, hall⟩)
  · intro _ page hpage
    exact absurd (hall page hpage.hasPage) hpage.not_readable
  · intro view' heq
    rcases validateReadableRange_cases view' hlen hspace with ⟨hok', -⟩ | ⟨page, -, hlowest⟩
    · rw [hok, hok']
    · have hread := (readable_congr (heq page hlowest.hasPage)).mpr (hall page hlowest.hasPage)
      exact absurd hread hlowest.not_readable
  · rw [hok]
    exact ⟨nofun, nofun⟩

private theorem validatesExactly_of_failure (view : UserMemoryView) (hlen : slice.len ≠ 0)
    (hspace : slice.InUserSpace) {page : U64}
    (hrefuses : Refuses view page (validateReadableRange view slice)) (hlowest : LowestFailure view slice page) :
    ValidatesExactly view slice := by
  refine ⟨readableRangeWithin_eq view slice, ?_, ?_, ?_, ?_⟩
  · refine iff_of_false (fun hok => ?_) fun h => h.elim hlen fun h => ?_
    · rw [hok] at hrefuses
      cases hrefuses
    · exact hlowest.not_readable (h.2 page hlowest.hasPage)
  · intro _ page' hpage'
    rwa [← hlowest.unique hpage' fun _ _ => rfl]
  · intro view' heq
    rcases validateReadableRange_cases view' hlen hspace with ⟨-, hall'⟩ | ⟨page', hrefuses', hlowest'⟩
    · have hread := (readable_congr (heq page hlowest.hasPage)).mp (hall' page hlowest.hasPage)
      exact absurd hread hlowest.not_readable
    · obtain rfl := hlowest.unique hlowest' heq
      exact (hrefuses.unique hrefuses' (heq page hlowest.hasPage)).symm
  · constructor
    all_goals
      intro herror
      rw [herror] at hrefuses
    · exact hrefuses.not_address_error.1 rfl
    · exact hrefuses.not_address_error.2 rfl

end Cases

theorem validateReadableRange_exact (view : UserMemoryView) (slice : UserSlice) : ValidatesExactly view slice := by
  by_cases hlen : slice.len = 0
  · exact validatesExactly_of_empty view hlen
  · by_cases hspace : slice.InUserSpace
    · rcases validateReadableRange_cases view hlen hspace with ⟨hok, hall⟩ | ⟨page, hrefuses, hlowest⟩
      · exact validatesExactly_of_readable view hlen hspace hok hall
      · exact validatesExactly_of_failure view hlen hspace hrefuses hlowest
    · exact validatesExactly_of_outside view hlen hspace

end X11Os
