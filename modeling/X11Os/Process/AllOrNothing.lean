import X11Os.Lib.Hoare
import X11Os.Lib.Journal
import X11Os.Process.Loader
import X11Os.Process.PlanLayout

/-!
# All or nothing

A backend that keeps its contract is left with the mappings that it had before, whenever the construction of an
address space returns an error.  The pages that have been mapped are a journal of the additions to the mappings, and
every exit with an error undoes it, or is taken before anything is mapped.
-/

namespace X11Os

open Word Exec

variable {σ : Type}

/-- What a backend promises, in terms of the pages that it has mapped: mapping adds exactly the page, or fails and
leaves the mappings alone; unmapping a mapped page succeeds and removes exactly it.  Allocation may fail, and nothing
is said of the access that is reported. -/
structure PageTableMapper.Contract (mapper : PageTableMapper σ) where
  mappings : σ → Page4K → Option (U64 × MappingFlags)
  allocate : ∀ s, mappings (mapper.allocateFrame s).2 = mappings s
  map : ∀ page frame flags s, Ends (mapper.mapPage page frame flags) s
    (fun _ s' => mappings s page = none ∧ mappings s' = Function.update (mappings s) page (some (frame, flags)))
    (fun _ s' => mappings s' = mappings s)
  unmap : ∀ page s, (mappings s page).isSome → ∃ frame s', Runs (mapper.unmapPage page) s frame s' ∧
    mappings s' = Function.update (mappings s) page none

namespace PageTableMapper.Contract

variable {mapper : PageTableMapper σ} (contract : mapper.Contract)
  {base : Page4K → Option (U64 × MappingFlags)} {s : σ}

/-! ### Undoing -/

/-- A loop that unmaps the page of each item in turn takes back the end of the journal. -/
private theorem undo_runs {ι ε : Type} (undo : List ι → Exec σ ε Unit) (kept : List Page4K)
    {Names : ι → Page4K → Prop} (hnil : ∀ s, Runs (undo []) s () s)
    (hcons : ∀ {item rest page s frame s₁ s₂}, Names item page → Runs (mapper.unmapPage page) s frame s₁ →
      Runs (undo rest) s₁ () s₂ → Runs (undo (item :: rest)) s () s₂)
    {items : List ι} {log : List Page4K} (hnames : List.Forall₂ Names items log)
    (h : Extended base (contract.mappings s) (kept ++ log.reverse)) :
    ∃ s', Runs (undo items) s () s' ∧ Extended base (contract.mappings s') kept := by
  induction hnames generalizing s with
  | nil =>
    rw [List.reverse_nil, List.append_nil] at h
    exact ⟨s, hnil s, h⟩
  | cons hname _ ih =>
    rw [List.reverse_cons, ← List.append_assoc] at h
    obtain ⟨frame, s₁, hunmap, hs₁⟩ := contract.unmap _ s h.last
    have hpop := h.pop
    rw [← hs₁] at hpop
    obtain ⟨s₂, hrest, hs₂⟩ := ih hpop
    exact ⟨s₂, hcons hname hunmap hrest, hs₂⟩

/-- The mapped page is the one of the journal. -/
def Names (mapped : MappedPage) (page : Page4K) : Prop := mapped.virtualAddress = page.startAddress

private theorem fromStartAddress_of_names {mapped : MappedPage} {page : Page4K} (h : Names mapped page) :
    Page4K.fromStartAddress mapped.virtualAddress = some page :=
  Page4K.fromStartAddress_eq_some.mpr h.symm

private theorem rollback_runs {pages : List MappedPage} {log : List Page4K} (hnames : List.Forall₂ Names pages log)
    (h : Extended base (contract.mappings s) log) :
    ∃ s', Runs (rollback mapper pages) s () s' ∧ contract.mappings s' = base := by
  have hreverse : List.Forall₂ Names pages.reverse log.reverse := List.forall₂_reverse_iff.mpr hnames
  obtain ⟨s', hruns, hs'⟩ := contract.undo_runs (unmapAll mapper) [] (fun s => .pure)
    (fun hname hunmap hrest => .bind (.okOr (fromStartAddress_of_names hname)) (.bind (.mapErr hunmap) hrest))
      hreverse
    (by rwa [List.reverse_reverse, List.nil_append])
  exact ⟨s', hruns, hs'.eq_base⟩

/-! ### The segments -/

/-- The pages so far are the journal. -/
def Journaled (base : Page4K → Option (U64 × MappingFlags)) (pages : List MappedPage) (s : σ) : Prop :=
  ∃ log, List.Forall₂ Names pages log ∧ Extended base (contract.mappings s) log

/-- An error that has undone the journal. -/
def Undone (base : Page4K → Option (U64 × MappingFlags)) (e : LoadError) (s : σ) : Prop :=
  contract.mappings s = base ∧ e ≠ .rollbackFailed

private theorem failLoad_undone {pages : List MappedPage} (h : contract.Journaled base pages s) {α : Type}
    {Q : α → σ → Prop} {error : LoadError} (herror : error ≠ .rollbackFailed) :
    Ends (failLoad mapper pages error) s Q (contract.Undone base) := by
  obtain ⟨log, hnames, hlog⟩ := h
  obtain ⟨s', hruns, hs'⟩ := contract.rollback_runs hnames hlog
  exact .after hruns (.throw ⟨hs', herror⟩)

private theorem allocate_runs {ε : Type} : ∃ frame s', Runs (mapper.allocate : Exec σ ε (Option U64)) s frame s' ∧
    contract.mappings s' = contract.mappings s :=
  ⟨_, _, rfl, contract.allocate s⟩

private theorem Journaled.congr {pages : List MappedPage} {s' : σ} (h : contract.Journaled base pages s)
    (hs' : contract.mappings s' = contract.mappings s) : contract.Journaled base pages s' := by
  obtain ⟨log, hnames, hlog⟩ := h
  exact ⟨log, hnames, hs' ▸ hlog⟩

private theorem Journaled.push {pages : List MappedPage} {s' : σ} (h : contract.Journaled base pages s)
    {page : Page4K} {frame : U64} {flags : MappingFlags} (hfree : contract.mappings s page = none)
    (hs' : contract.mappings s' = Function.update (contract.mappings s) page (some (frame, flags))) :
    contract.Journaled base (pages ++ [⟨page.startAddress, frame⟩]) s' := by
  obtain ⟨log, hnames, hlog⟩ := h
  refine ⟨log ++ [page], List.rel_append hnames (.cons rfl .nil), ?_⟩
  rw [hs']
  exact hlog.push hfree _

private theorem mapSegment_ends {flags : MappingFlags} {stop : U64} {room : Nat} {address : U64}
    {pages : List MappedPage} (h : contract.Journaled base pages s) :
    Ends (mapSegment mapper flags stop room address pages) s (contract.Journaled base) (contract.Undone base) := by
  -- every exit of the loop rolls back the pages that are journaled at that point
  induction room generalizing address pages s with
  | zero =>
    unfold mapSegment
    split_ifs
    · exact contract.failLoad_undone h (by decide)
    · exact .pure h
  | succ room ih =>
    unfold mapSegment
    split_ifs
    · cases hpage : Page4K.fromStartAddress address with
      | none => exact contract.failLoad_undone h (by decide)
      | some page =>
        obtain rfl := Page4K.fromStartAddress_eq_some.mp hpage
        obtain ⟨frame, s₁, halloc, hs₁⟩ := contract.allocate_runs (s := s)
        refine .after halloc ?_
        replace h := h.congr contract hs₁
        cases frame with
        | none => exact contract.failLoad_undone h (by decide)
        | some frame =>
          refine .lift ((contract.map page frame flags s₁).imp (fun _ s₂ hmap => ?_) fun error s₂ hs₂ => ?_)
          · have hpush := h.push contract hmap.1 hmap.2
            cases checkedAdd page.startAddress pageSize4K with
            | none => exact contract.failLoad_undone hpush (by decide)
            | some next => exact ih hpush
          · exact contract.failLoad_undone (h.congr contract hs₂) LoadError.noConfusion
    · exact .pure h

private theorem mapSegments_ends {segments : List SegmentMapping}
    (hflags : ∀ m ∈ segments, flagsFromElf m.flags ≠ none)
    {pages : List MappedPage} (h : contract.Journaled base pages s) :
    Ends (mapSegments mapper segments pages) s (contract.Journaled base) (contract.Undone base) := by
  induction segments generalizing pages s with
  | nil => exact .pure h
  | cons segment rest ih =>
    rw [List.forall_mem_cons] at hflags
    unfold mapSegments
    refine .okOr (fun hnone => absurd hnone hflags.1) fun flags _ => .bind ?_
    exact (contract.mapSegment_ends h).imp (fun pages' s' h' => ih hflags.2 h') fun _ _ he => he

private theorem mapLoadPlan_ends {plan : LoadPlan} (hflags : ∀ m ∈ plan.segments, flagsFromElf m.flags ≠ none) :
    Ends (mapLoadPlan mapper plan) s (fun load => contract.Journaled (contract.mappings s) load.pages)
      (contract.Undone (contract.mappings s)) := by
  unfold mapLoadPlan
  refine .bind ((contract.mapSegments_ends hflags ⟨[], .nil, .refl _⟩).imp (fun pages s' h => ?_) fun _ _ he => he)
  exact .pure h

/-! ### The stack -/

/-- The journal holds the pages of the segments and then those of the stack. -/
def StackJournaled (base : Page4K → Option (U64 × MappingFlags)) (load : LoadResult) (stack : List MappedStackPage)
    (s : σ) : Prop :=
  ∃ log, List.Forall₂ Names load.pages log ∧
    Extended base (contract.mappings s) (log ++ stack.map MappedStackPage.virtualPage)

def BuildUndone (base : Page4K → Option (U64 × MappingFlags)) (e : AddressSpaceBuildError) (s : σ) : Prop :=
  contract.mappings s = base ∧ e ≠ .rollbackFailed ∧ e ≠ .image .rollbackFailed

private theorem failBuild_undone {load : LoadResult} {stack : List MappedStackPage}
    (h : contract.StackJournaled base load stack s) {α : Type} {Q : α → σ → Prop} {error : AddressSpaceBuildError}
    (herror : error ≠ .rollbackFailed ∧ error ≠ .image .rollbackFailed) :
    Ends (failBuild mapper load stack error) s Q (contract.BuildUndone base) := by
  obtain ⟨log, hnames, hlog⟩ := h
  have hstack : List.Forall₂ (fun (m : MappedStackPage) page => m.virtualPage = page) stack.reverse
      (stack.map MappedStackPage.virtualPage).reverse := by
    rw [List.forall₂_reverse_iff, List.forall₂_map_right_iff, List.forall₂_same]
    exact fun _ _ => rfl
  obtain ⟨s₁, hstackRuns, hs₁⟩ := contract.undo_runs (unmapStack mapper) log (fun s => .pure)
    (fun hname hunmap hrest => .bind (.mapErr (hname ▸ hunmap)) hrest) hstack (by rwa [List.reverse_reverse])
  obtain ⟨s₂, hloadRuns, hs₂⟩ := contract.undo_runs (unmapLoad mapper) [] (fun s => .pure)
    (fun hname hunmap hrest => .bind (.okOr (fromStartAddress_of_names hname)) (.bind (.mapErr hunmap) hrest))
    (List.forall₂_reverse_iff.mpr hnames) (by rwa [List.reverse_reverse, List.nil_append])
  exact .after hstackRuns (.after hloadRuns (.throw ⟨hs₂.eq_base, herror⟩))

private theorem mapStack_ends {load : LoadResult} {pages : List Page4K} {stack : List MappedStackPage}
    (h : contract.StackJournaled base load stack s) :
    Ends (mapStack mapper load pages stack) s (contract.StackJournaled base load) (contract.BuildUndone base) := by
  induction pages generalizing stack s with
  | nil => exact .pure h
  | cons page rest ih =>
    unfold mapStack
    obtain ⟨frame, s₁, halloc, hs₁⟩ := contract.allocate_runs (s := s)
    refine .after halloc ?_
    obtain ⟨log, hnames, hlog⟩ := h
    rw [← hs₁] at hlog
    cases frame with
    | none => exact contract.failBuild_undone ⟨log, hnames, hlog⟩ (by decide)
    | some frame =>
      refine .lift ((contract.map page frame .readWrite s₁).imp (fun _ s₂ hmap => ?_) fun error s₂ hs₂ => ?_)
      · refine ih ⟨log, hnames, ?_⟩
        rw [hmap.2, List.map_append, ← List.append_assoc]
        exact hlog.push hmap.1 _
      · exact contract.failBuild_undone ⟨log, hnames, hs₂ ▸ hlog⟩ (by decide)

end PageTableMapper.Contract

/-! ### The whole address space -/

/-- A plan has no segment that is writable and executable, so every segment has mapping flags. -/
private theorem LoadPlan.Lays.flags {image : ElfImage} {plan : LoadPlan} (h : plan.Lays image) :
    ∀ m ∈ plan.segments, flagsFromElf m.flags ≠ none := by
  intro m hm
  obtain ⟨segment, -, hplans⟩ := h.segments.exists_left hm
  have hexclusive : ¬ ((m.flags &&& 2 != 0) = true ∧ (m.flags &&& 1 != 0) = true) := hplans.exclusive
  unfold flagsFromElf
  cases hw : (m.flags &&& 2 != 0) <;> cases hx : (m.flags &&& 1 != 0) <;> simp_all

/-- Asking for the access of a page changes nothing. -/
theorem access_ends {ε : Type} {mapper : PageTableMapper σ} {address : U64} {s : σ} {E : ε → σ → Prop} :
    Ends (mapper.access address : Exec σ ε PageAccess) s (fun _ s' => s' = s) E := by
  intro r hr
  have hexec : (mapper.access address : Exec σ ε PageAccess).exec s =
      (mapper.pageAccess address s).bind fun access => .returned (.ok access, s) := by
    rw [PageTableMapper.access, exec_bind]
    show (liftM (mapper.pageAccess address s) : Exec σ ε PageAccess).exec s = _
    cases mapper.pageAccess address s <;> rfl
  rw [hexec] at hr
  cases haccess : mapper.pageAccess address s with
  | panicked => simp [haccess] at hr
  | returned access =>
    rw [haccess, Panics.bind_returned] at hr
    cases hr
    rfl

private theorem buildAddressSpace_ends {mapper : PageTableMapper σ} (contract : mapper.Contract)
    {spec : AddressSpaceSpec}
    {image : ProcessImage} (hflags : ∀ m ∈ image.loadPlan.segments, flagsFromElf m.flags ≠ none)
    (hrsp : image.stackPlan.initialRsp = userStackTop) {s : σ} :
    Ends (buildAddressSpace mapper spec image) s (fun _ _ => True) (contract.BuildUndone (contract.mappings s)) := by
  unfold buildAddressSpace
  refine .reject (fun _ => ⟨rfl, by decide⟩) fun _ => .bind (.mapErr ?_)
  refine (contract.mapLoadPlan_ends hflags).imp (fun load s₁ hload => ?_) fun e s₁ he => ?_
  · obtain ⟨log, hnames, hlog⟩ := hload
    have hload : contract.StackJournaled (contract.mappings s) load [] s₁ := ⟨log, hnames, by simpa using hlog⟩
    refine .bind ((contract.mapStack_ends hload).imp (fun stack s₂ hstack => ?_) fun _ _ he => he)
    -- from here on only the reported accesses are looked at, and every exit undoes both parts
    have hfail : ∀ error : AddressSpaceBuildError, error ≠ .rollbackFailed ∧ error ≠ .image .rollbackFailed →
        Ends (failBuild mapper load stack error) s₂ (fun (_ : BuiltAddressSpace) _ => True)
          (contract.BuildUndone (contract.mappings s)) := fun error => contract.failBuild_undone hstack
    refine .bind (access_ends.imp (fun entryAccess s₃ hs₃ => ?_) fun _ _ he => he)
    subst hs₃
    split_ifs
    · exact hfail _ (by decide)
    · exact hfail _ (by decide)
    · refine .okOr (fun hnone => ?_)
        fun top _ => .bind (access_ends.imp (fun stackAccess s₄ hs₄ => ?_) fun _ _ he => he)
      · rw [hrsp] at hnone
        exact absurd hnone (by decide)
      · subst hs₄
        split_ifs
        · exact hfail _ (by decide)
        · exact hfail _ (by decide)
        · exact hfail _ (by decide)
        · exact .pure trivial
  · refine ⟨he.1, AddressSpaceBuildError.noConfusion, fun heq => he.2 ?_⟩
    cases heq
    rfl

/-- An address space is built as a whole or not at all: on an error, the backend has the mappings that it had before,
and the error is never a failed rollback. -/
theorem build_all_or_nothing (mapper : PageTableMapper σ) (contract : mapper.Contract) (bytes : Bytes)
    (spec spec' : AddressSpaceSpec) (image : ProcessImage)
    (himage : buildProcessImage bytes spec = .returned (.ok image)) (s s' : σ) :
    (∀ e, (mapLoadPlan mapper image.loadPlan).exec s = .returned (.error e, s') →
      contract.mappings s' = contract.mappings s ∧ e ≠ .rollbackFailed) ∧
    ∀ e, (buildAddressSpace mapper spec' image).exec s = .returned (.error e, s') →
      contract.mappings s' = contract.mappings s ∧ e ≠ .rollbackFailed ∧ e ≠ .image .rollbackFailed := by
  obtain ⟨-, hstack, elf, -, hplan⟩ := buildProcessImage_eq_ok himage
  have hflags := (LoadPlan.build_lays hplan).flags
  have hrsp := (UserStackPlan.build_spec hstack).1
  exact ⟨fun e he => (contract.mapLoadPlan_ends hflags).of_error he,
    fun e he => (buildAddressSpace_ends contract hflags hrsp).of_error he⟩

/-! ### A table as backend -/

/-- A page table as a partial map, and what its frames are taken from. -/
structure MapBackend (φ : Type) where
  table : Page4K → Option (U64 × MappingFlags)
  frames : φ

namespace MapBackend

variable {φ : Type} (take : φ → Option (U64 × φ)) (access : MapBackend φ → U64 → PageAccess)

def mapper : PageTableMapper (MapBackend φ) where
  allocateFrame s :=
    match take s.frames with
    | none => (none, s)
    | some (frame, frames) => (some frame, { s with frames })
  mapPage page frame flags := do
    let s ← get
    reject ((s.table page).isSome) .alreadyMapped
    set { s with table := Function.update s.table page (some (frame, flags)) }
  unmapPage page := do
    let s ← get
    let (frame, _) ← okOr (s.table page) .notMapped
    set { s with table := Function.update s.table page none }
    return frame
  pageAccess address s := .returned (access s address)

theorem mapPage_ends (page : Page4K) (frame : U64) (flags : MappingFlags) (s : MapBackend φ) :
    Ends ((mapper take access).mapPage page frame flags) s
      (fun _ s' => s.table page = none ∧ s' = { s with table := Function.update s.table page (some (frame, flags)) })
      fun _ s' => s' = s := by
  refine .after .get (.reject (fun _ => rfl) fun hfree => ?_)
  rintro _ ⟨⟩
  exact ⟨Option.not_isSome_iff_eq_none.mp hfree, rfl⟩

def contract : (mapper take access).Contract where
  mappings := table
  allocate s := by
    show (match take s.frames with
      | none => (none, s)
      | some (frame, frames) => (some frame, ({ s with frames } : MapBackend φ))).2.table = s.table
    split <;> rfl
  map page frame flags s := by
    refine (mapPage_ends take access page frame flags s).imp (fun _ s' hs' => ⟨hs'.1, ?_⟩) fun _ s' hs' => ?_
    · rw [hs'.2]
    · rw [hs']
  unmap page s hmapped := by
    obtain ⟨⟨frame, flags⟩, hpage⟩ := Option.isSome_iff_exists.mp hmapped
    exact ⟨frame, _, .bind .get (.bind (.okOr hpage) (.bind rfl .pure)), rfl⟩

end MapBackend

/-- A table with the number of frames that are left. -/
abbrev PageMap := MapBackend Nat

def PageMap.mapper : PageTableMapper PageMap :=
  MapBackend.mapper (fun frames => if frames = 0 then none else some (BitVec.ofNat 64 (4096 * frames), frames - 1))
    fun _ _ => .unmapped

/-- How the construction of the minimal image ends on an empty table with the given number of frames. -/
def PageMap.failure (frames : Nat) : Option AddressSpaceBuildError :=
  match buildProcessImage MinimalElf.bytes MinimalElf.spec with
  | .returned (.ok image) =>
    match (buildAddressSpace PageMap.mapper MinimalElf.spec image).exec ⟨fun _ => none, frames⟩ with
    | .returned (.error e, _) => some e
    | _ => none
  | _ => none

/-- Three frames are enough for the segment and one page of the stack; nothing stays mapped. -/
theorem build_all_or_nothing_three_frames : ∃ image s',
    buildProcessImage MinimalElf.bytes MinimalElf.spec = .returned (.ok image) ∧
    (buildAddressSpace PageMap.mapper MinimalElf.spec image).exec ⟨fun _ => none, 3⟩ =
      .returned (.error .stackMappingFailed, s') ∧ s'.table = fun _ => none := by
  have hfails : PageMap.failure 3 = some .stackMappingFailed := by decide +kernel
  unfold PageMap.failure at hfails
  split at hfails
  · rename_i image himage
    split at hfails
    · rename_i e s' hexec
      obtain rfl := Option.some.inj hfails
      exact ⟨image, s', himage, hexec,
        ((build_all_or_nothing PageMap.mapper (MapBackend.contract _ _) _ _ _ image himage _ s').2 _ hexec).1⟩
    · cases hfails
  · cases hfails

end X11Os
