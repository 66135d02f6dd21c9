import X11Os.Lib.Lists
import X11Os.Memory.Frame

/-!
# Runs of the early frame allocator

What a sequence of requests on one allocator hands out.  A frame is free in a state when it begins in the rest of the
current region or in a usable region that is still to come; both requests draw from this set, so that no frame is
handed out twice.  The frames of a region may end after it: the map decides (`WholeTails`).
-/

namespace X11Os

open Word

@[simp] theorem toNat_frameSize : frameSize.toNat = 4096 := rfl

theorem alignUp_eq_some {address start : U64} :
    alignUp address = some start ↔ start.toNat % 4096 = 0 ∧ address.toNat ≤ start.toNat ∧
      start.toNat < address.toNat + 4096 := by
  have hmask : ∀ v : U64, (v &&& ~~~(frameSize - 1)).toNat = v.toNat / 4096 * 4096 := fun v => toNat_and_not_low v 12
  have hlow : (frameSize - 1).toNat = 4095 := rfl
  have hs := start.isLt
  unfold alignUp
  rw [Option.map_eq_some_iff]
  constructor
  · rintro ⟨v, hv, rfl⟩
    rw [checkedAdd_eq_some, hlow] at hv
    rw [hmask]
    omega
  · rintro ⟨halign, hle, hlt⟩
    refine ⟨address + (frameSize - 1), ?_, ?_⟩
    · rw [checkedAdd_eq_some, BitVec.toNat_add, hlow]
      omega
    · apply BitVec.eq_of_toNat_eq
      rw [hmask, BitVec.toNat_add, hlow]
      omega

namespace MemoryRegion

/-- The physical address `p` belongs to the region. -/
def Contains (region : MemoryRegion) (p : Nat) : Prop := region.start.toNat ≤ p ∧ p < region.stop.toNat

/-- No two entries of the map share an address. -/
def NonOverlapping (map : List MemoryRegion) : Prop := Exclusive Contains map

/-- The cursor goes to the first page boundary of a usable region. -/
theorem usableStart_eq_some {region : MemoryRegion} {start : U64} (h : region.usableStart = some start) :
    region.kind = .usable ∧ start.toNat % 4096 = 0 ∧ region.Contains start.toNat := by
  unfold usableStart PhysRange.new at h
  split_ifs at h with hkind hord
  · cases halign : alignUp region.start with
    | none => simp [halign] at h
    | some aligned =>
      simp only [halign] at h
      split_ifs at h with hend
      cases h
      obtain ⟨hmod, hle, -⟩ := alignUp_eq_some.mp halign
      rw [ge_iff_le, BitVec.not_le, BitVec.lt_def] at hend
      exact ⟨not_not.mp hkind, hmod, hle, hend⟩

end MemoryRegion

namespace EarlyFrameAllocator

open MemoryRegion

variable {α : Type} {serve : EarlyFrameAllocator → Option (EarlyFrameAllocator × Option α)}
  {granted : Option α → List Nat}

/-! ### One request -/

/-- Both requests take a number of frames in a row from the cursor, all of which begin before the end of the region,
or give up in the region where they are. -/
structure Serves (serve : EarlyFrameAllocator → Option (EarlyFrameAllocator × Option α))
    (granted : Option α → List Nat) : Prop where
  nothing : granted none = []
  done : ∀ {a a' : EarlyFrameAllocator} {grant : Option α}, serve a = some (a', grant) →
    a' = a ∧ granted grant = [] ∨
    ∃ (count : Nat) (next : U64), a' = { a with nextAddress := next } ∧
      next.toNat = a.nextAddress.toNat + 4096 * count ∧ granted grant = runFrames a.nextAddress.toNat count ∧
      ∀ i < count, a.nextAddress.toNat + 4096 * i < a.currentEnd.toNat
  goesOn : ∀ {a : EarlyFrameAllocator}, serve a = none → a.currentEnd.toNat ≤ a.nextAddress.toNat ∨
    ∃ count, a.currentEnd.toNat < a.nextAddress.toNat + 4096 * count ∧
      a.nextAddress.toNat + 4096 * count < 2 ^ 64

private theorem serveFrame_serves : Serves serveFrame fun frame => grantedFrames (frame.map .frame) where
  nothing := rfl
  done := by
    intro a a' grant h
    unfold serveFrame Frame.fromStartAddress at h
    split_ifs at h with hlt halign
    · cases hnext : checkedAdd a.nextAddress frameSize with
      | none =>
        simp only [hnext] at h
        cases h
        exact .inl ⟨rfl, rfl⟩
      | some next =>
        simp only [hnext] at h
        cases h
        rw [checkedAdd_eq_some, toNat_frameSize] at hnext
        refine .inr ⟨1, next, rfl, hnext, rfl, fun i hi => ?_⟩
        rw [BitVec.lt_def] at hlt
        omega
    · cases h
      exact .inl ⟨rfl, rfl⟩
  goesOn := by
    intro a h
    unfold serveFrame Frame.fromStartAddress at h
    split_ifs at h with hlt halign
    · cases hnext : checkedAdd a.nextAddress frameSize <;> simp [hnext] at h
    · rw [BitVec.not_lt] at hlt
      exact .inl hlt

private theorem serveContiguous_serves {frameCount bytes : Nat}
    (hbytes : Usize.checkedMul frameCount frameSize.toNat = some bytes) :
    Serves (serveContiguous frameCount (BitVec.ofNat 64 bytes)) fun run => grantedFrames (run.map .contiguous) := by
  have hnat : (BitVec.ofNat 64 bytes).toNat = 4096 * frameCount := by
    rw [Usize.checkedMul_eq_some, toNat_frameSize] at hbytes
    rw [BitVec.toNat_ofNat, ← hbytes.1, Nat.mod_eq_of_lt hbytes.2, Nat.mul_comm]
  refine ⟨rfl, fun {a a' grant} h => ?_, fun {a} h => ?_⟩
  · unfold serveContiguous at h
    split_ifs at h with hlt
    cases hstop : checkedAdd a.nextAddress (BitVec.ofNat 64 bytes) with
    | none =>
      simp only [hstop] at h
      cases h
      exact .inl ⟨rfl, rfl⟩
    | some stop =>
      simp only [hstop] at h
      split_ifs at h with hfit
      cases h
      rw [checkedAdd_eq_some, hnat] at hstop
      rw [BitVec.le_def] at hfit
      refine .inr ⟨frameCount, stop, rfl, hstop, rfl, fun i hi => ?_⟩
      omega
  · unfold serveContiguous at h
    split_ifs at h with hlt
    · cases hstop : checkedAdd a.nextAddress (BitVec.ofNat 64 bytes) with
      | none => simp [hstop] at h
      | some stop =>
        simp only [hstop] at h
        split_ifs at h with hfit
        rw [checkedAdd_eq_some, hnat] at hstop
        rw [BitVec.not_le, BitVec.lt_def] at hfit
        exact .inr ⟨frameCount, hstop ▸ hfit, hstop ▸ stop.isLt⟩
    · rw [BitVec.not_lt] at hlt
      exact .inl hlt

/-- A property of what a request leaves and hands out holds of every call once it holds of a search by a request. -/
private theorem perform_of_search {a : EarlyFrameAllocator} (Post : EarlyFrameAllocator → List Nat → Prop)
    (hnone : Post a [])
    (hsearch : ∀ {α : Type} {serve : EarlyFrameAllocator → Option (EarlyFrameAllocator × Option α)}
      {granted : Option α → List Nat}, Serves serve granted →
        Post (search serve (a.regions.length + 1) a).1 (granted (search serve (a.regions.length + 1) a).2))
    (call : Call) : Post (a.perform call).1 (grantedFrames (a.perform call).2) := by
  cases call with
  | allocateFrame => exact hsearch serveFrame_serves
  | allocateContiguous frameCount =>
    simp only [perform, allocateContiguous]
    split_ifs with hzero
    · exact hnone
    · cases hbytes : Usize.checkedMul frameCount frameSize.toNat with
      | none => exact hnone
      | some bytes => exact hsearch (serveContiguous_serves hbytes)

/-! ### No frame twice -/

/-- The frames that a state can still hand out: they begin between the cursor and the end of the current region, or in
a usable region that is left. -/
def free (a : EarlyFrameAllocator) : Set Nat :=
  { p | p % 4096 = 0 ∧ (a.nextAddress.toNat ≤ p ∧ p < a.currentEnd.toNat ∨
    ∃ r ∈ a.regions, r.kind = .usable ∧ r.Contains p) }

structure Valid (a : EarlyFrameAllocator) : Prop where
  aligned : a.nextAddress.toNat % 4096 = 0
  nonOverlapping : NonOverlapping a.regions
  apart : ∀ p, a.nextAddress.toNat ≤ p → p < a.currentEnd.toNat → ∀ r ∈ a.regions, ¬ r.Contains p

theorem valid_new {map : List MemoryRegion} (hmap : NonOverlapping map) : (new map).Valid :=
  ⟨rfl, hmap, fun p _ hp => absurd hp (Nat.not_lt_zero p)⟩

private theorem nodup_runFrames (start count : Nat) : (runFrames start count).Nodup := by
  refine List.pairwise_map.mpr (List.nodup_range.imp ?_)
  intro i j hne
  omega

theorem mem_runFrames {start count p : Nat} : p ∈ runFrames start count ↔ ∃ i < count, p = start + 4096 * i := by
  simp only [runFrames, List.mem_map, List.mem_range, eq_comm (a := p)]

/-- Moving the cursor over frames that begin in the region draws them. -/
private theorem Valid.draw_run {a : EarlyFrameAllocator} (ha : a.Valid) {count : Nat} {next : U64}
    (hnext : next.toNat = a.nextAddress.toNat + 4096 * count)
    (hin : ∀ i < count, a.nextAddress.toNat + 4096 * i < a.currentEnd.toNat) :
    Valid { a with nextAddress := next } ∧
      Supply.Draw free a { a with nextAddress := next } (runFrames a.nextAddress.toNat count) := by
  have haligned := ha.aligned
  refine ⟨⟨?_, ha.nonOverlapping, fun p hle hlt => ha.apart p ?_ hlt⟩, nodup_runFrames _ _, ?_, ?_⟩
  · show next.toNat % 4096 = 0
    omega
  · dsimp only at hle
    omega
  · intro p hp
    obtain ⟨i, hi, rfl⟩ := mem_runFrames.mp hp
    exact ⟨by omega, .inl ⟨by omega, hin i hi⟩⟩
  · rintro p ⟨hmod, hp⟩
    dsimp only at hp
    have hnot : p ∉ runFrames a.nextAddress.toNat count := by
      intro hmem
      obtain ⟨i, hi, rfl⟩ := mem_runFrames.mp hmem
      rcases hp with ⟨hle, -⟩ | ⟨r, hr, -, hcontains⟩
      · omega
      · exact ha.apart _ (by omega) (hin i hi) r hr hcontains
    refine ⟨⟨hmod, ?_⟩, hnot⟩
    rcases hp with ⟨hle, hlt⟩ | hp
    · exact .inl ⟨by omega, hlt⟩
    · exact .inr hp

/-- Taking up a region gives up the rest of the current one and the regions that are skipped. -/
private theorem Valid.select {a : EarlyFrameAllocator} (ha : a.Valid) {skipped rest : List MemoryRegion}
    {region : MemoryRegion} {start : U64} (hregions : a.regions = skipped ++ region :: rest)
    (hstart : region.usableStart = some start) :
    Valid ⟨rest, region.stop, start⟩ ∧ free ⟨rest, region.stop, start⟩ ⊆ a.free := by
  obtain ⟨hkind, haligned, hle, hlt⟩ := usableStart_eq_some hstart
  have hno := ha.nonOverlapping
  rw [hregions] at hno
  have htail := List.pairwise_cons.mp (List.pairwise_append.mp hno).2.1
  refine ⟨⟨haligned, htail.2, fun p hp hp' r hr hcontains => ?_⟩, ?_⟩
  · exact htail.1 r hr p ⟨⟨Nat.le_trans hle hp, hp'⟩, hcontains⟩
  · rintro p ⟨hmod, ⟨hp, hp'⟩ | ⟨r, hr, hp⟩⟩
    · refine ⟨hmod, .inr ⟨region, ?_, hkind, Nat.le_trans hle hp, hp'⟩⟩
      rw [hregions]
      exact List.mem_append_right _ List.mem_cons_self
    · refine ⟨hmod, .inr ⟨r, ?_, hp⟩⟩
      rw [hregions]
      exact List.mem_append_right _ (List.mem_cons_of_mem _ hr)

private theorem Valid.search {a : EarlyFrameAllocator} (ha : a.Valid) (hserve : Serves serve granted) {rounds : Nat}
    (hrounds : a.regions.length < rounds) :
    (search serve rounds a).1.Valid ∧
      Supply.Draw free a (search serve rounds a).1 (granted (search serve rounds a).2) := by
  -- the rounds before `b` have given up frames and handed out none
  refine search_induct (fun b => b.Valid ∧ free b ⊆ a.free)
    (fun done => done.1.Valid ∧ Supply.Draw free a done.1 (granted done.2)) ?_ ?_ ?_ ⟨ha, subset_rfl⟩ hrounds
  · rintro b ⟨b', grant⟩ ⟨hb, hsub⟩ hdone
    rcases hserve.done hdone with ⟨rfl, hgrant⟩ | ⟨count, next, rfl, hnext, hgrant, hin⟩
    · rw [hgrant]
      exact ⟨hb, (Supply.Draw.refl _).of_subset hsub⟩
    · rw [hgrant]
      exact ⟨(hb.draw_run hnext hin).1, (hb.draw_run hnext hin).2.of_subset hsub⟩
  · rintro b skipped region rest start ⟨hb, hsub⟩ - hregions - hstart
    exact ⟨(hb.select hregions hstart).1, (hb.select hregions hstart).2.trans hsub⟩
  · rintro b - -
    rw [hserve.nothing]
    refine ⟨⟨rfl, List.Pairwise.nil, fun _ _ _ _ hr => absurd hr List.not_mem_nil⟩, List.nodup_nil,
      fun _ hx => absurd hx List.not_mem_nil, ?_⟩
    rintro p ⟨-, ⟨-, hp⟩ | ⟨r, hr, -⟩⟩
    · exact absurd hp (Nat.not_lt_zero p)
    · exact absurd hr List.not_mem_nil

theorem perform_draws :
    Supply.Draws (fun a call => ((a.perform call).1, grantedFrames (a.perform call).2)) Valid free where
  valid _ call ha := perform_of_search (fun b _ => b.Valid) ha
    (fun hserve => (ha.search hserve (Nat.lt_succ_self _)).1) call
  draw a call ha := perform_of_search (fun b frames => Supply.Draw free a b frames) (.refl a)
    (fun hserve => (ha.search hserve (Nat.lt_succ_self _)).2) call

/-- A frame that is handed out by a fresh allocator is a page of physical memory that begins in a usable region. -/
private theorem contains_of_mem_frames {map : List MemoryRegion} (hmap : NonOverlapping map) {calls : List Call}
    {frame : Nat}
    (h : frame ∈ (new map).frames calls) : frame % 4096 = 0 ∧ ∃ r ∈ map, r.kind = .usable ∧ r.Contains frame := by
  obtain ⟨haligned, ⟨-, hlt⟩ | hregion⟩ := perform_draws.free_of_issued (valid_new hmap) h
  · exact absurd hlt (Nat.not_lt_zero frame)
  · exact ⟨haligned, hregion⟩

/-- The 4 KiB from `frame` and from `frame'` on share no byte. -/
def FramesDisjoint (frame frame' : Nat) : Prop :=
  ∀ p, ¬ (frame ≤ p ∧ p < frame + 4096 ∧ frame' ≤ p ∧ p < frame' + 4096)

/-- The frames that one allocator hands out are pairwise disjoint, and an allocator that has been rolled back to a
checkpoint answers as it would have answered at the checkpoint. -/
theorem frames_handed_out_once (map : List MemoryRegion) (hmap : NonOverlapping map) :
    (∀ calls, ((new map).frames calls).Pairwise FramesDisjoint) ∧
    ∀ (a later : EarlyFrameAllocator) (calls : List Call),
      (later.rollback a.checkpoint).results calls = a.results calls := by
  refine ⟨fun calls => ?_, fun a later calls => rfl⟩
  have hnodup : ((new map).frames calls).Nodup := perform_draws.nodup_issued (valid_new hmap) calls
  refine hnodup.imp_of_mem fun {frame frame'} hframe hframe' hne p hp => hne ?_
  have haligned := (contains_of_mem_frames hmap hframe).1
  have haligned' := (contains_of_mem_frames hmap hframe').1
  omega

/-- Two usable regions that meet inside a page: each of them gives one frame. -/
theorem frames_handed_out_once_shared_page :
    NonOverlapping [⟨0x1000, 0x1800, .usable⟩, ⟨0x1800, 0x3000, .usable⟩] ∧
    (new [⟨0x1000, 0x1800, .usable⟩, ⟨0x1800, 0x3000, .usable⟩]).frames [.allocateFrame, .allocateContiguous 1] =
      [0x1000, 0x2000] ∧
    ((new [⟨0x1000, 0x1800, .usable⟩, ⟨0x1800, 0x3000, .usable⟩]).frames
      [.allocateFrame, .allocateContiguous 1]).Pairwise FramesDisjoint := by
  have hmap : NonOverlapping [⟨0x1000, 0x1800, .usable⟩, ⟨0x1800, 0x3000, .usable⟩] := by
    refine List.pairwise_pair.mpr fun p hp => ?_
    have hstop : p < 0x1800 := hp.1.2
    have hstart : 0x1800 ≤ p := hp.2.1
    omega
  exact ⟨hmap, by decide +kernel, (frames_handed_out_once _ hmap).1 _⟩

/-! ### Frames inside usable memory -/

/-- The frame is a page of physical memory and lies in one usable region of the map. -/
def InUsable (map : List MemoryRegion) (frame : Nat) : Prop :=
  frame % 4096 = 0 ∧ ∃ r ∈ map, r.kind = .usable ∧ r.start.toNat ≤ frame ∧ frame + 4096 ≤ r.stop.toNat

/-- Every region that the allocator takes up ends on a page boundary, up to one that reaches into the last page of the
address space: the end of that page cannot be represented, so its frame is never handed out and the allocator stays in
the region. -/
def WholeTails : List MemoryRegion → Prop
  | [] => True
  | region :: rest =>
    match region.usableStart with
    | none => WholeTails rest
    | some _ => region.stop.toNat % 4096 = 0 ∧ WholeTails rest ∨ 2 ^ 64 - 4096 < region.stop.toNat

private theorem wholeTails_skip {skipped rest : List MemoryRegion} (hskip : ∀ r ∈ skipped, r.usableStart = none)
    (h : WholeTails (skipped ++ rest)) : WholeTails rest := by
  induction skipped with
  | nil => exact h
  | cons r skipped ih =>
    rw [List.forall_mem_cons] at hskip
    simp only [List.cons_append, WholeTails, hskip.1] at h
    exact ih hskip.2 h

structure Safe (map : List MemoryRegion) (a : EarlyFrameAllocator) : Prop where
  aligned : a.nextAddress.toNat % 4096 = 0
  current : a.nextAddress.toNat < a.currentEnd.toNat →
    ∃ r ∈ map, r.kind = .usable ∧ r.start.toNat ≤ a.nextAddress.toNat ∧ r.stop = a.currentEnd
  later : ∀ r ∈ a.regions, r ∈ map
  tail : a.currentEnd.toNat % 4096 = 0 ∧ WholeTails a.regions ∨
    2 ^ 64 - 4096 < a.currentEnd.toNat ∧ a.nextAddress.toNat < a.currentEnd.toNat

variable {map : List MemoryRegion}

/-- A frame that begins in the current region ends there, once the address after the frame can be represented. -/
private theorem Safe.frame_end {a : EarlyFrameAllocator} (ha : Safe map a) {i : Nat}
    (hin : a.nextAddress.toNat + 4096 * i < a.currentEnd.toNat)
    (hfit : a.nextAddress.toNat + 4096 * i + 4096 < 2 ^ 64) :
    a.nextAddress.toNat + 4096 * i + 4096 ≤ a.currentEnd.toNat := by
  have haligned := ha.aligned
  rcases ha.tail with ⟨htail, -⟩ | ⟨htop, -⟩ <;> omega

private theorem Safe.run {a : EarlyFrameAllocator} (ha : Safe map a) {count : Nat} {next : U64}
    (hnext : next.toNat = a.nextAddress.toNat + 4096 * count)
    (hin : ∀ i < count, a.nextAddress.toNat + 4096 * i < a.currentEnd.toNat) :
    Safe map { a with nextAddress := next } ∧ ∀ f ∈ runFrames a.nextAddress.toNat count, InUsable map f := by
  have hlt := next.isLt
  have haligned := ha.aligned
  refine ⟨⟨?_, fun hcur => ?_, ha.later, ?_⟩, fun f hf => ?_⟩
  · show next.toNat % 4096 = 0
    omega
  · dsimp only at hcur
    obtain ⟨r, hr, hkind, hle, hstop⟩ := ha.current (by omega)
    exact ⟨r, hr, hkind, by dsimp only; omega, hstop⟩
  · refine ha.tail.imp_right fun htop => ⟨htop.1, ?_⟩
    show next.toNat < a.currentEnd.toNat
    omega
  · obtain ⟨i, hi, rfl⟩ := mem_runFrames.mp hf
    obtain ⟨r, hr, hkind, hle, hstop⟩ := ha.current (by have := hin i hi; omega)
    refine ⟨by omega, r, hr, hkind, by omega, ?_⟩
    rw [hstop]
    exact ha.frame_end (hin i hi) (by omega)

/-- A region that reaches into the last page serves every request, if only by giving up. -/
private theorem Safe.tail_of_goesOn {a : EarlyFrameAllocator} (ha : Safe map a) (hserve : Serves serve granted)
    (hnone : serve a = none) : WholeTails a.regions := by
  have haligned := ha.aligned
  rcases ha.tail with ⟨-, htail⟩ | ⟨htop, hlt⟩
  · exact htail
  · rcases hserve.goesOn hnone with hle | ⟨count, hend, hfit⟩ <;> omega

private theorem Safe.search {a : EarlyFrameAllocator} (ha : Safe map a) (hserve : Serves serve granted) {rounds : Nat}
    (hrounds : a.regions.length < rounds) :
    Safe map (search serve rounds a).1 ∧ ∀ f ∈ granted (search serve rounds a).2, InUsable map f := by
  refine search_induct (Safe map) (fun done => Safe map done.1 ∧ ∀ f ∈ granted done.2, InUsable map f)
    ?_ ?_ ?_ ha hrounds
  · rintro b ⟨b', grant⟩ hb hdone
    rcases hserve.done hdone with ⟨rfl, hgrant⟩ | ⟨count, next, rfl, hnext, hgrant, hin⟩
    · rw [hgrant]
      exact ⟨hb, fun _ hf => absurd hf List.not_mem_nil⟩
    · rw [hgrant]
      exact hb.run hnext hin
  · intro b skipped region rest start hb hnone hregions hskip hstart
    obtain ⟨hkind, haligned, hle, hlt⟩ := usableStart_eq_some hstart
    have hmem : ∀ r ∈ region :: rest, r ∈ map := by
      intro r hr
      refine hb.later r ?_
      rw [hregions]
      exact List.mem_append_right _ hr
    -- the request has left the region before this one, so that one ends on a page boundary
    have htail := hb.tail_of_goesOn hserve hnone
    rw [hregions] at htail
    replace htail := wholeTails_skip hskip htail
    simp only [WholeTails, hstart] at htail
    exact ⟨haligned, fun _ => ⟨region, hmem region List.mem_cons_self, hkind, hle, rfl⟩,
      fun r hr => hmem r (List.mem_cons_of_mem _ hr), htail.imp_right fun htop => ⟨htop, hlt⟩⟩
  · rintro b - -
    rw [hserve.nothing]
    exact ⟨⟨rfl, fun h => absurd h (Nat.lt_irrefl 0), fun _ hr => absurd hr List.not_mem_nil, .inl ⟨rfl, trivial⟩⟩,
      fun _ hf => absurd hf List.not_mem_nil⟩

private theorem Safe.frames {a : EarlyFrameAllocator} (ha : Safe map a) (calls : List Call) :
    ∀ f ∈ a.frames calls, InUsable map f := by
  induction calls generalizing a with
  | nil => exact fun _ hf => absurd hf List.not_mem_nil
  | cons call calls ih =>
    obtain ⟨hnext, hgranted⟩ := perform_of_search
      (fun b frames => Safe map b ∧ ∀ f ∈ frames, InUsable map f)
      ⟨ha, fun _ hf => absurd hf List.not_mem_nil⟩ (fun hserve => ha.search hserve (Nat.lt_succ_self _)) call
    intro f hf
    rcases List.mem_append.mp hf with hf | hf
    · exact hgranted f hf
    · exact ih hnext f hf

/-! ### Frames that end after their region -/

/-- What is left of the map before a selection does not matter. -/
private theorem selectFrom_congr {stop next : U64} (regions regions' l : List MemoryRegion) :
    selectFrom ⟨regions, stop, next⟩ l = selectFrom ⟨regions', stop, next⟩ l := by
  induction l with
  | nil => rfl
  | cons region rest ih => rw [selectFrom, selectFrom, ih]

/-- An allocator at the end of its region asks the next one. -/
private theorem allocateFrame_of_exhausted {region : MemoryRegion} {rest : List MemoryRegion} {stop next : U64}
    (h : stop ≤ next) :
    allocateFrame ⟨region :: rest, stop, next⟩ = match region.usableStart with
      | none => allocateFrame ⟨rest, stop, next⟩
      | some start => allocateFrame ⟨rest, region.stop, start⟩ := by
  have hserve : ∀ regions, serveFrame ⟨regions, stop, next⟩ = none := fun regions => if_neg (BitVec.not_lt.mpr h)
  unfold allocateFrame
  rw [search, hserve]
  simp only [selectNextUsableRegion, selectFrom]
  cases hstart : region.usableStart with
  | some start => rfl
  | none =>
    rw [search, hserve]
    simp only [selectNextUsableRegion]
    rw [selectFrom_congr _ rest]
    rcases selectFrom_cases ⟨rest, 0, 0⟩ rest with ⟨skipped, r, rest', start, hregions, -, -, hsel⟩ | ⟨-, hsel⟩
    · rw [hsel]
      have hlength := congrArg List.length hregions
      rw [List.length_append, List.length_cons] at hlength
      -- the skipped region has cost no round
      exact search_rounds (by dsimp only [List.length_cons]; omega) (by dsimp only; omega)
    · rw [hsel]

/-- A frame that begins in the current region is handed out, once the address after it can be represented. -/
private theorem allocateFrame_of_lt {a : EarlyFrameAllocator} (haligned : a.nextAddress.toNat % 4096 = 0)
    (hlt : a.nextAddress.toNat < a.currentEnd.toNat) (hfit : a.nextAddress.toNat + 4096 < 2 ^ 64) :
    ∃ frame : Frame, frame.startAddress = a.nextAddress ∧
      a.allocateFrame = ({ a with nextAddress := a.nextAddress + frameSize }, some frame) := by
  have hmod : a.nextAddress % frameSize = 0 := by
    apply BitVec.eq_of_toNat_eq
    rw [BitVec.toNat_umod, toNat_frameSize]
    exact haligned
  have hnext : checkedAdd a.nextAddress frameSize = some (a.nextAddress + frameSize) := by
    rw [checkedAdd_eq_some, BitVec.toNat_add, toNat_frameSize, Nat.mod_eq_of_lt hfit]
  refine ⟨⟨a.nextAddress, hmod⟩, rfl, ?_⟩
  rw [allocateFrame, search, serveFrame, if_pos (BitVec.lt_def.mpr hlt), Frame.fromStartAddress, dif_pos hmod, hnext]

/-- Some number of single frames, the last of which ends after the region in which it begins. -/
def Overruns (map : List MemoryRegion) (a : EarlyFrameAllocator) : Prop :=
  ∃ n frame, frame ∈ a.frames (List.replicate n .allocateFrame) ∧
    ∃ r ∈ map, r.Contains frame ∧ r.stop.toNat < frame + 4096

private theorem frames_replicate_succ (a : EarlyFrameAllocator) (n : Nat) :
    a.frames (List.replicate (n + 1) .allocateFrame) =
      grantedFrames (a.allocateFrame.2.map .frame) ++ a.allocateFrame.1.frames (List.replicate n .allocateFrame) :=
  rfl

private theorem overruns_of_eq {a b : EarlyFrameAllocator} (h : a.allocateFrame = b.allocateFrame)
    (hb : Overruns map b) :
    Overruns map a := by
  obtain ⟨n, frame, hframe, hr⟩ := hb
  cases n with
  | zero => cases hframe
  | succ n =>
    refine ⟨n + 1, frame, ?_, hr⟩
    rw [frames_replicate_succ, h]
    exact hframe

private theorem overruns_of_next {a b : EarlyFrameAllocator} {frame : Option Frame} (h : a.allocateFrame = (b, frame))
    (hb : Overruns map b) : Overruns map a := by
  obtain ⟨n, f, hf, hr⟩ := hb
  refine ⟨n + 1, f, ?_, hr⟩
  rw [frames_replicate_succ, h]
  exact List.mem_append_right _ hf

/-- Single frames use up the current region.  If it ends inside a page, the last of them ends after it; otherwise the
allocator comes to the end of the region. -/
private theorem overruns_of_region {a : EarlyFrameAllocator} (haligned : a.nextAddress.toNat % 4096 = 0)
    (hfit : a.currentEnd.toNat ≤ 2 ^ 64 - 4096)
    (hregion : a.nextAddress.toNat < a.currentEnd.toNat →
      ∃ r ∈ map, r.start.toNat ≤ a.nextAddress.toNat ∧ r.stop = a.currentEnd)
    (htail : a.currentEnd.toNat % 4096 ≠ 0 ∧ a.nextAddress.toNat < a.currentEnd.toNat ∨
      ∀ next, a.currentEnd ≤ next → Overruns map { a with nextAddress := next }) : Overruns map a := by
  -- the induction is on the number of frames that begin in the rest of the region
  generalize hcount : (a.currentEnd.toNat + 4095 - a.nextAddress.toNat) / 4096 = count
  induction count generalizing a with
  | zero =>
    rcases htail with ⟨-, hlt⟩ | hnext
    · omega
    · exact hnext a.nextAddress (BitVec.le_def.mpr (by omega))
  | succ count ih =>
    have hlt : a.nextAddress.toNat < a.currentEnd.toNat := by omega
    obtain ⟨frame, hframe, hcall⟩ := allocateFrame_of_lt haligned hlt (by omega)
    obtain ⟨r, hr, hle, hstop⟩ := hregion hlt
    by_cases hover : a.currentEnd.toNat < a.nextAddress.toNat + 4096
    · refine ⟨1, a.nextAddress.toNat, ?_, r, hr, ⟨hle, hstop ▸ hlt⟩, hstop ▸ hover⟩
      rw [frames_replicate_succ, hcall]
      simp [grantedFrames, Grant.frames, runFrames, hframe]
    · have hnext : (a.nextAddress + frameSize).toNat = a.nextAddress.toNat + 4096 := by
        rw [BitVec.toNat_add, toNat_frameSize, Nat.mod_eq_of_lt (by omega)]
      refine overruns_of_next hcall (ih (a := { a with nextAddress := a.nextAddress + frameSize }) ?_ hfit ?_ ?_ ?_)
      · show (a.nextAddress + frameSize).toNat % 4096 = 0
        omega
      · intro _
        exact ⟨r, hr, by dsimp only; omega, hstop⟩
      · refine htail.imp_left fun h => ⟨h.1, ?_⟩
        show (a.nextAddress + frameSize).toNat < a.currentEnd.toNat
        omega
      · show (a.currentEnd.toNat + 4095 - (a.nextAddress + frameSize).toNat) / 4096 = count
        omega

private theorem overruns_of_not_wholeTails {regions : List MemoryRegion} (hmap : ∀ r ∈ regions, r ∈ map)
    (htail : ¬ WholeTails regions) {stop next : U64} (hend : stop ≤ next) : Overruns map ⟨regions, stop, next⟩ := by
  induction regions generalizing stop next with
  | nil => exact absurd trivial htail
  | cons region rest ih =>
    rw [List.forall_mem_cons] at hmap
    cases hstart : region.usableStart with
    | none =>
      simp only [WholeTails, hstart] at htail
      refine overruns_of_eq ?_ (ih hmap.2 htail hend)
      rw [allocateFrame_of_exhausted hend, hstart]
    | some start =>
      simp only [WholeTails, hstart] at htail
      rw [not_or, Nat.not_lt] at htail
      obtain ⟨-, haligned, hle, hlt⟩ := usableStart_eq_some hstart
      refine overruns_of_eq (b := ⟨rest, region.stop, start⟩) ?_ ?_
      · rw [allocateFrame_of_exhausted hend, hstart]
      · refine overruns_of_region haligned htail.2 (fun _ => ⟨region, hmap.1, hle, rfl⟩) ?_
        by_cases hmod : region.stop.toNat % 4096 = 0
        · exact .inr fun next hnext => ih hmap.2 (fun h => htail.1 ⟨hmod, h⟩) hnext
        · exact .inl ⟨hmod, hlt⟩

/-- The allocator hands out usable memory only, over every sequence of requests, exactly when the regions that it
takes up end on page boundaries. -/
theorem frames_usable_iff (map : List MemoryRegion) (hmap : NonOverlapping map) :
    (∀ calls, ∀ frame ∈ (new map).frames calls, InUsable map frame) ↔ WholeTails map := by
  constructor
  · intro h
    by_contra htail
    obtain ⟨n, frame, hframe, r, hr, hcontains, hstop⟩ :=
      overruns_of_not_wholeTails (fun _ hr => hr) htail (BitVec.le_refl 0)
    obtain ⟨-, r', hr', -, hle, hend⟩ := h _ frame hframe
    obtain rfl := Exclusive.eq_of_common hmap hr hr' hcontains ⟨hle, by omega⟩
    omega
  · intro htail calls
    have hsafe : Safe map (new map) :=
      ⟨rfl, fun h => absurd h (Nat.lt_irrefl 0), fun _ hr => hr, .inl ⟨rfl, htail⟩⟩
    exact hsafe.frames calls

/-- A usable region of half a page: its frame reaches into the region of the boot loader after it. -/
theorem frame_overruns_region :
    NonOverlapping [⟨0x1000, 0x1800, .usable⟩, ⟨0x1800, 0x2000, .bootloader⟩] ∧
    (new [⟨0x1000, 0x1800, .usable⟩, ⟨0x1800, 0x2000, .bootloader⟩]).frames [.allocateFrame] = [0x1000] ∧
    ¬ InUsable [⟨0x1000, 0x1800, .usable⟩, ⟨0x1800, 0x2000, .bootloader⟩] 0x1000 := by
  refine ⟨List.pairwise_pair.mpr fun p hp => ?_, by decide +kernel, ?_⟩
  · have hstop : p < 0x1800 := hp.1.2
    have hstart : 0x1800 ≤ p := hp.2.1
    omega
  · rintro ⟨-, r, hr, hkind, -, hend⟩
    simp only [List.mem_cons, List.not_mem_nil, or_false] at hr
    rcases hr with rfl | rfl
    · exact absurd hend (by decide)
    · cases hkind

/-- A map whose first usable region ends on a page boundary and whose second one reaches into the last page. -/
theorem frames_usable_iff_last_page :
    NonOverlapping [⟨0x800, 0x3000, .usable⟩, ⟨0xfffffffffffff000, 0xffffffffffffff00, .usable⟩] ∧
    ∀ calls,
      ∀ frame ∈ (new [⟨0x800, 0x3000, .usable⟩, ⟨0xfffffffffffff000, 0xffffffffffffff00, .usable⟩]).frames calls,
      InUsable [⟨0x800, 0x3000, .usable⟩, ⟨0xfffffffffffff000, 0xffffffffffffff00, .usable⟩] frame := by
  have hmap : NonOverlapping [⟨0x800, 0x3000, .usable⟩, ⟨0xfffffffffffff000, 0xffffffffffffff00, .usable⟩] := by
    refine List.pairwise_pair.mpr fun p hp => ?_
    have hstop : p < 0x3000 := hp.1.2
    have hstart : 0xfffffffffffff000 ≤ p := hp.2.1
    omega
  exact ⟨hmap, (frames_usable_iff _ hmap).mpr (.inl ⟨by decide, .inr (by decide)⟩)⟩

end EarlyFrameAllocator

end X11Os
