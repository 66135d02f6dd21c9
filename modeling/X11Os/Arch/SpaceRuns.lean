import X11Os.Arch.AddressSpaceRoot
import X11Os.Arch.ImageWriter
import X11Os.Arch.ReferenceTables
import X11Os.Lib.Traces

/-!
# Runs over user address spaces

The kernel creates roots, asks for frames, maps and unmaps pages in any of its address spaces, writes to frames it was
given, and switches between roots, in any order.  All this happens in one memory, through page tables that are
themselves frames of it, and through a direct map that the active root has to show.

`UserSpaces` is what these calls are for: a set of address spaces, each a map from pages to frames with permissions,
and frames with contents.  Over tables that keep the contract, every run over the memory is a run of `UserSpaces` with
the same calls and the same outcomes (`space_runs_refine`), and what the processor finds with a root active is what
`UserSpaces` says.
-/

namespace X11Os

open Word Amd64 TableTree Exec MappedMemory

/-- The calls of the kernel that concern user address spaces. -/
inductive SpaceCall where
  | newUserRoot
  | allocateFrame
  | mapPage (root : U64) (page : Page4K) (frame : U64) (flags : MappingFlags)
  | unmapPage (root : U64) (page : Page4K)
  | copyIntoPage (frame : U64) (pageOffset : Nat) (bytes : List U8)
  | zeroPageRange (frame : U64) (pageOffset length : Nat)
  | activate (root : U64)

inductive SpaceOutcome where
  | root (result : Except AddressSpaceRootError U64)
  | frame (result : Option U64)
  | mapped (result : Except MappingError Unit)
  | unmapped (result : Except MappingError U64)
  | written (result : Except ImageWriteError Unit)
  | activated

/-- Memory, allocator and CR3, and the roots and frames that have been given to callers. -/
structure SpaceState where
  frames : KernelMemory
  roots : List U64
  granted : List U64

namespace SpaceState

def addRoot (s : SpaceState) (result : Except AddressSpaceRootError U64) (frames : KernelMemory) : SpaceState :=
  match result with
  | .ok root => { s with frames, roots := root :: s.roots }
  | .error _ => { s with frames }

def addFrame (s : SpaceState) (result : Option U64) (frames : KernelMemory) : SpaceState :=
  match result with
  | some frame => { s with frames, granted := frame :: s.granted }
  | none => { s with frames }

/-- A call in the kernel, with the direct map at `offset`. -/
def perform (offset : U64) (tables : U64 → OffsetPageTable KernelMemory) (s : SpaceState) :
    SpaceCall → Panics (SpaceOutcome × SpaceState)
  | .newUserRoot =>
    ((newUserRoot offset).exec s.frames).bind fun (result, frames) =>
      .returned (.root result, s.addRoot result frames)
  | .allocateFrame =>
    let (result, frames) := s.frames.allocateFrame
    .returned (.frame result, s.addFrame result frames)
  | .mapPage root page frame flags =>
    ((X86PageTableMapper.mapPage (tables root) userRange page frame flags).exec s.frames).bind
      fun (result, frames) => .returned (.mapped result, { s with frames })
  | .unmapPage root page =>
    ((X86PageTableMapper.unmapPage (tables root) userRange page).exec s.frames).bind
      fun (result, frames) => .returned (.unmapped result, { s with frames })
  | .copyIntoPage frame pageOffset bytes =>
    (((X86ImagePageWriter.writer ⟨offset⟩).copyIntoPage frame pageOffset bytes).exec s.frames).bind
      fun (result, frames) => .returned (.written result, { s with frames })
  | .zeroPageRange frame pageOffset length =>
    (((X86ImagePageWriter.writer ⟨offset⟩).zeroPageRange frame pageOffset length).exec s.frames).bind
      fun (result, frames) => .returned (.written result, { s with frames })
  | .activate root => .returned (.activated, { s with frames := { s.frames with cr3 := root } })

/-- What the callers keep to: they name roots that they were given, and write inside frames that they were given. -/
def Permitted (boot : U64) (s : SpaceState) : SpaceCall → Prop
  | .newUserRoot => True
  | .allocateFrame => True
  | .mapPage root _ _ flags => root ∈ s.roots ∧ flags.Built
  | .unmapPage root _ => root ∈ s.roots
  | .copyIntoPage frame pageOffset bytes => frame ∈ s.granted ∧ pageOffset + bytes.length ≤ 4096
  | .zeroPageRange frame pageOffset length => frame ∈ s.granted ∧ pageOffset + length ≤ 4096
  | .activate root => root = boot ∨ root ∈ s.roots

/-- A permitted call that returns. -/
def Step (offset : U64) (tables : U64 → OffsetPageTable KernelMemory) (boot : U64) (s : SpaceState)
    (label : SpaceCall × SpaceOutcome) (s' : SpaceState) : Prop :=
  s.Permitted boot label.1 ∧ s.perform offset tables label.1 = .returned (label.2, s')

/-- The state before the first call: no user root exists, no frame has been given away, and the root of the kernel is
active.  It shows the direct map whatever free frames hold, and the free frames lie in the direct map. -/
structure Booted (d : DirectMap) (s : SpaceState) : Prop where
  allocator : s.frames.allocator.Valid
  low : ∀ p ∈ s.frames.allocator.free, p < d.limit
  grounded : Grounded d s.frames
  roots : s.roots = []
  granted : s.granted = []

end SpaceState

/-! ### What the calls are for -/

/-- Address spaces, named by their roots, frames with contents, and the number of frames that are left. -/
structure UserSpaces where
  roots : List U64
  granted : List U64
  active : U64
  left : Nat
  pages : U64 → Page4K → Option (U64 × MappingFlags)
  content : U64 → Nat → U8

namespace UserSpaces

open X86PageTableMapper

def setPage (a : UserSpaces) (root : U64) (page : Page4K) (value : Option (U64 × MappingFlags)) : UserSpaces :=
  { a with pages := fun r page' => if r = root ∧ page' = page then value else a.pages r page' }

def setContent (a : UserSpaces) (frame : U64) (pageOffset : Nat) (bytes : List U8) : UserSpaces :=
  { a with content := fun f i =>
      if f = frame ∧ pageOffset ≤ i then (bytes[i - pageOffset]?).getD (a.content f i) else a.content f i }

/-- The calls on address spaces, as their callers see them.  A root and a frame take one of the frames that are left,
a page takes up to three for its tables, and only the last ones run short. -/
inductive Step (a : UserSpaces) : SpaceCall × SpaceOutcome → UserSpaces → Prop
  | root {root : U64} {left : Nat} (fresh : root ∉ a.roots) (unused : root ∉ a.granted) (cost : a.left = left + 1) :
    Step a (.newUserRoot, .root (.ok root))
      { a with roots := root :: a.roots, pages := Function.update a.pages root fun _ => none, left }
  | noRoot (exhausted : a.left = 0) : Step a (.newUserRoot, .root (.error .allocationFailed)) a
  | frame {frame : U64} {left : Nat} (bytes : Nat → U8) (fresh : frame ∉ a.granted) (unused : frame ∉ a.roots)
    (cost : a.left = left + 1) :
    Step a (.allocateFrame, .frame (some frame))
      { a with granted := frame :: a.granted, content := Function.update a.content frame bytes, left }
  | noFrame (exhausted : a.left = 0) : Step a (.allocateFrame, .frame none) a
  | map {root : U64} {page : Page4K} {frame : U64} {flags : MappingFlags} {left : Nat}
    (acceptable : Acceptable page frame flags) (unmapped : a.pages root page = none)
    (cost : left ≤ a.left ∧ a.left ≤ left + 3) :
    Step a (.mapPage root page frame flags, .mapped (.ok ())) { a.setPage root page (some (frame, flags)) with left }
  | mapTwice {root : U64} {page : Page4K} {frame : U64} {flags : MappingFlags} {left : Nat}
    (mapped : (a.pages root page).isSome) (cost : left ≤ a.left ∧ a.left ≤ left + 3) :
    Step a (.mapPage root page frame flags, .mapped (.error .alreadyMapped)) { a with left }
  | mapWithoutFrame {root : U64} {page : Page4K} {frame : U64} {flags : MappingFlags} (short : a.left < 3) :
    Step a (.mapPage root page frame flags, .mapped (.error .frameAllocationFailed)) { a with left := 0 }
  | mapRefused {root : U64} {page : Page4K} {frame : U64} {flags : MappingFlags} (error : MappingError)
    (refused : ¬ Acceptable page frame flags) : Step a (.mapPage root page frame flags, .mapped (.error error)) a
  | unmap {root : U64} {page : Page4K} {frame : U64} {flags : MappingFlags}
    (mapped : a.pages root page = some (frame, flags)) :
    Step a (.unmapPage root page, .unmapped (.ok frame)) (a.setPage root page none)
  | unmapTwice {root : U64} {page : Page4K} (unmapped : a.pages root page = none) :
    Step a (.unmapPage root page, .unmapped (.error .notMapped)) a
  | unmapRefused {root : U64} {page : Page4K} (error : MappingError) (refused : ¬ InRange page) :
    Step a (.unmapPage root page, .unmapped (.error error)) a
  | copy {frame : U64} {pageOffset : Nat} {bytes : List U8} (nonempty : bytes ≠ []) :
    Step a (.copyIntoPage frame pageOffset bytes, .written (.ok ())) (a.setContent frame pageOffset bytes)
  | copyNothing {frame : U64} {pageOffset : Nat} :
    Step a (.copyIntoPage frame pageOffset [], .written (.error .emptyRange)) a
  | zero {frame : U64} {pageOffset length : Nat} (nonempty : length ≠ 0) :
    Step a (.zeroPageRange frame pageOffset length, .written (.ok ()))
      (a.setContent frame pageOffset (List.replicate length 0))
  | zeroNothing {frame : U64} {pageOffset : Nat} :
    Step a (.zeroPageRange frame pageOffset 0, .written (.error .emptyRange)) a
  | activate {root : U64} : Step a (.activate root, .activated) { a with active := root }

/-- No address space, and no frame given away. -/
def initial (boot : U64) (left : Nat) : UserSpaces := ⟨[], [], boot, left, fun _ _ => none, fun _ _ => 0⟩

end UserSpaces

/-! ### The memory represents the address spaces -/

variable {d : DirectMap} {tables : U64 → OffsetPageTable KernelMemory} {base : KernelMemory} {s : SpaceState}
  {a : UserSpaces}

/-- The memory holds these address spaces, built since `base` in frames that were free then. -/
structure Represents (d : DirectMap) (base : KernelMemory) (a : UserSpaces) (s : SpaceState) : Prop where
  roots : a.roots = s.roots
  granted : a.granted = s.granted
  active : a.active = s.frames.cr3
  left : a.left = s.frames.left
  working : Working d base s.roots s.frames
  pages : ∀ r ∈ s.roots, mappingIn (readTable s.frames.memory) r = a.pages r
  frames : ∀ f ∈ s.granted, PrivateFrame s.roots s.frames f ∧ f.toNat ∈ base.allocator.free ∧ f.toNat < d.limit
  content : ∀ f ∈ s.granted, ∀ i < 4096, s.frames.memory (f + BitVec.ofNat 64 i) = a.content f i

private theorem within_offset {f : U64} {i : Nat} (hi : i < 4096) : Within f 4096 (f + BitVec.ofNat 64 i) := by
  rw [within_add, BitVec.toNat_ofNat]
  omega

namespace Represents

/-- An operation on the tables. -/
private theorem evolve (h : Represents d base a s) {frames : KernelMemory}
    {pages : U64 → Page4K → Option (U64 × MappingFlags)}
    (hspaces : Spaces d s.roots frames) (hevolves : Evolves s.roots s.frames frames)
    (hpages : ∀ r ∈ s.roots, mappingIn (readTable frames.memory) r = pages r) :
    Represents d base { a with pages, left := frames.left } { s with frames } := by
  have hkept : ∀ f ∈ s.granted, PrivateFrame s.roots frames f ∧
      ∀ x, Within f 4096 x → frames.memory x = s.frames.memory x :=
    fun f hf => (h.frames f hf).1.evolve h.working.spaces.trees hevolves
  refine ⟨h.roots, h.granted, h.active.trans hevolves.cr3.symm, rfl, h.working.evolve hspaces hevolves, hpages,
    fun f hf => ⟨(hkept f hf).1, (h.frames f hf).2⟩, ?_⟩
  intro f hf i hi
  rw [← h.content f hf i hi]
  exact (hkept f hf).2 _ (within_offset hi)

/-- An operation on the tables that changes no page. -/
private theorem spent (h : Represents d base a s) {frames : KernelMemory} (hspaces : Spaces d s.roots frames)
    (hevolves : Evolves s.roots s.frames frames) (hsame : SameMappings s.roots s.frames frames) :
    Represents d base { a with left := frames.left } { s with frames } :=
  h.evolve hspaces hevolves fun r hr => (hsame r hr).trans (h.pages r hr)

private theorem unchanged (h : Represents d base a s) {frames : KernelMemory} (hspaces : Spaces d s.roots frames)
    (hevolves : Evolves s.roots s.frames frames) (hsame : SameMappings s.roots s.frames frames)
    (hleft : frames.left = s.frames.left) : Represents d base a { s with frames } := by
  have hspent := h.spent hspaces hevolves hsame
  rw [hleft, ← h.left] at hspent
  exact hspent

/-- Nothing but CR3 depends on which root is active. -/
private theorem activate (h : Represents d base a s) {root : U64} (hroot : root ∈ base.cr3 :: s.roots) :
    Represents d base { a with active := root } { s with frames := { s.frames with cr3 := root } } :=
  ⟨h.roots, h.granted, rfl, h.left, h.working.activate hroot, h.pages,
    fun f hf => ⟨⟨(h.frames f hf).1.isFrame, (h.frames f hf).1.taken, (h.frames f hf).1.noTable⟩, (h.frames f hf).2⟩,
    h.content⟩

/-- A write inside a frame that was given away. -/
private theorem write (h : Represents d base a s) {f : U64} (hf : f ∈ s.granted) {memory : Memory}
    (houtside : ∀ x, ¬ Within f 4096 x → memory x = s.frames.memory x) {content : U64 → Nat → U8}
    (hinside : ∀ i < 4096, memory (f + BitVec.ofNat 64 i) = content f i)
    (hother : ∀ f', f' ≠ f → content f' = a.content f') :
    Represents d base { a with content } { s with frames := { s.frames with memory } } := by
  obtain ⟨hprivate, hwas, -⟩ := h.frames f hf
  obtain ⟨hworking, hsame, huse⟩ := h.working.write hprivate hwas houtside
  refine ⟨h.roots, h.granted, h.active, h.left, hworking, fun r hr => (hsame r hr).trans (h.pages r hr), ?_, ?_⟩
  · intro f' hf'
    obtain ⟨hprivate', hrest⟩ := h.frames f' hf'
    exact ⟨⟨hprivate'.isFrame, hprivate'.taken, fun hc => hprivate'.noTable ((huse f').mp hc)⟩, hrest⟩
  · intro f' hf' i hi
    by_cases heq : f' = f
    · subst heq
      exact hinside i hi
    · show memory _ = content f' i
      rw [hother f' heq, ← h.content f' hf' i hi]
      exact houtside _ (frames_apart (h.frames f' hf').1.isFrame hprivate.isFrame heq _ (within_offset hi))

private theorem not_mem_of_free (h : Represents d base a s) {f : U64} (hf : f.toNat ∈ s.frames.allocator.free) :
    f ∉ s.granted ∧ f ∉ s.roots :=
  ⟨fun hg => (h.frames f hg).1.taken hf, fun hr => h.working.spaces.taken f (occupied_root hr) hf⟩

/-- A new root. -/
private theorem addRoot (h : Represents d base a s) {root : U64} {frames : KernelMemory}
    (hworking : Working d base (root :: s.roots) frames) (hevolves : Evolves s.roots s.frames frames)
    (hsame : SameMappings s.roots s.frames frames) (hfree : root.toNat ∈ s.frames.allocator.free)
    (htables : ∀ c, InUse (readTable frames.memory) (root :: s.roots) c →
      c = root ∨ InUse (readTable s.frames.memory) s.roots c)
    (hempty : ∀ page, mappingIn (readTable frames.memory) root page = none) :
    Represents d base
      { a with roots := root :: a.roots, pages := Function.update a.pages root fun _ => none, left := frames.left }
      { s with frames, roots := root :: s.roots } := by
  obtain ⟨hgranted, hroots⟩ := h.not_mem_of_free hfree
  have hkept : ∀ f ∈ s.granted, PrivateFrame s.roots frames f ∧
      ∀ x, Within f 4096 x → frames.memory x = s.frames.memory x :=
    fun f hf => (h.frames f hf).1.evolve h.working.spaces.trees hevolves
  refine ⟨congrArg (root :: ·) h.roots, h.granted, h.active.trans hevolves.cr3.symm, rfl, hworking, ?_, ?_, ?_⟩
  · intro r hr
    by_cases heq : r = root
    · subst heq
      show _ = Function.update a.pages r _ r
      rw [Function.update_self]
      exact funext hempty
    · have hold := (List.mem_cons.mp hr).resolve_left heq
      show _ = Function.update a.pages root _ r
      rw [Function.update_of_ne heq, ← h.pages r hold]
      exact hsame r hold
  · intro f hf
    obtain ⟨hprivate, hrest⟩ := h.frames f hf
    refine ⟨⟨hprivate.isFrame, (hkept f hf).1.taken, fun huse => ?_⟩, hrest⟩
    rcases htables f huse with rfl | hold
    · exact hgranted hf
    · exact hprivate.noTable hold
  · intro f hf i hi
    show frames.memory _ = a.content f i
    rw [← h.content f hf i hi]
    exact (hkept f hf).2 _ (within_offset hi)

/-- A frame is given away. -/
private theorem addFrame (h : Represents d base a s) {frame : U64} {frames : KernelMemory}
    (hmemory : frames.memory = s.frames.memory)
    (hspaces : Spaces d s.roots frames) (hevolves : Evolves s.roots s.frames frames)
    (htakes : Takes d s.frames frame frames) :
    Represents d base
      { a with granted := frame :: a.granted,
               content := Function.update a.content frame fun i => s.frames.memory (frame + BitVec.ofNat 64 i),
               left := frames.left }
      { s with frames, granted := frame :: s.granted } := by
  refine ⟨h.roots, congrArg (frame :: ·) h.granted, h.active.trans hevolves.cr3.symm, rfl,
    h.working.evolve hspaces hevolves, ?_, ?_, ?_⟩
  · intro r hr
    rw [← h.pages r hr]
    exact congrArg (fun m => mappingIn (readTable m) r) hmemory
  · intro f hf
    by_cases heq : f = frame
    · subst heq
      refine ⟨⟨htakes.isFrame, htakes.gone, fun huse => ?_⟩, h.working.free htakes.wasFree, htakes.reached⟩
      rw [hmemory] at huse
      exact h.working.spaces.taken f huse htakes.wasFree
    · obtain ⟨hprivate, hrest⟩ := h.frames f ((List.mem_cons.mp hf).resolve_left heq)
      exact ⟨(hprivate.evolve h.working.spaces.trees hevolves).1, hrest⟩
  · intro f hf i hi
    rw [show frames.memory (f + BitVec.ofNat 64 i) = s.frames.memory (f + BitVec.ofNat 64 i) by rw [hmemory]]
    by_cases heq : f = frame
    · subst heq
      show _ = Function.update a.content f _ f i
      rw [Function.update_self]
    · show _ = Function.update a.content frame _ f i
      rw [Function.update_of_ne heq]
      exact h.content f ((List.mem_cons.mp hf).resolve_left heq) i hi

end Represents

/-- What a write to a frame that was given away does to the address spaces. -/
private theorem Represents.setContent (h : Represents d base a s) {f : U64} (hf : f ∈ s.granted) {pageOffset : Nat}
    {bytes : List U8} (hfit : pageOffset + bytes.length ≤ 4096) :
    Represents d base (a.setContent f pageOffset bytes)
      { s with frames :=
          { s.frames with memory := copyBytes s.frames.memory (f + BitVec.ofNat 64 pageOffset) bytes } } := by
  refine h.write hf (fun x hx => copyBytes_outside hfit hx) ?_ ?_
  · intro i hi
    have hdistance : (f + BitVec.ofNat 64 i - f).toNat = i := toNat_add_ofNat_sub hi
    rw [copyBytes_apply hfit, hdistance, h.content f hf i hi]
    by_cases hle : pageOffset ≤ i
    · rw [if_pos hle, if_pos ⟨rfl, hle⟩]
    · rw [if_neg hle, if_neg fun hand => hle hand.2]
  · intro f' hne
    funext i
    exact if_neg fun hand => hne hand.1

/-! ### One call -/

/-- The calls that panic: those that reach `VirtAddr::new` with an address of the non-canonical hole, or
`PhysAddr::new` with one of more than 52 bits. -/
def SpaceCall.Panics : SpaceCall → Prop
  | .mapPage _ page frame flags => X86PageTableMapper.MapPanics page frame flags
  | .unmapPage _ page => X86PageTableMapper.InRange page ∧ 2 ^ 47 ≤ page.startAddress.toNat
  | _ => False

/-- How a permitted call ends: it panics, or it returns and is a step of the address spaces. -/
def Represents.Serves (d : DirectMap) (tables : U64 → OffsetPageTable KernelMemory) (base : KernelMemory)
    (a : UserSpaces) (s : SpaceState) (call : SpaceCall) : Prop :=
  (call.Panics ∧ s.perform d.offset tables call = .panicked) ∨
    ∃ outcome s' a', ¬ call.Panics ∧ s.perform d.offset tables call = .returned (outcome, s') ∧
      a.Step (call, outcome) a' ∧ Represents d base a' s'

section Calls

variable (h : Represents d base a s)
include h

private theorem Represents.newUserRoot : Represents.Serves d tables base a s .newUserRoot := by
  rcases h.working.newUserRoot with ⟨frames, hfails, hworking, hevolves, hsame, hleft, hleft'⟩ |
      ⟨root, frames, hruns, htakes, hworking, hevolves, hsame, htables, hempty⟩
  · refine .inr ⟨_, _, a, id, ?_, .noRoot (h.left.trans hleft),
      h.unchanged hworking.spaces hevolves hsame (hleft'.trans hleft.symm)⟩
    rw [SpaceState.perform, hfails]
    rfl
  · obtain ⟨hgranted, hroots⟩ := h.not_mem_of_free htakes.wasFree
    rw [← h.roots] at hroots
    rw [← h.granted] at hgranted
    refine .inr ⟨_, _, _, id, ?_, .root hroots hgranted (h.left.trans htakes.cost),
      h.addRoot hworking hevolves hsame htakes.wasFree htables hempty⟩
    rw [SpaceState.perform, hruns]
    rfl

private theorem Represents.allocateFrame : Represents.Serves d tables base a s .allocateFrame := by
  obtain ⟨alloc, hspaces, hevolves, hcases⟩ := h.working.spaces.allocateFrame_cases
  rcases hcases with ⟨hnone, hleft, hleft'⟩ | ⟨frame, hsome, htakes⟩
  · refine .inr ⟨_, _, a, id, ?_, .noFrame (h.left.trans hleft),
      h.unchanged hspaces hevolves (fun _ _ => rfl) (hleft'.trans hleft.symm)⟩
    rw [SpaceState.perform, hnone]
    rfl
  · obtain ⟨hgranted, hroots⟩ := h.not_mem_of_free htakes.wasFree
    rw [← h.roots] at hroots
    rw [← h.granted] at hgranted
    refine .inr ⟨_, _, _, id, ?_, .frame _ hgranted hroots (h.left.trans htakes.cost),
      h.addFrame rfl hspaces hevolves htakes⟩
    rw [SpaceState.perform, hsome]
    rfl

variable {root frame : U64} {page : Page4K} {flags : MappingFlags}

private theorem Represents.setPage {frames : KernelMemory} {value : Option (U64 × MappingFlags)}
    (hspaces : Spaces d s.roots frames) (hevolves : Evolves s.roots s.frames frames)
    (hpages : ∀ r ∈ s.roots, ∀ page', mappingIn (readTable frames.memory) r page' =
      if r = root ∧ page' = page then value else mappingIn (readTable s.frames.memory) r page') :
    Represents d base { a.setPage root page value with left := frames.left } { s with frames } := by
  refine h.evolve hspaces hevolves fun r hr => ?_
  funext page'
  rw [hpages r hr page', h.pages r hr]
  rfl

private theorem Represents.mapPage (hcontract : TableContract d tables) (hroot : root ∈ s.roots)
    (hbuilt : flags.Built)
    (page : Page4K) (frame : U64) : Represents.Serves d tables base a s (.mapPage root page frame flags) := by
  rcases X86PageTableMapper.mapPage_spec hcontract h.working.spaces hroot (h.working.workspace hroot) page frame
    hbuilt with
    ⟨hrefused, hreturns, error, hexec⟩ | ⟨hpanics, hexec⟩ |
      ⟨hacc, hlow, result, frames, hexec, hspaces, hevolves, hspends, hcases⟩
  · refine .inr ⟨_, _, a, hreturns, ?_, .mapRefused error hrefused, h⟩
    rw [SpaceState.perform, hexec]
    rfl
  · refine .inl ⟨hpanics, ?_⟩
    rw [SpaceState.perform, hexec, Panics.bind_panicked]
  · have hreturns : ¬ X86PageTableMapper.MapPanics page frame flags := by
      intro hpanics
      have hframe := hacc.2.2.2
      rcases hpanics.2.2 with hhigh | hhigh <;> omega
    have hperform : s.perform d.offset tables (.mapPage root page frame flags) =
        .returned (.mapped result, { s with frames }) := by
      rw [SpaceState.perform, hexec]
      rfl
    have hpage := congrFun (h.pages root hroot) page
    have hcost : frames.left ≤ a.left ∧ a.left ≤ frames.left + 3 := by
      rw [h.left]
      exact ⟨hspends.less, hspends.bounded⟩
    rcases hcases with ⟨rfl, hsame, hshort, hgone⟩ | ⟨rfl, hsame, hmapped⟩ | ⟨rfl, hnone, hpages⟩
    · refine .inr ⟨_, _, _, hreturns, hperform, .mapWithoutFrame (h.left ▸ hshort), ?_⟩
      rw [← hgone]
      exact h.spent hspaces hevolves hsame
    · rw [hpage] at hmapped
      exact .inr ⟨_, _, _, hreturns, hperform, .mapTwice hmapped hcost, h.spent hspaces hevolves hsame⟩
    · rw [hpage] at hnone
      exact .inr ⟨_, _, _, hreturns, hperform, .map hacc hnone hcost, h.setPage hspaces hevolves hpages⟩

private theorem Represents.unmapPage (hcontract : TableContract d tables) (hroot : root ∈ s.roots) (page : Page4K) :
    Represents.Serves d tables base a s (.unmapPage root page) := by
  have hpage := congrFun (h.pages root hroot) page
  rcases X86PageTableMapper.unmapPage_spec hcontract h.working.spaces hroot (h.working.workspace hroot) page with
    ⟨hrefused, error, hexec⟩ | ⟨hin, hhigh, hexec⟩ | ⟨-, hlow, hnone, hexec⟩ |
      ⟨-, hlow, f, g, frames, hsome, hexec, hspaces, hevolves, hleft, hpages⟩
  · refine .inr ⟨_, _, a, fun hpanics => hrefused hpanics.1, ?_, .unmapRefused error hrefused, h⟩
    rw [SpaceState.perform, hexec]
    rfl
  · refine .inl ⟨⟨hin, hhigh⟩, ?_⟩
    rw [SpaceState.perform, hexec, Panics.bind_panicked]
  · rw [hpage] at hnone
    refine .inr ⟨_, _, a, fun hpanics => Nat.not_lt.mpr hpanics.2 hlow, ?_, .unmapTwice hnone, h⟩
    rw [SpaceState.perform, hexec]
    rfl
  · rw [hpage] at hsome
    have hset := h.setPage hspaces hevolves hpages
    rw [hleft, ← h.left] at hset
    refine .inr ⟨_, _, _, fun hpanics => Nat.not_lt.mpr hpanics.2 hlow, ?_, .unmap hsome, hset⟩
    rw [SpaceState.perform, hexec]
    rfl

variable {pageOffset length : Nat} {bytes : List U8}

private theorem Represents.copyIntoPage (hgranted : frame ∈ s.granted) (hfit : pageOffset + bytes.length ≤ 4096) :
    Represents.Serves d tables base a s (.copyIntoPage frame pageOffset bytes) := by
  obtain ⟨hprivate, hwas, hreached⟩ := h.frames frame hgranted
  by_cases hempty : bytes = []
  · subst hempty
    exact .inr ⟨_, _, a, id, rfl, .copyNothing, h⟩
  · have hruns := X86ImagePageWriter.copyIntoPage_runs hprivate.isFrame hreached
      (h.working.frame_stable hprivate hwas) hempty hfit
    refine .inr ⟨_, _, _, id, ?_, .copy hempty, h.setContent hgranted hfit⟩
    rw [SpaceState.perform, hruns]
    rfl

private theorem Represents.zeroPageRange (hgranted : frame ∈ s.granted) (hfit : pageOffset + length ≤ 4096) :
    Represents.Serves d tables base a s (.zeroPageRange frame pageOffset length) := by
  obtain ⟨hprivate, hwas, hreached⟩ := h.frames frame hgranted
  by_cases hempty : length = 0
  · subst hempty
    exact .inr ⟨_, _, a, id, rfl, .zeroNothing, h⟩
  · have hruns := X86ImagePageWriter.zeroPageRange_runs hprivate.isFrame hreached
      (h.working.frame_stable hprivate hwas) hempty hfit
    refine .inr ⟨_, _, _, id, ?_, .zero hempty, h.setContent hgranted (by rw [List.length_replicate]; exact hfit)⟩
    rw [SpaceState.perform, hruns]
    rfl

/-- Every permitted call is served. -/
private theorem Represents.serves (hcontract : TableContract d tables) {call : SpaceCall}
    (hcall : s.Permitted base.cr3 call) :
    Represents.Serves d tables base a s call := by
  cases call with
  | newUserRoot => exact h.newUserRoot
  | allocateFrame => exact h.allocateFrame
  | mapPage root page frame flags => exact h.mapPage hcontract hcall.1 hcall.2 page frame
  | unmapPage root page => exact h.unmapPage hcontract hcall page
  | copyIntoPage frame pageOffset bytes => exact h.copyIntoPage hcall.1 hcall.2
  | zeroPageRange frame pageOffset length => exact h.zeroPageRange hcall.1 hcall.2
  | activate root => exact .inr ⟨_, _, _, id, rfl, .activate, h.activate (List.mem_cons.mpr hcall)⟩

/-- Every permitted call that returns is a step of the address spaces, with its outcome. -/
theorem Represents.step (hcontract : TableContract d tables) {label : SpaceCall × SpaceOutcome} {s' : SpaceState}
    (hstep : s.Step d.offset tables base.cr3 label s') : ∃ a', a.Step label a' ∧ Represents d base a' s' := by
  obtain ⟨call, outcome⟩ := label
  obtain ⟨hpermitted, hrun⟩ := hstep
  rcases h.serves hcontract hpermitted with ⟨-, hpanics⟩ | ⟨outcome', s'', a', -, hperform, hstep, h'⟩
  · cases hpanics.symm.trans hrun
  · cases hperform.symm.trans hrun
    exact ⟨a', hstep, h'⟩

end Calls

/-! ### Runs -/

theorem SpaceState.Booted.represents (h : s.Booted d) :
    Represents d s.frames (.initial s.frames.cr3 s.frames.left) s := by
  have hworking : Working d s.frames s.roots s.frames := by
    rw [h.roots]
    exact .start h.grounded h.allocator h.low
  refine ⟨h.roots.symm, h.granted.symm, rfl, rfl, hworking, ?_, ?_, ?_⟩
  · rw [h.roots]
    exact fun r hr => absurd hr List.not_mem_nil
  · rw [h.granted]
    exact fun f hf => absurd hf List.not_mem_nil
  · rw [h.granted]
    exact fun f hf => absurd hf List.not_mem_nil

/-- What the processor finds for the addresses of the lower half, with one of the roots active: the page that the
address space has there, with its permissions, and in a frame that was given away the contents of that frame. -/
def UserSpaces.ShownIn (a : UserSpaces) (s : SpaceState) : Prop :=
  ∀ r ∈ s.roots, ∀ x : U64, x.toNat < 2 ^ 47 →
    let tables := readTable s.frames.memory
    match a.pages r (.containing x) with
    | none => PageWalk.descend tables x 4 (tables r) = none
    | some (frame, flags) => ∃ w, PageWalk.descend tables x 4 (tables r) = some w ∧ w.Gives x frame flags ∧
        (frame ∈ a.granted → s.frames.memory (w.physical x) = a.content frame (x.toNat % 4096))

private theorem Represents.shown (h : Represents d base a s) : a.ShownIn s := by
  intro r hr x hx
  have hwalk := h.working.spaces.trees.walk_eq hr x hx
  rw [h.pages r hr] at hwalk
  cases hpage : a.pages r (.containing x) with
  | none =>
    rw [hpage] at hwalk
    exact hwalk
  | some mapping =>
    rw [hpage] at hwalk
    obtain ⟨w, hsome, hgives⟩ := hwalk
    refine ⟨w, hsome, hgives, fun hgranted => ?_⟩
    rw [h.granted] at hgranted
    rw [hgives.physical]
    exact h.content _ hgranted _ (Nat.mod_lt _ (by decide))

/-- Over tables that keep the contract, every run over the memory is a run of the address spaces with the same calls
and outcomes.  At its end the processor finds the pages of the address spaces with each of the roots, all roots have
the kernel half of the first one, and every permitted call panics only on an address that is not canonical or has more
than 52 bits. -/
theorem space_runs_refine {s₀ : SpaceState} {history : List (SpaceCall × SpaceOutcome)}
    (hcontract : TableContract d tables) (hboot : s₀.Booted d)
    (hrun : Trace (SpaceState.Step d.offset tables s₀.frames.cr3) s₀ history s) :
    ∃ a, Trace UserSpaces.Step (.initial s₀.frames.cr3 s₀.frames.left) history a ∧ a.roots = s.roots ∧
      a.granted = s.granted ∧ a.active = s.frames.cr3 ∧ a.ShownIn s ∧
      (∀ r ∈ s.roots, ∀ i : Fin 512, kernelP4Start ≤ i.val →
        readTable s.frames.memory r i = readTable s₀.frames.memory s₀.frames.cr3 i) ∧
      ∀ call, s.Permitted s₀.frames.cr3 call → (s.perform d.offset tables call = .panicked ↔ call.Panics) := by
  have hstep : ∀ a s label s', Represents d s₀.frames a s →
      s.Step d.offset tables s₀.frames.cr3 label s' → ∃ a', a.Step label a' ∧ Represents d s₀.frames a' s' :=
    fun _ _ _ _ h => h.step hcontract
  obtain ⟨a, hsteps, h⟩ := Trace.simulates hstep hboot.represents hrun
  refine ⟨a, hsteps, h.roots, h.granted, h.active, h.shown,
    fun r hr => h.working.half r (List.mem_cons_of_mem _ hr), fun call hcall => ?_⟩
  rcases h.serves hcontract hcall with ⟨hpanics, hperform⟩ | ⟨_, _, _, hreturns, hperform, -⟩
  · exact iff_of_true hperform hpanics
  · exact iff_of_false (fun hpanicked => by cases hperform.symm.trans hpanicked) hreturns

/-! ### A kernel with sixteen free frames -/

/-- A direct map of one gibibyte, at the start of the upper half. -/
def DirectMap.gibibyte : DirectMap := ⟨0xffff800000000000, 2 ^ 30, by decide, by decide, by decide⟩

namespace SpaceState

/-- The root of the kernel at `0x1000`, and a table at `0x2000` that maps the first gibibyte as one page. -/
def bootMemory : Memory := write64 (write64 (fun _ => 0) 0x1800 0x2003) 0x2000 0x83

def sixteenFrames : SpaceState := ⟨⟨bootMemory, .new [⟨0x10000, 0x20000, .usable⟩], 0x1000⟩, [], []⟩

theorem free_sixteenFrames : ∀ p ∈ sixteenFrames.frames.allocator.free, 0x10000 ≤ p ∧ p < 0x20000 := by
  intro p hp
  rcases hp.2 with hcursor | ⟨r, hr, -, hcontains⟩
  · exact absurd hcursor.2 (Nat.not_lt_zero p)
  · rw [List.mem_singleton.mp hr] at hcontains
    exact hcontains

/-- The walk of the direct map goes through the two tables, which are not free. -/
private theorem shownBy_bootMemory {m : Memory} (hroot : readTable m 0x1000 256 = ⟨0x2003⟩)
    (htable : readTable m 0x2000 0 = ⟨0x83⟩) : DirectMap.gibibyte.ShownBy m 0x1000 := by
  intro p hp
  have hlimit : p.toNat < 2 ^ 30 := hp
  have hnat : (DirectMap.gibibyte.offset + p).toNat = 0xffff800000000000 + p.toNat := DirectMap.toNat_offset hp
  have hindex : PageWalk.index (DirectMap.gibibyte.offset + p) (12 + 9 * 3) = 256 := by
    refine Fin.ext ?_
    show (DirectMap.gibibyte.offset + p).toNat / 2 ^ 39 % 512 = 256
    omega
  have hindex' : PageWalk.index (DirectMap.gibibyte.offset + p) (12 + 9 * 2) = 0 := by
    refine Fin.ext ?_
    show (DirectMap.gibibyte.offset + p).toNat / 2 ^ 30 % 512 = 0
    omega
  have haddr : PageTableEntry.addr ⟨0x2003⟩ = 0x2000 := by decide
  refine ⟨⟨[⟨0x2003⟩], ⟨0x83⟩, 30⟩, ?_, ?_, ?_⟩
  · rw [kernelWalk, if_pos (DirectMap.canonical_offset hp)]
    unfold PageWalk.descend
    simp only [hindex, hroot]
    unfold PageWalk.descend
    simp only [haddr, hindex', htable]
    rfl
  · apply BitVec.eq_of_toNat_eq
    have hleaf : (PageTableEntry.addr ⟨0x83⟩).toNat = 0 := by decide
    simp only [PageWalk.physical, hleaf, BitVec.toNat_ofNat, hnat]
    omega
  · intro e he
    rcases List.mem_cons.mp he with rfl | hlast
    · decide
    · rw [List.mem_singleton.mp hlast]
      decide

theorem booted_sixteenFrames : sixteenFrames.Booted DirectMap.gibibyte := by
  have htaken : ∀ f : U64, f.toNat < 0x10000 → f.toNat ∉ sixteenFrames.frames.allocator.free := by
    intro f hf hin
    have := free_sixteenFrames _ hin
    omega
  refine ⟨EarlyFrameAllocator.valid_new (List.pairwise_singleton _ _), fun p hp => ?_,
    ⟨fun m' hm' => ?_, ?_, by decide, htaken _ (by decide)⟩, rfl, rfl⟩
  · have := free_sixteenFrames p hp
    show p < 2 ^ 30
    omega
  · have hkept : ∀ f : U64, IsFrame f → f.toNat < 0x10000 → readTable m' f = readTable bootMemory f :=
      fun f hf hlow => readTable_congr fun x hx => hm' x (not_freeByte hf (htaken f hlow) hx)
    refine shownBy_bootMemory ?_ ?_
    · rw [hkept 0x1000 ⟨by decide, by decide⟩ (by decide)]
      decide
    · rw [hkept 0x2000 ⟨by decide, by decide⟩ (by decide)]
      decide
  · exact ⟨by decide, by decide⟩

/-- A root is made, and a page of it mapped to a frame. -/
def mappedHistory (root frame : U64) : List (SpaceCall × SpaceOutcome) :=
  [(.newUserRoot, .root (.ok root)), (.allocateFrame, .frame (some frame)),
    (.mapPage root (.containing 0x400000) frame .readExecute, .mapped (.ok ()))]

/-- A permitted call that cannot panic has an outcome. -/
private theorem step_of_serves (h : Represents d base a s) (hcontract : TableContract d tables) (call : SpaceCall)
    (hcall : s.Permitted base.cr3 call) (hreturns : ¬ call.Panics) :
    ∃ outcome s' a', s.Step d.offset tables base.cr3 (call, outcome) s' ∧ a.Step (call, outcome) a' ∧
      Represents d base a' s' := by
  rcases h.serves hcontract hcall with ⟨hpanics, -⟩ | ⟨outcome, s', a', -, hperform, hstep, h'⟩
  · exact absurd hpanics hreturns
  · exact ⟨outcome, s', a', ⟨hcall, hperform⟩, hstep, h'⟩

/-- The calls of a mapped page, one after the other. -/
theorem sixteenFrames_maps : ∃ root frame s₁ s₂ s₃ a,
    sixteenFrames.Step 0xffff800000000000 referenceTables 0x1000 (.newUserRoot, .root (.ok root)) s₁ ∧
    s₁.Step 0xffff800000000000 referenceTables 0x1000 (.allocateFrame, .frame (some frame)) s₂ ∧
    s₂.Step 0xffff800000000000 referenceTables 0x1000
      (.mapPage root (.containing 0x400000) frame .readExecute, .mapped (.ok ())) s₃ ∧
    s₂.roots = [root] ∧ s₂.granted = [frame] ∧ (∀ page, mappingIn (readTable s₂.frames.memory) root page = none) ∧
    Represents .gibibyte sixteenFrames.frames a s₃ ∧ a.roots = [root] ∧
    a.pages root (.containing 0x400000) = some (frame, .readExecute) := by
  have hcontract := contract_referenceTables .gibibyte
  have hleft : sixteenFrames.frames.left = 16 := by decide
  obtain ⟨outcome₁, s₁, a₁, hstep₁, habstract₁, h₁⟩ :=
    step_of_serves booted_sixteenFrames.represents hcontract .newUserRoot trivial id
  cases habstract₁ with
  | noRoot hexhausted => exact absurd (hleft.symm.trans hexhausted) (by decide)
  | @root root left₁ _ _ hcost₁ =>
    obtain ⟨outcome₂, s₂, a₂, hstep₂, habstract₂, h₂⟩ := step_of_serves h₁ hcontract .allocateFrame trivial id
    replace hcost₁ : 16 = left₁ + 1 := hleft.symm.trans hcost₁
    cases habstract₂ with
    | noFrame hexhausted =>
      replace hexhausted : left₁ = 0 := hexhausted
      omega
    | @frame frame left₂ content _ _ hcost₂ =>
      replace hcost₂ : left₁ = left₂ + 1 := hcost₂
      have hroots : s₂.roots = [root] := h₂.roots.symm
      have hgranted : s₂.granted = [frame] := h₂.granted.symm
      have hroot : root ∈ s₂.roots := hroots ▸ List.mem_singleton_self root
      have hframe := (h₂.frames frame (hgranted ▸ List.mem_singleton_self frame)).1.isFrame
      have hempty : ∀ page, mappingIn (readTable s₂.frames.memory) root page = none := by
        intro page
        rw [h₂.pages root hroot]
        simp only [Function.update_self]
      have hacc : X86PageTableMapper.Acceptable (.containing 0x400000) frame .readExecute :=
        ⟨⟨by decide, by decide⟩, by decide, hframe⟩
      have hreturns : ¬ X86PageTableMapper.MapPanics (.containing 0x400000) frame .readExecute := by
        intro hpanics
        have hlt := hframe.2
        have hlow : (Page4K.containing 0x400000).startAddress.toNat < 2 ^ 47 := by decide
        rcases hpanics.2.2 with hhigh | hhigh <;> omega
      obtain ⟨outcome₃, s₃, a₃, hstep₃, habstract₃, h₃⟩ := step_of_serves h₂ hcontract
        (.mapPage root (.containing 0x400000) frame .readExecute) ⟨hroot, .inr (.inr (.inl rfl))⟩ hreturns
      cases habstract₃ with
      | map _ _ _ =>
        exact ⟨root, frame, s₁, s₂, s₃, _, hstep₁, hstep₂, hstep₃, hroots, hgranted, hempty, h₃, rfl,
          if_pos ⟨rfl, rfl⟩⟩
      | mapTwice hmapped _ =>
        rw [← h₂.pages root hroot, hempty] at hmapped
        cases hmapped
      | mapWithoutFrame hshort =>
        replace hshort : left₂ < 3 := hshort
        omega
      | mapRefused _ hrefused => exact absurd hacc hrefused

end SpaceState

/-- The page is found where it was mapped. -/
theorem space_runs_refine_mapped : ∃ root frame s,
    Trace (SpaceState.Step 0xffff800000000000 referenceTables 0x1000) SpaceState.sixteenFrames
      (SpaceState.mappedHistory root frame) s ∧
    ∃ a, Trace UserSpaces.Step (.initial 0x1000 16) (SpaceState.mappedHistory root frame) a ∧ a.ShownIn s := by
  obtain ⟨root, frame, s₁, s₂, s₃, -, hstep₁, hstep₂, hstep₃, -⟩ := SpaceState.sixteenFrames_maps
  have hrun : Trace (SpaceState.Step 0xffff800000000000 referenceTables 0x1000) SpaceState.sixteenFrames
      (SpaceState.mappedHistory root frame) s₃ := .snoc (.snoc (.single hstep₁) hstep₂) hstep₃
  obtain ⟨a, hsteps, -, -, -, hshown, -⟩ :=
    space_runs_refine (contract_referenceTables .gibibyte) SpaceState.booted_sixteenFrames hrun
  exact ⟨root, frame, s₃, hrun, a, hsteps, hshown⟩

end X11Os
