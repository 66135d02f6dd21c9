import X11Os.Arch.MapperContract

/-!
# Tables that keep the contract

An implementation of `map_to` and `unmap` on physical memory: a table on the way to a page is made from a fresh
frame, or gets the flags that the page needs, and the entry of the page is written last.  It is not the crate, whose
source is not part of the repository; it shows that `TableContract` can be met (`contract_referenceTables`), and the
sample runs use it.
-/

namespace X11Os

open Word Amd64 TableTree PageTableEntry

namespace ReferenceTables

/-! ### Entries -/

def isUnused (e : PageTableEntry) : Bool := e.raw == 0

def setFrame (frame flags : U64) : PageTableEntry := ⟨frame ||| flags⟩

def contains (e : PageTableEntry) (flags : U64) : Bool := e.raw &&& flags == flags

def insert (e : PageTableEntry) (flags : U64) : PageTableEntry := ⟨e.raw ||| flags⟩

/-- Every set of flags that the backend passes has the bit PRESENT. -/
def bits (f : PageTableFlags) : U64 :=
  1 ||| (if f.writable then 2 else 0) ||| (if f.userAccessible then 4 else 0) |||
    (if f.noExecute then 0x8000000000000000 else 0)

/-- The flags that the tables on the way get: those among PRESENT, WRITABLE and USER_ACCESSIBLE. -/
def parentBits (f : PageTableFlags) : U64 := bits f &&& 7

def writeEntry (m : Memory) (table : U64) (index : Fin 512) (e : PageTableEntry) : Memory :=
  write64 m (entryAddress table index) e.raw

def zeroTable (m : Memory) (table : U64) : Memory := fun x => if Within table 4096 x then 0 else m x

/-! ### The operations -/

/-- The table that an entry leads to; it is created if the entry is unused. -/
def createNextTable (table : U64) (index : Fin 512) (insertFlags : U64) (s : KernelMemory) :
    Except MapToError U64 × KernelMemory :=
  let entry := readTable s.memory table index
  if isUnused entry then
    match s.allocateFrame with
    | (none, s) => (.error .frameAllocationFailed, s)
    | (some frame, s) =>
      (.ok frame, { s with memory := zeroTable (writeEntry s.memory table index (setFrame frame insertFlags)) frame })
  else if contains entry insertFlags then (.ok entry.addr, s)
  else (.ok entry.addr, { s with memory := writeEntry s.memory table index (insert entry insertFlags) })

def createTables (insertFlags : U64) : List (Fin 512) → U64 → KernelMemory → Except MapToError U64 × KernelMemory
  | [], table, s => (.ok table, s)
  | index :: path, table, s =>
    match createNextTable table index insertFlags s with
    | (.error e, s) => (.error e, s)
    | (.ok next, s) => createTables insertFlags path next s

/-- The indexes of an address in the three upper tables. -/
def upperIndexes (a : VirtAddr) : List (Fin 512) := [tableIndex a 39, tableIndex a 30, tableIndex a 21]

def mapTo (root : U64) (page : VirtAddr) (frame : U64) (flags : PageTableFlags) (s : KernelMemory) :
    Except MapToError Unit × KernelMemory :=
  match createTables (parentBits flags) (upperIndexes page) root s with
  | (.error e, s) => (.error e, s)
  | (.ok table, s) =>
    if isUnused (readTable s.memory table (tableIndex page 12)) then
      (.ok (), { s with memory := writeEntry s.memory table (tableIndex page 12) (setFrame frame (bits flags)) })
    else (.error .pageAlreadyMapped, s)

def nextTable (m : Memory) : List (Fin 512) → U64 → Option U64
  | [], table => some table
  | index :: path, table =>
    if (readTable m table index).present then nextTable m path (readTable m table index).addr else none

def unmap (root : U64) (page : VirtAddr) (s : KernelMemory) : Except UnmapError U64 × KernelMemory :=
  match nextTable s.memory (upperIndexes page) root with
  | none => (.error .pageNotMapped, s)
  | some table =>
    if (readTable s.memory table (tableIndex page 12)).present then
      (.ok (readTable s.memory table (tableIndex page 12)).addr,
        { s with memory := writeEntry s.memory table (tableIndex page 12) .unused })
    else (.error .pageNotMapped, s)

/-! ### The bits of an entry -/

/-- The bits of a frame outside the address field are clear. -/
private theorem getLsbD_frame {p : U64} (hp : IsFrame p) {k : Nat} (hk : k < 12 ∨ 52 ≤ k) : p.getLsbD k = false := by
  show p.toNat.testBit k = false
  rcases hk with hk | hk
  · have hmod := Nat.testBit_mod_two_pow p.toNat 12 k
    rw [hp.1, Nat.zero_testBit] at hmod
    simpa [hk] using hmod.symm
  · apply Nat.testBit_lt_two_pow
    exact Nat.lt_of_lt_of_le hp.2 (Nat.pow_le_pow_right (by decide) hk)

section Bits

variable (f : PageTableFlags)

private theorem getLsbD_bits_address {k : Nat} (hk : 12 ≤ k ∧ k < 52) : (bits f).getLsbD k = false := by
  have hall : ∀ u w x : Bool, ∀ k : Fin 64, 12 ≤ k.val ∧ k.val < 52 → (bits ⟨u, w, x⟩).getLsbD k = false := by decide
  exact hall f.userAccessible f.writable f.noExecute ⟨k, by omega⟩ hk

private theorem getLsbD_parentBits_address {k : Nat} (hk : 12 ≤ k ∧ k < 52) : (parentBits f).getLsbD k = false := by
  rw [parentBits, BitVec.getLsbD_and, getLsbD_bits_address f hk, Bool.false_and]

private theorem bits_fields : (bits f).getLsbD 0 = true ∧ (bits f).getLsbD 1 = f.writable ∧
    (bits f).getLsbD 2 = f.userAccessible ∧ (bits f).getLsbD 7 = false ∧ (bits f).getLsbD 63 = f.noExecute := by
  obtain ⟨u, w, x⟩ := f
  revert u w x
  decide

private theorem parentBits_fields : (parentBits f).getLsbD 0 = true ∧ (parentBits f).getLsbD 1 = f.writable ∧
    (parentBits f).getLsbD 2 = f.userAccessible ∧ (parentBits f).getLsbD 7 = false ∧
    (parentBits f).getLsbD 63 = false := by
  obtain ⟨u, w, x⟩ := f
  revert u w x
  decide

end Bits

/-- The bits that the walks look at. -/
structure HasFields (e : PageTableEntry) (addr : U64) (writable userAccessible hugePage noExecute : Bool) : Prop where
  addr : e.addr = addr
  present : e.present = true
  writable : e.writable = writable
  userAccessible : e.userAccessible = userAccessible
  hugePage : e.hugePage = hugePage
  noExecute : e.noExecute = noExecute

private theorem addr_or {raw flags : U64} (hflags : ∀ k, 12 ≤ k ∧ k < 52 → flags.getLsbD k = false) :
    PageTableEntry.addr ⟨raw ||| flags⟩ = PageTableEntry.addr ⟨raw⟩ := by
  apply BitVec.eq_of_getLsbD_eq
  intro k hk
  simp only [addr, BitVec.getLsbD_and, BitVec.getLsbD_or, getLsbD_addressMask hk]
  by_cases hin : 12 ≤ k ∧ k < 52
  · rw [hflags k hin, Bool.or_false]
  · rw [decide_eq_false hin, Bool.and_false, Bool.and_false]

private theorem addr_frame {p : U64} (hp : IsFrame p) : PageTableEntry.addr ⟨p⟩ = p := by
  apply BitVec.eq_of_getLsbD_eq
  intro k hk
  simp only [addr, BitVec.getLsbD_and, getLsbD_addressMask hk]
  by_cases hin : 12 ≤ k ∧ k < 52
  · rw [decide_eq_true hin, Bool.and_true]
  · rw [decide_eq_false hin, Bool.and_false, getLsbD_frame hp (by omega)]

private theorem hasFields_or (raw : U64) {flags : U64} (hflags : ∀ k, 12 ≤ k ∧ k < 52 → flags.getLsbD k = false)
    (hpresent : flags.getLsbD 0 = true) :
    HasFields ⟨raw ||| flags⟩ (PageTableEntry.addr ⟨raw⟩) (raw.getLsbD 1 || flags.getLsbD 1)
      (raw.getLsbD 2 || flags.getLsbD 2) (raw.getLsbD 7 || flags.getLsbD 7) (raw.getLsbD 63 || flags.getLsbD 63) where
  addr := addr_or hflags
  present := by rw [present, BitVec.getLsbD_or, hpresent, Bool.or_true]
  writable := BitVec.getLsbD_or
  userAccessible := BitVec.getLsbD_or
  hugePage := BitVec.getLsbD_or
  noExecute := BitVec.getLsbD_or

section Frame

variable {p : U64} (hp : IsFrame p) (f : PageTableFlags)

include hp

private theorem setFrame_bits : HasFields (setFrame p (bits f)) p f.writable f.userAccessible false f.noExecute := by
  obtain ⟨h0, h1, h2, h7, h63⟩ := bits_fields f
  have h := hasFields_or p (fun k => getLsbD_bits_address f) h0
  simp only [addr_frame hp, getLsbD_frame hp (.inl (show 1 < 12 by decide)),
    getLsbD_frame hp (.inl (show 2 < 12 by decide)),
    getLsbD_frame hp (.inl (show 7 < 12 by decide)), getLsbD_frame hp (.inr (show 52 ≤ 63 by decide)), h1, h2, h7,
    h63, Bool.false_or] at h
  exact h

private theorem setFrame_parentBits :
    HasFields (setFrame p (parentBits f)) p f.writable f.userAccessible false false := by
  obtain ⟨h0, h1, h2, h7, h63⟩ := parentBits_fields f
  have h := hasFields_or p (fun k => getLsbD_parentBits_address f) h0
  simp only [addr_frame hp, getLsbD_frame hp (.inl (show 1 < 12 by decide)),
    getLsbD_frame hp (.inl (show 2 < 12 by decide)),
    getLsbD_frame hp (.inl (show 7 < 12 by decide)), getLsbD_frame hp (.inr (show 52 ≤ 63 by decide)), h1, h2, h7,
    h63, Bool.false_or] at h
  exact h

end Frame

private theorem insert_parentBits (e : PageTableEntry) (f : PageTableFlags) :
    HasFields (insert e (parentBits f)) e.addr (e.writable || f.writable) (e.userAccessible || f.userAccessible)
      e.hugePage e.noExecute := by
  obtain ⟨h0, h1, h2, h7, h63⟩ := parentBits_fields f
  have h := hasFields_or e.raw (fun k => getLsbD_parentBits_address f) h0
  simp only [h1, h2, h7, h63, Bool.or_false] at h
  exact h

/-- The entry gives at least the rights that the flags ask for. -/
def Grants (e : PageTableEntry) (f : PageTableFlags) : Prop :=
  e.present = true ∧ (f.writable = true → e.writable = true) ∧ (f.userAccessible = true → e.userAccessible = true)

private theorem grants_of_contains {e : PageTableEntry} {f : PageTableFlags} (h : contains e (parentBits f) = true) :
    Grants e f := by
  obtain ⟨h0, h1, h2, -, -⟩ := parentBits_fields f
  have hbit : ∀ k, (parentBits f).getLsbD k = true → e.raw.getLsbD k = true := by
    intro k hk
    have heq : (e.raw &&& (parentBits f)).getLsbD k = (parentBits f).getLsbD k := by rw [eq_of_beq h]
    rw [BitVec.getLsbD_and, hk, Bool.and_true] at heq
    exact heq
  exact ⟨hbit 0 h0, fun hw => hbit 1 (h1.trans hw), fun hu => hbit 2 (h2.trans hu)⟩

private theorem HasFields.below {e e' : PageTableEntry} {addr : U64} {huge nx : Bool} {f : PageTableFlags}
    (h : HasFields e addr f.writable f.userAccessible huge nx) (hgrants : Grants e' f) : Below e e' :=
  ⟨fun hw => hgrants.2.1 (h.writable ▸ hw), fun hu => hgrants.2.2 (h.userAccessible ▸ hu)⟩

private theorem HasFields.grants {e : PageTableEntry} {addr : U64} {huge nx : Bool} {f : PageTableFlags}
    (h : HasFields e addr f.writable f.userAccessible huge nx) : Grants e f :=
  ⟨h.present, fun hw => h.writable.trans hw, fun hu => h.userAccessible.trans hu⟩

private theorem HasFields.isLink {e : PageTableEntry} {b : U64} {w u : Bool} (h : HasFields e b w u false false) :
    e.IsLink := ⟨h.present, h.hugePage, h.noExecute⟩

private theorem isUnused_of_present {e : PageTableEntry} (h : e.present = true) : isUnused e = false := by
  apply Bool.eq_false_iff.mpr
  intro hraw
  rw [present, eq_of_beq hraw] at h
  cases h

/-! ### Writes to the tables -/

variable {d : DirectMap} {roots : List U64} {s s' : KernelMemory} {r a b : U64} {p : List (Fin 512)} {i : Fin 512}
  {e : PageTableEntry} {f : PageTableFlags}

/-- The tables after a write to an entry. -/
private theorem written (h : Spaces d roots s) (hr : r ∈ roots) (ha : tableAt (readTable s.memory) r p = some a)
    (c : U64) (j : Fin 512) (hc : IsFrame c) :
    readTable (writeEntry s.memory a i e) c j = if c = a ∧ j = i then e else readTable s.memory c j :=
  readTable_of_write (h.trees.isFrame hr ha) hc (fun _ hx => write64_of_not_within hx)
    (congrArg PageTableEntry.mk (read64_write64 _ _ _))

/-- An entry of a table, and of a root only one of the user half, is a place to work in. -/
private theorem workspace_of_entry (h : Spaces d roots s) (hr : r ∈ roots)
    (ha : tableAt (readTable s.memory) r p = some a) (hi : p = [] → i.val < kernelP4Start) {x : U64}
    (hx : Within (entryAddress a i) 8 x) : Workspace roots s x := by
  refine .inr ⟨a, ⟨r, hr, p, ha⟩, within_frame_of_entry hx, fun hroot => ?_⟩
  obtain ⟨-, hnil⟩ := h.trees.forest a hroot r hr [] p a rfl ha
  have hlow : i.val < 256 := hi hnil.symm
  refine within_of_offset ?_ hx
  rw [BitVec.toNat_ofNat]
  omega

/-- An entry of a tree is replaced. -/
private theorem replace (h : Spaces d roots s) (hr : r ∈ roots)
    (hw : UserTrees.Replaces (readTable s.memory) (readTable (writeEntry s.memory a i e)) r p a i e) :
    Spaces d roots { s with memory := writeEntry s.memory a i e } ∧
      Evolves roots s { s with memory := writeEntry s.memory a i e } := by
  have hnode : ∀ r' ∈ roots, ∀ q, tableAt (readTable (writeEntry s.memory a i e)) r' q =
      tableAt (readTable s.memory) r' q := fun r' hr' q => h.trees.tableAt_replaces hr hw hr' q
  have hused : ∀ c, InUse (readTable (writeEntry s.memory a i e)) roots c ↔ InUse (readTable s.memory) roots c :=
    fun c => Occupied.congr hnode
  refine ⟨⟨h.allocator, h.low, h.trees.write hr hw, fun c hc => h.reached c ((hused c).mp hc),
    fun c hc => h.taken c ((hused c).mp hc)⟩, subset_rfl, fun r' hr' q c hc => (hnode r' hr' q).trans hc,
    fun c hc => .inl ((hused c).mp hc), fun x hx => ?_, rfl⟩
  exact write64_of_not_within fun hin => hx (workspace_of_entry h hr hw.place hw.user hin)

/-- A free frame becomes a table of a tree. -/
private theorem link (h : Spaces d roots s) (hr : r ∈ roots) {alloc : EarlyFrameAllocator}
    (hafter : Spaces d roots { s with allocator := alloc }) (hfree : alloc.free ⊆ s.allocator.free)
    (htakes : Takes d s b { s with allocator := alloc })
    (hl : UserTrees.Links (readTable s.memory) (readTable (zeroTable (writeEntry s.memory a i e) b)) roots r p a i
      e b) :
    Spaces d roots { s with memory := zeroTable (writeEntry s.memory a i e) b, allocator := alloc } ∧
      Evolves roots s { s with memory := zeroTable (writeEntry s.memory a i e) b, allocator := alloc } := by
  have hgrows := hl.grows h.trees hr
  have hused : ∀ c, InUse (readTable (zeroTable (writeEntry s.memory a i e) b)) roots c ↔
      c = b ∨ InUse (readTable s.memory) roots c := fun c => h.trees.forest.occupied_grow hgrows
  refine ⟨⟨hafter.allocator, hafter.low, h.trees.grow hr hl, ?_, ?_⟩, hfree,
    fun r' hr' q c hc => h.trees.forest.node_of_grows hgrows hr' hc, ?_, ?_, rfl⟩
  · intro c hc
    rcases (hused c).mp hc with rfl | hc
    · exact htakes.reached
    · exact h.reached c hc
  · intro c hc
    rcases (hused c).mp hc with rfl | hc
    · exact htakes.gone
    · exact hafter.taken c hc
  · intro c hc
    rcases (hused c).mp hc with rfl | hc
    · exact .inr htakes.wasFree
    · exact .inl hc
  · intro x hx
    have hzero : ¬ Within b 4096 x := fun hin => hx (.inl ⟨b, hl.frame, htakes.wasFree, hin⟩)
    have hentry : ¬ Within (entryAddress a i) 8 x := fun hin => hx (workspace_of_entry h hr hl.place hl.user hin)
    show zeroTable (writeEntry s.memory a i e) b x = s.memory x
    rw [zeroTable, if_neg hzero]
    exact write64_of_not_within hentry

/-! ### Tables on the way -/

/-- The entry that leads to the table at `p` gives the rights of the flags. -/
def Prepared (s : KernelMemory) (r : U64) (p : List (Fin 512)) (f : PageTableFlags) : Prop :=
  ∀ q j c, p = q ++ [j] → tableAt (readTable s.memory) r q = some c → Grants (readTable s.memory c j) f

private theorem tableAt_link {T : U64 → PageTable} (hplace : tableAt T r p = some a) (hp : p.length < 3)
    (hi : p = [] → i.val < kernelP4Start) (hlink : (T a i).IsLink) : tableAt T r (p ++ [i]) = some (T a i).addr := by
  refine node_concat_eq_some.mpr ⟨a, hplace, ?_⟩
  rw [show 3 - p.length = 2 - p.length + 1 by omega, follow, pageLink_of_isLink hlink]
  intro htop
  apply hi
  apply List.eq_nil_of_length_eq_zero
  omega

/-- The way to a page goes on to the table `b`, which is ready for a page with the flags. -/
structure Found (d : DirectMap) (roots : List U64) (r : U64) (p : List (Fin 512)) (f : PageTableFlags)
    (s s' : KernelMemory) (b : U64) : Prop where
  spaces : Spaces d roots s'
  evolves : Evolves roots s s'
  same : SameMappings roots s s'
  place : tableAt (readTable s'.memory) r p = some b
  prepared : Prepared s' r p f

private theorem found_of_entry (hspaces : Spaces d roots s') (hevolves : Evolves roots s s')
    (hsame : SameMappings roots s s') (hr : r ∈ roots) (ha : tableAt (readTable s.memory) r p = some a)
    (hp : p.length < 3) (hi : p = [] → i.val < kernelP4Start) (hentry : readTable s'.memory a i = e)
    (hlink : e.IsLink) (hgrants : Grants e f) : Found d roots r (p ++ [i]) f s s' e.addr := by
  subst hentry
  have hplace := hevolves.stay r hr p a ha
  refine ⟨hspaces, hevolves, hsame, tableAt_link hplace hp hi hlink, ?_⟩
  intro q j c hpath hc
  obtain ⟨rfl, hij⟩ := List.append_inj' hpath rfl
  obtain rfl := List.head_eq_of_cons_eq hij
  rw [hplace] at hc
  cases hc
  exact hgrants

section NextTable

variable (h : Spaces d roots s) (hr : r ∈ roots) (ha : tableAt (readTable s.memory) r p = some a)
  (hp : p.length < 3) (hi : p = [] → i.val < kernelP4Start) (hprepared : Prepared s r p f)

include h hr ha hp hi hprepared

private theorem found_new (hunused : readTable s.memory a i = .unused) {alloc : EarlyFrameAllocator}
    (hafter : Spaces d roots { s with allocator := alloc }) (hfree : alloc.free ⊆ s.allocator.free)
    (htakes : Takes d s b { s with allocator := alloc }) :
    Found d roots r (p ++ [i]) f s
      { s with memory := zeroTable (writeEntry s.memory a i (setFrame b (parentBits f))) b, allocator := alloc }
      b := by
  have hfields := setFrame_parentBits htakes.isFrame f
  have hfresh : ¬ InUse (readTable s.memory) roots b := fun hin => h.taken _ hin htakes.wasFree
  have hl : UserTrees.Links (readTable s.memory)
      (readTable (zeroTable (writeEntry s.memory a i (setFrame b (parentBits f))) b)) roots r p a i
      (setFrame b (parentBits f)) b := by
    refine ⟨ha, hp, hi, hunused, htakes.isFrame, hfresh, ?_, hfields.isLink, hfields.addr, ?_⟩
    · intro c j hc
      rw [← written h hr ha c j hc]
      exact readTable_of_clear htakes.isFrame hc (fun x hx => if_neg hx) fun x hx => if_pos hx
    · intro q j c hpath hc
      exact hfields.below (hprepared q j c hpath hc)
  obtain ⟨hspaces, hevolves⟩ := link h hr hafter hfree htakes hl
  have hne : a ≠ b := fun heq => hfresh (heq ▸ ⟨r, hr, p, ha⟩)
  have hentry := hl.written a i (h.trees.isFrame hr ha)
  rw [if_neg hne, if_pos ⟨rfl, rfl⟩] at hentry
  have hfound := found_of_entry hspaces hevolves (fun r' hr' => h.trees.mappingIn_links hr hl hr') hr ha hp hi hentry
    hfields.isLink hfields.grants
  rwa [hfields.addr] at hfound

private theorem found_inserted (hlink : (readTable s.memory a i).IsLink) :
    Found d roots r (p ++ [i]) f s
      { s with memory := writeEntry s.memory a i (insert (readTable s.memory a i) (parentBits f)) }
      (readTable s.memory a i).addr := by
  have hfields := insert_parentBits (readTable s.memory a i) f
  have hframe := h.trees.isFrame hr ha
  rw [← hfields.addr]
  generalize hnew : insert (readTable s.memory a i) (parentBits f) = new at *
  have hlink' : new.IsLink :=
    ⟨hfields.present, hfields.hugePage.trans hlink.small, hfields.noExecute.trans hlink.executable⟩
  have hmore : Below (readTable s.memory a i) new := by
    constructor
    · intro hwrite
      rw [hfields.writable, hwrite, Bool.true_or]
    · intro huser
      rw [hfields.userAccessible, huser, Bool.true_or]
  have hlevel : 2 - p.length = 2 → i.val < kernelP4Start := by
    intro htop
    apply hi
    apply List.eq_nil_of_length_eq_zero
    omega
  have hw : UserTrees.Replaces (readTable s.memory) (readTable (writeEntry s.memory a i new)) r p a i new := by
    refine ⟨ha, hi, written h hr ha, ?_, ⟨fun _ => hlink', fun hlong => absurd hlong (by omega)⟩, ?_, fun _ => hmore⟩
    · rw [show 3 - p.length = 2 - p.length + 1 by omega, follow, follow, written h hr ha a i hframe,
        if_pos ⟨rfl, rfl⟩, pageLink_of_isLink hlink' hlevel, pageLink_of_isLink hlink hlevel, hfields.addr]
    · -- what is inserted is what the entry above has been given
      intro q j c hpath hc
      have hgrants := hprepared q j c hpath hc
      subst hpath
      have hcover := h.trees.covers r hr q c j a hc ha i
      constructor
      · intro hwrite
        rw [hfields.writable, Bool.or_eq_true] at hwrite
        exact hwrite.elim hcover.1 hgrants.2.1
      · intro huser
        rw [hfields.userAccessible, Bool.or_eq_true] at huser
        exact huser.elim hcover.2 hgrants.2.2
  obtain ⟨hspaces, hevolves⟩ := replace h hr hw
  have hentry := hw.written a i hframe
  rw [if_pos ⟨rfl, rfl⟩] at hentry
  refine found_of_entry hspaces hevolves (fun r' hr' => h.trees.mappingIn_upper hr hw hp hr') hr ha hp hi hentry
    hlink' ?_
  refine ⟨hfields.present, fun hwrite => ?_, fun huser => ?_⟩
  · rw [hfields.writable, hwrite, Bool.or_true]
  · rw [hfields.userAccessible, huser, Bool.or_true]

/-- The next table on the way is found or made, with the rights that the flags ask for; the one thing that can fail is
the frame of a new table. -/
private theorem createNextTable_spec :
    ∃ result s', createNextTable a i (parentBits f) s = (result, s') ∧ Spaces d roots s' ∧ Evolves roots s s' ∧
      SameMappings roots s s' ∧ Spends 1 s s' ∧
      ((result = .error .frameAllocationFailed ∧ s.left = 0 ∧ s'.left = 0) ∨
        ∃ b, result = .ok b ∧ Found d roots r (p ++ [i]) f s s' b) := by
  rcases h.trees.upper r hr p a ha hp i hi with hunused | hlink
  · have huse : isUnused (readTable s.memory a i) = true := by
      rw [hunused]
      rfl
    obtain ⟨alloc, hafter, hevolves, hcases⟩ := h.allocateFrame_cases
    rcases hcases with ⟨hnone, hleft, hleft'⟩ | ⟨b, hsome, htakes⟩
    · have hcost : Spends 1 s { s with allocator := alloc } := by
        constructor
        · show alloc.pending.length ≤ s.left
          omega
        · omega
      refine ⟨_, _, ?_, hafter, hevolves, fun _ _ => rfl, hcost, .inl ⟨rfl, hleft, hleft'⟩⟩
      simp only [createNextTable, huse, if_true, hnone]
    · have hfound := found_new h hr ha hp hi hprepared hunused hafter hevolves.free htakes
      have hleft : s.left = alloc.pending.length + 1 := htakes.cost
      refine ⟨_, _, ?_, hfound.spaces, hfound.evolves, hfound.same, ⟨?_, ?_⟩, .inr ⟨b, rfl, hfound⟩⟩
      · simp only [createNextTable, huse, if_true, hsome]
      · show alloc.pending.length ≤ s.left
        omega
      · show s.left ≤ alloc.pending.length + 1
        omega
  · have huse := isUnused_of_present hlink.present
    cases hcontains : contains (readTable s.memory a i) (parentBits f) with
    | true =>
      have hfound := found_of_entry h (.refl s) (fun _ _ => rfl) hr ha hp hi rfl hlink (grants_of_contains hcontains)
      refine ⟨_, s, ?_, h, .refl s, fun _ _ => rfl, ⟨Nat.le_refl _, Nat.le_succ _⟩, .inr ⟨_, rfl, hfound⟩⟩
      simp only [createNextTable, huse, hcontains, Bool.false_eq_true, if_true, if_false]
    | false =>
      have hfound := found_inserted h hr ha hp hi hprepared hlink
      refine ⟨_, _, ?_, hfound.spaces, hfound.evolves, hfound.same, ⟨Nat.le_refl _, Nat.le_succ _⟩,
        .inr ⟨_, rfl, hfound⟩⟩
      simp only [createNextTable, huse, hcontains, Bool.false_eq_true, if_false]

end NextTable

/-- The tables on the way to a page are found or made one after the other. -/
private theorem createTables_spec (h : Spaces d roots s) (hr : r ∈ roots)
    (ha : tableAt (readTable s.memory) r p = some a) {path : List (Fin 512)} (hlength : p.length + path.length ≤ 3)
    (hi : p = [] → ∀ j ∈ path.head?, j.val < kernelP4Start) (hprepared : Prepared s r p f) :
    ∃ result s', createTables (parentBits f) path a s = (result, s') ∧ Spaces d roots s' ∧ Evolves roots s s' ∧
      SameMappings roots s s' ∧ Spends path.length s s' ∧
      ((result = .error .frameAllocationFailed ∧ s.left < path.length ∧ s'.left = 0) ∨
        ∃ b, result = .ok b ∧ Found d roots r (p ++ path) f s s' b) := by
  induction path generalizing p a s with
  | nil =>
    rw [List.append_nil]
    exact ⟨_, _, rfl, h, .refl s, fun _ _ => rfl, ⟨Nat.le_refl _, Nat.le_refl _⟩,
      .inr ⟨a, rfl, h, .refl s, fun _ _ => rfl, ha, hprepared⟩⟩
  | cons j path ih =>
    rw [List.length_cons] at hlength
    rw [List.length_cons]
    obtain ⟨result, s₁, hrun, hspaces, hevolves, hsame, ⟨hless, hbounded⟩, hcases⟩ :=
      createNextTable_spec h hr ha (by omega) (fun hnil => hi hnil j rfl) hprepared
    rcases hcases with ⟨rfl, hleft, hleft'⟩ | ⟨b, rfl, hfound⟩
    · refine ⟨_, _, ?_, hspaces, hevolves, hsame, ⟨hless, by omega⟩, .inl ⟨rfl, by omega, hleft'⟩⟩
      rw [createTables, hrun]
    · obtain ⟨result, s₂, hrun₂, hspaces₂, hevolves₂, hsame₂, ⟨hless₂, hbounded₂⟩, hcases₂⟩ := ih hspaces hfound.place
        (by rw [List.length_append, List.length_singleton]; omega) (fun hnil => absurd hnil (by simp)) hfound.prepared
      refine ⟨result, s₂, ?_, hspaces₂, hevolves.trans hevolves₂ hspaces.trees, hsame.trans hsame₂,
        ⟨by omega, by omega⟩, ?_⟩
      · rw [createTables, hrun]
        exact hrun₂
      · rcases hcases₂ with ⟨hfail, hleft, hleft'⟩ | ⟨b', hok, hfound₂⟩
        · exact .inl ⟨hfail, by omega, hleft'⟩
        · rw [List.append_assoc] at hfound₂
          exact .inr ⟨b', hok, hfound₂.spaces, hevolves.trans hfound₂.evolves hspaces.trees, hsame.trans hfound₂.same,
            hfound₂.place, hfound₂.prepared⟩

/-! ### Mapping and unmapping a page -/

variable {page : Page4K} {v : VirtAddr}

private theorem upperIndexes_eq (hv : v.asU64 = page.startAddress) :
    upperIndexes v = pathFrom page.startAddress 3 := by
  rw [← hv]
  rfl

private theorem tableIndex_eq (hv : v.asU64 = page.startAddress) :
    tableIndex v 12 = PageWalk.index page.startAddress 12 := by
  rw [← hv]
  rfl

/-- What a root maps a page to, when the last table on the way is known. -/
private theorem mappingIn_of_table {T : U64 → PageTable} (hlow : page.startAddress.toNat < 2 ^ 47)
    (ht : tableAt T r (pathFrom page.startAddress 3) = some a) :
    mappingIn T r page = leafMapping (T a (PageWalk.index page.startAddress 12)) := by
  rw [mappingIn, if_pos hlow, ht, Option.bind_some]

/-- The entry of a page is replaced: the page is mapped, or it is unmapped. -/
private theorem replaces_leaf (h : Spaces d roots s) (hr : r ∈ roots)
    (ha : tableAt (readTable s.memory) r (pathFrom page.startAddress 3) = some a) (hform : e = .unused ∨ e.IsLeaf)
    (habove : UserTrees.Led (readTable s.memory) r (pathFrom page.startAddress 3) e) :
    UserTrees.Replaces (readTable s.memory)
    (readTable (writeEntry s.memory a (PageWalk.index page.startAddress 12) e)) r
      (pathFrom page.startAddress 3) a (PageWalk.index page.startAddress 12) e := by
  have hlength := length_pathFrom page.startAddress 3
  refine ⟨ha, fun hnil => ?_, written h hr ha, ?_, ⟨fun hshort => ?_, fun _ => hform⟩, habove, fun hshort => ?_⟩
  · rw [hnil] at hlength
    cases hlength
  · rw [hlength, Nat.sub_self, follow_zero, follow_zero]
  · omega
  · omega

private theorem leafMapping_setFrame {frame : U64} (hframe : IsFrame frame) (f : PageTableFlags) :
    leafMapping (setFrame frame (bits f)) = some (frame, f.mappingFlags) := by
  have hfields := setFrame_bits hframe f
  rw [leafMapping, if_pos hfields.present, hfields.addr, PageTableEntry.mappingFlags, hfields.writable,
    hfields.noExecute]
  rfl

/-- The pages of a root after its entry for one of them has been replaced. -/
private theorem mappingIn_replaced (h : Spaces d [r] s) (hlow : page.startAddress.toNat < 2 ^ 47)
    (hw : UserTrees.Replaces (readTable s.memory)
      (readTable (writeEntry s.memory a (PageWalk.index page.startAddress 12) e))
      r (pathFrom page.startAddress 3) a (PageWalk.index page.startAddress 12) e) :
    mappingIn (readTable (writeEntry s.memory a (PageWalk.index page.startAddress 12) e)) r =
      Function.update (mappingIn (readTable s.memory) r) page (leafMapping e) := by
  have hr := List.mem_singleton_self r
  funext page'
  rw [h.trees.mappingIn_leaf hr hlow hw hr page', Function.update_apply]
  simp only [true_and]

private theorem mapTo_spec (h : Spaces d [r] s) (hv : v.asU64 = page.startAddress)
    (hlow : page.startAddress.toNat < 2 ^ 47) {frame : U64} (hframe : IsFrame frame) (huser : f.userAccessible = true)
    (hexclusive : f.writable = true → f.noExecute = true) :
    MapOutcome d r page (frame, f.mappingFlags) s (mapTo r v frame f s).1 (mapTo r v frame f s).2 := by
  have hr := List.mem_singleton_self r
  obtain ⟨result, s₁, hrun, hspaces, hevolves, hsame, hspends, hcases⟩ :=
    createTables_spec (f := f) (p := []) h hr rfl
    (show [].length + (pathFrom page.startAddress 3).length ≤ 3 by rw [length_pathFrom]; decide)
    (fun _ j hj => by cases hj; exact index_lt_of_low hlow) (fun q j c hpath => absurd hpath (by simp))
  rw [length_pathFrom] at hspends hcases
  unfold mapTo
  rw [upperIndexes_eq hv, tableIndex_eq hv, hrun]
  rcases hcases with ⟨rfl, hleft, hleft'⟩ | ⟨b, rfl, hfound⟩
  · exact ⟨hspaces, hevolves, hspends, .inl ⟨rfl, hsame, hleft, hleft'⟩⟩
  · have hplace := hfound.place
    have hprepared := hfound.prepared
    rw [List.nil_append] at hplace hprepared
    have hmapping := mappingIn_of_table hlow hplace
    rw [hsame r hr] at hmapping
    rcases hspaces.trees.leaves r hr _ b hplace (length_pathFrom _ _) (PageWalk.index page.startAddress 12) with
      hunused | hleaf
    · have huse : isUnused (readTable s₁.memory b (PageWalk.index page.startAddress 12)) = true := by
        rw [hunused]
        rfl
      have hfields := setFrame_bits hframe f
      have hform : (setFrame frame (bits f)).IsLeaf := by
        refine ⟨hfields.present, hfields.hugePage, hfields.userAccessible.trans huser, fun hwrite => ?_⟩
        rw [hfields.writable] at hwrite
        exact hfields.noExecute.trans (hexclusive hwrite)
      have hw := replaces_leaf hspaces hr hplace (.inr hform) fun q j c hpath hc =>
        hfields.below (hprepared q j c hpath hc)
      obtain ⟨hspaces₂, hevolves₂⟩ := replace hspaces hr hw
      have hmapped := mappingIn_replaced hspaces hlow hw
      rw [leafMapping_setFrame hframe, hsame r hr] at hmapped
      simp only [huse, if_true]
      refine ⟨hspaces₂, hevolves.trans hevolves₂ hspaces.trees, ⟨hspends.less, hspends.bounded⟩,
        .inr (.inr ⟨rfl, ?_, hmapped⟩)⟩
      rw [hmapping, hunused, leafMapping_unused]
    · simp only [isUnused_of_present hleaf.present, Bool.false_eq_true, if_false]
      refine ⟨hspaces, hevolves, hspends, .inr (.inl ⟨rfl, hsame, ?_⟩)⟩
      rw [hmapping, leafMapping, if_pos hleaf.present]
      rfl

/-- Down the tables that are there. -/
private theorem nextTable_eq (h : Spaces d roots s) (hr : r ∈ roots) (ha : tableAt (readTable s.memory) r p = some a)
    {path : List (Fin 512)} (hlength : p.length + path.length ≤ 3)
    (hi : p = [] → ∀ j ∈ path.head?, j.val < kernelP4Start) :
    nextTable s.memory path a = tableAt (readTable s.memory) r (p ++ path) := by
  induction path generalizing p a with
  | nil => rw [List.append_nil, ha]; rfl
  | cons j path ih =>
    rw [List.length_cons] at hlength
    have hj := fun hnil => hi hnil j rfl
    rw [nextTable]
    rcases h.trees.upper r hr p a ha (by omega) j hj with hunused | hlink
    · have hnone : tableAt (readTable s.memory) r (p ++ [j]) = none := by
        rw [tableAt, node_concat, show node pageLink _ 3 r p = some a from ha, Option.bind_some,
          show 3 - p.length = 2 - p.length + 1 by omega, follow, hunused, pageLink_unused]
      have hend : tableAt (readTable s.memory) r (p ++ j :: path) = none := by
        rw [List.append_cons]
        exact node_append_none hnone
      rw [hend, hunused]
      rfl
    · have hnext := ih (tableAt_link ha (by omega) hj hlink)
        (by rw [List.length_append, List.length_singleton]; omega) (fun hnil => absurd hnil (by simp))
      rw [if_pos hlink.present, List.append_cons]
      exact hnext

private theorem unmap_spec (h : Spaces d [r] s) (hv : v.asU64 = page.startAddress)
    (hlow : page.startAddress.toNat < 2 ^ 47) : UnmapOutcome d r page s (unmap r v s).1 (unmap r v s).2 := by
  have hr := List.mem_singleton_self r
  have hnext := nextTable_eq h hr (p := []) (a := r) rfl
    (show [].length + (pathFrom page.startAddress 3).length ≤ 3 by rw [length_pathFrom]; decide)
    (fun _ j hj => by cases hj; exact index_lt_of_low hlow)
  rw [List.nil_append] at hnext
  unfold unmap
  rw [upperIndexes_eq hv, tableIndex_eq hv, hnext]
  cases ht : tableAt (readTable s.memory) r (pathFrom page.startAddress 3) with
  | none =>
    refine .inl ⟨?_, rfl, rfl⟩
    rw [mappingIn, if_pos hlow, ht]
    rfl
  | some t =>
    have hmapping := mappingIn_of_table hlow ht
    dsimp only
    rcases h.trees.leaves r hr _ t ht (length_pathFrom _ _) (PageWalk.index page.startAddress 12) with hunused | hleaf
    · have habsent : ¬ (readTable s.memory t (PageWalk.index page.startAddress 12)).present = true := by
        rw [hunused]
        decide
      rw [if_neg habsent]
      exact .inl ⟨by rw [hmapping, hunused, leafMapping_unused], rfl, rfl⟩
    · have hw := replaces_leaf (e := .unused) h hr ht (.inl rfl) fun q j c _ _ => below_unused _
      obtain ⟨hspaces, hevolves⟩ := replace h hr hw
      rw [if_pos hleaf.present]
      refine .inr ⟨_, _, by rw [hmapping, leafMapping, if_pos hleaf.present], rfl, hspaces, hevolves, rfl, ?_⟩
      exact mappingIn_replaced h hlow hw

end ReferenceTables

/-- The tables of a root and the allocator. -/
def referenceTables (root : U64) : OffsetPageTable KernelMemory where
  allocateFrame := KernelMemory.allocateFrame
  mapTo := ReferenceTables.mapTo root
  unmap := ReferenceTables.unmap root
  tables s := ⟨readTable s.memory root, 0, readTable s.memory⟩

theorem contract_referenceTables (d : DirectMap) : TableContract d referenceTables where
  allocateFrame _ _ := rfl
  mapTo _ _ h _ _ _ _ _ hv hlow hframe huser hexclusive :=
    ReferenceTables.mapTo_spec h hv hlow hframe huser hexclusive
  unmap _ _ h _ _ _ hv hlow := ReferenceTables.unmap_spec h hv hlow

end X11Os
