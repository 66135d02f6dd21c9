import X11Os.Arch.TableMemory
import X11Os.Lib.TableTree

/-!
# The trees of user address spaces

The tables below the user halves of the level-4 roots form a forest: no table belongs to two address spaces, or to two
places of one.  The entries on the way to a page give at least the rights of the page.  One write to an entry keeps
this (`UserTrees.write`), and so does one new table (`UserTrees.grow`).

The pages that a root maps are read off its tree (`mappingIn`), and the walk of the processor finds exactly them
(`UserTrees.walk_eq`).
-/

namespace X11Os

open Word TableTree

/-! ### Entries -/

namespace PageTableEntry

/-- A link to a further table. -/
structure IsLink (e : PageTableEntry) : Prop where
  present : e.present = true
  small : e.hugePage = false
  executable : e.noExecute = false

/-- The entry of a page that user mode can access, and that is not both writable and executable. -/
structure IsLeaf (e : PageTableEntry) : Prop where
  present : e.present = true
  small : e.hugePage = false
  user : e.userAccessible = true
  exclusive : e.writable = true → e.noExecute = true

/-- The entry gives no more rights than the other. -/
def Below (e e' : PageTableEntry) : Prop :=
  (e.writable = true → e'.writable = true) ∧ (e.userAccessible = true → e'.userAccessible = true)

private theorem Below.refl (e : PageTableEntry) : Below e e := ⟨id, id⟩

private theorem Below.trans {e e' e'' : PageTableEntry} (h : Below e e') (h' : Below e' e'') : Below e e'' :=
  ⟨fun hw => h'.1 (h.1 hw), fun hu => h'.2 (h.2 hu)⟩

theorem below_unused (e : PageTableEntry) : Below unused e := by
  constructor <;> intro h <;> cases h

end PageTableEntry

open PageTableEntry

/-- The links between the tables of user address spaces; those of the kernel half of a root are left alone. -/
def pageLink (n : Nat) (i : Fin 512) (e : PageTableEntry) : Option U64 :=
  if n = 2 ∧ kernelP4Start ≤ i.val then none else if e.present && !e.hugePage then some e.addr else none

theorem pageLink_unused (n : Nat) (i : Fin 512) : pageLink n i .unused = none := by
  have habsent : (PageTableEntry.unused.present && !PageTableEntry.unused.hugePage) = false := by decide
  simp [pageLink, habsent]

private theorem pageLink_eq_some {n : Nat} {i : Fin 512} {e : PageTableEntry} {b : U64}
    (h : pageLink n i e = some b) :
    e.addr = b ∧ (n = 2 → i.val < kernelP4Start) ∧ e.present = true ∧ e.hugePage = false := by
  unfold pageLink at h
  split_ifs at h with hkernel hlink
  cases h
  simp only [Bool.and_eq_true, Bool.not_eq_true'] at hlink
  refine ⟨rfl, fun hn => ?_, hlink.1, hlink.2⟩
  exact Nat.lt_of_not_le fun hle => hkernel ⟨hn, hle⟩

theorem pageLink_of_isLink {n : Nat} {i : Fin 512} {e : PageTableEntry} (h : e.IsLink)
    (hi : n = 2 → i.val < kernelP4Start) : pageLink n i e = some e.addr := by
  unfold pageLink
  rw [if_neg, if_pos]
  · rw [h.present, h.small]
    rfl
  · intro hkernel
    have := hi hkernel.1
    omega

/-- The table that a path leads to in the tree of a root. -/
abbrev tableAt (T : U64 → PageTable) (root : U64) (path : List (Fin 512)) : Option U64 := node pageLink T 3 root path

/-- The table belongs to one of the address spaces. -/
abbrev InUse (T : U64 → PageTable) (roots : List U64) (table : U64) : Prop := Occupied pageLink T 3 roots table

/-- The trees of the address spaces with these roots. -/
structure UserTrees (T : U64 → PageTable) (roots : List U64) : Prop where
  frames : ∀ r ∈ roots, IsFrame r
  forest : Forest pageLink T 3 roots
  upper : ∀ r ∈ roots, ∀ p a, tableAt T r p = some a → p.length < 3 → ∀ i : Fin 512,
    (p = [] → i.val < kernelP4Start) → T a i = .unused ∨ (T a i).IsLink
  leaves : ∀ r ∈ roots, ∀ p a, tableAt T r p = some a → p.length = 3 → ∀ i, T a i = .unused ∨ (T a i).IsLeaf
  covers : ∀ r ∈ roots, ∀ p a i b, tableAt T r p = some a → tableAt T r (p ++ [i]) = some b → ∀ j,
    Below (T b j) (T a i)

namespace UserTrees

variable {T T' : U64 → PageTable} {roots : List U64} {r r' a b c : U64} {p q : List (Fin 512)} {i j : Fin 512}
  {e : PageTableEntry}

theorem isFrame (h : UserTrees T roots) (hr : r ∈ roots) (ha : tableAt T r p = some a) : IsFrame a := by
  induction p using List.reverseRecOn with
  | nil =>
    cases ha
    exact h.frames r hr
  | append_singleton p i _ =>
    obtain ⟨c, -, hfollow⟩ := node_concat_eq_some.mp ha
    cases hn : 3 - p.length with
    | zero =>
      rw [hn] at hfollow
      cases hfollow
    | succ n =>
      rw [hn] at hfollow
      rw [← (pageLink_eq_some hfollow).1]
      exact PageTableEntry.isFrame_addr _

theorem isFrame_of_inUse (h : UserTrees T roots) (ha : InUse T roots a) : IsFrame a := by
  obtain ⟨r, hr, p, hp⟩ := ha
  exact h.isFrame hr hp

/-- The entry that leads to the table at `p`, if it is not the root, gives the rights of the flags. -/
def Led (T : U64 → PageTable) (r : U64) (p : List (Fin 512)) (e : PageTableEntry) : Prop :=
  ∀ q j c, p = q ++ [j] → tableAt T r q = some c → Below e (T c j)

/-! ### A write to one entry -/

/-- One entry is replaced by another with the same link. -/
structure Replaces (T T' : U64 → PageTable) (r : U64) (p : List (Fin 512)) (a : U64) (i : Fin 512)
    (e : PageTableEntry) :
    Prop where
  place : tableAt T r p = some a
  user : p = [] → i.val < kernelP4Start
  written : ∀ c j, IsFrame c → T' c j = if c = a ∧ j = i then e else T c j
  link : follow pageLink T' (3 - p.length) a i = follow pageLink T (3 - p.length) a i
  form : (p.length < 3 → e.IsLink) ∧ (p.length = 3 → e = .unused ∨ e.IsLeaf)
  above : Led T r p e
  below : p.length < 3 → Below (T a i) e

theorem tableAt_replaces (h : UserTrees T roots) (hr : r ∈ roots) (hw : Replaces T T' r p a i e) (hr' : r' ∈ roots)
    (q : List (Fin 512)) : tableAt T' r' q = tableAt T r' q := by
  apply node_congr
  intro q c hc j
  by_cases heq : c = a ∧ j = i
  · obtain ⟨rfl, rfl⟩ := heq
    obtain ⟨rfl, rfl⟩ := h.forest r' hr' r hr q p c hc hw.place
    exact hw.link
  · have hsame : T' c j = T c j := by rw [hw.written c j (h.isFrame hr' hc), if_neg heq]
    cases hn : 3 - q.length with
    | zero => rfl
    | succ n => rw [follow, follow, hsame]

theorem write (h : UserTrees T roots) (hr : r ∈ roots) (hw : Replaces T T' r p a i e) : UserTrees T' roots := by
  have hnode : ∀ r' ∈ roots, ∀ q, tableAt T' r' q = tableAt T r' q := fun r' hr' q => h.tableAt_replaces hr hw hr' q
  have hentry : ∀ r' ∈ roots, ∀ q c, tableAt T r' q = some c → ∀ j,
      (c = a ∧ j = i ∧ r' = r ∧ q = p ∧ T' c j = e) ∨ ((c = a → j ≠ i) ∧ T' c j = T c j) := by
    intro r' hr' q c hc j
    rw [hw.written c j (h.isFrame hr' hc)]
    by_cases heq : c = a ∧ j = i
    · obtain ⟨rfl, rfl⟩ := heq
      obtain ⟨rfl, rfl⟩ := h.forest r' hr' r hr q p c hc hw.place
      exact .inl ⟨rfl, rfl, rfl, rfl, if_pos ⟨rfl, rfl⟩⟩
    · exact .inr ⟨fun hca hji => heq ⟨hca, hji⟩, if_neg heq⟩
  refine ⟨h.frames, h.forest.congr hnode, ?_, ?_, ?_⟩
  · intro r' hr' q c hc hq j hj
    rw [hnode r' hr'] at hc
    rcases hentry r' hr' q c hc j with ⟨-, -, -, rfl, heq⟩ | ⟨-, heq⟩
    · rw [heq]
      exact .inr (hw.form.1 hq)
    · rw [heq]
      exact h.upper r' hr' q c hc hq j hj
  · intro r' hr' q c hc hq j
    rw [hnode r' hr'] at hc
    rcases hentry r' hr' q c hc j with ⟨-, -, -, rfl, heq⟩ | ⟨-, heq⟩
    · rw [heq]
      exact hw.form.2 hq
    · rw [heq]
      exact h.leaves r' hr' q c hc hq j
  · intro r' hr' q c k d hc hd j
    rw [hnode r' hr'] at hc hd
    have hcover := h.covers r' hr' q c k d hc hd
    have hlength := length_le_of_node hd
    rw [List.length_append, List.length_singleton] at hlength
    rcases hentry r' hr' q c hc k with ⟨rfl, rfl, rfl, rfl, heq⟩ | ⟨hne, heq⟩
    · -- the entry has been replaced by one with more rights
      rcases hentry r' hr' _ d hd j with ⟨-, -, -, hpath, -⟩ | ⟨-, heq'⟩
      · simp at hpath
      · rw [heq, heq']
        exact (hcover j).trans (hw.below (by omega))
    · rcases hentry r' hr' _ d hd j with ⟨-, -, rfl, rfl, heq'⟩ | ⟨-, heq'⟩
      · rw [heq, heq']
        exact hw.above q k c rfl hc
      · rw [heq, heq']
        exact hcover j

/-! ### A new table -/

/-- An unused entry becomes a link to a cleared frame that is not in use. -/
structure Links (T T' : U64 → PageTable) (roots : List U64) (r : U64) (p : List (Fin 512)) (a : U64) (i : Fin 512)
    (e : PageTableEntry) (b : U64) : Prop where
  place : tableAt T r p = some a
  short : p.length < 3
  user : p = [] → i.val < kernelP4Start
  wasUnused : T a i = .unused
  frame : IsFrame b
  fresh : ¬ InUse T roots b
  written : ∀ c j, IsFrame c → T' c j = if c = b then .unused else if c = a ∧ j = i then e else T c j
  link : e.IsLink
  addr : e.addr = b
  above : Led T r p e

theorem Links.grows (h : UserTrees T roots) (hr : r ∈ roots) (hl : Links T T' roots r p a i e b) :
    Grows pageLink T T' 3 roots r p a i b := by
  have hne : a ≠ b := fun heq => hl.fresh (heq ▸ ⟨r, hr, p, hl.place⟩)
  have hsucc : 3 - p.length = 2 - p.length + 1 := by
    have := hl.short
    omega
  refine ⟨hr, hl.place, ?_, ?_, ?_, hl.fresh, ?_⟩
  · rw [hsucc, follow, hl.wasUnused, pageLink_unused]
  · rw [hsucc, follow, hl.written a i (h.isFrame hr hl.place), if_neg hne, if_pos ⟨rfl, rfl⟩,
      pageLink_of_isLink hl.link, hl.addr]
    intro hlevel
    apply hl.user
    apply List.eq_nil_of_length_eq_zero
    omega
  · intro r' hr' q c hc j hother
    have hcb : c ≠ b := fun heq => hl.fresh (heq ▸ ⟨r', hr', q, hc⟩)
    have hsame : T' c j = T c j := by
      rw [hl.written c j (h.isFrame hr' hc), if_neg hcb, if_neg fun heq => hother heq.1 heq.2]
    cases hn : 3 - q.length with
    | zero => rfl
    | succ n => rw [follow, follow, hsame]
  · intro m j
    cases m with
    | zero => rfl
    | succ m => rw [follow, hl.written b j hl.frame, if_pos rfl, pageLink_unused]

theorem grow (h : UserTrees T roots) (hr : r ∈ roots) (hl : Links T T' roots r p a i e b) : UserTrees T' roots := by
  have hgrows := hl.grows h hr
  have hnode : ∀ r' ∈ roots, ∀ q c, tableAt T' r' q = some c →
      (c = b ∧ r' = r ∧ q = p ++ [i]) ∨ (c ≠ b ∧ tableAt T r' q = some c) := by
    intro r' hr' q c hc
    rw [tableAt, h.forest.node_grow hgrows hr'] at hc
    split_ifs at hc with hnew
    · cases hc
      exact .inl ⟨rfl, hnew.1, hnew.2⟩
    · exact .inr ⟨fun heq => hl.fresh (heq ▸ ⟨r', hr', q, hc⟩), hc⟩
  have hempty : ∀ j, T' b j = .unused := fun j => by rw [hl.written b j hl.frame, if_pos rfl]
  have hold : ∀ c, IsFrame c → c ≠ b → ∀ j, T' c j = if c = a ∧ j = i then e else T c j :=
    fun c hc hcb j => by rw [hl.written c j hc, if_neg hcb]
  refine ⟨h.frames, h.forest.grow hgrows, ?_, ?_, ?_⟩
  · intro r' hr' q c hc hq j hj
    rcases hnode r' hr' q c hc with ⟨rfl, -, -⟩ | ⟨hcb, hc⟩
    · exact .inl (hempty j)
    · rw [hold c (h.isFrame hr' hc) hcb j]
      split_ifs
      · exact .inr hl.link
      · exact h.upper r' hr' q c hc hq j hj
  · intro r' hr' q c hc hq j
    rcases hnode r' hr' q c hc with ⟨rfl, -, -⟩ | ⟨hcb, hc⟩
    · exact .inl (hempty j)
    · have hca : c ≠ a := by
        intro heq
        subst heq
        obtain ⟨-, rfl⟩ := h.forest r' hr' r hr q p c hc hl.place
        have := hl.short
        omega
      rw [hold c (h.isFrame hr' hc) hcb j, if_neg fun heq => hca heq.1]
      exact h.leaves r' hr' q c hc hq j
  · intro r' hr' q c k d hc hd j
    rcases hnode r' hr' _ d hd with ⟨rfl, -, -⟩ | ⟨hdb, hd⟩
    · rw [hempty j]
      exact below_unused _
    · obtain ⟨c', hc', -⟩ := node_concat_eq_some.mp hd
      have hcc : c' = c := by
        have hkept := h.forest.node_of_grows hgrows hr' hc'
        rw [tableAt, hkept] at hc
        exact Option.some.inj hc
      subst hcc
      have hcb : c' ≠ b := fun heq => hl.fresh (heq ▸ ⟨r', hr', q, hc'⟩)
      have hck : ¬ (c' = a ∧ k = i) := by
        intro heq
        obtain ⟨rfl, rfl⟩ := heq
        obtain ⟨rfl, rfl⟩ := h.forest r' hr' r hr q p c' hc' hl.place
        rw [tableAt, node_concat, hc', Option.bind_some, hgrows.unlinked] at hd
        cases hd
      rw [hold c' (h.isFrame hr' hc') hcb k, if_neg hck, hold d (h.isFrame hr' hd) hdb j]
      split_ifs with heq
      · -- the new link is below the entry that leads to its own table
        obtain ⟨rfl, rfl⟩ := heq
        obtain ⟨rfl, rfl⟩ := h.forest r' hr' r hr (q ++ [k]) p d hd hl.place
        exact hl.above q k c' rfl hc'
      · exact h.covers r' hr' q c' k d hc' hd j

/-! ### A new root -/

private theorem follow_of_empty (hempty : ∀ i : Fin 512, i.val < kernelP4Start → T r i = .unused) (i : Fin 512) :
    follow pageLink T 3 r i = none := by
  by_cases hi : i.val < kernelP4Start
  · rw [follow, hempty i hi, pageLink_unused]
  · rw [follow, pageLink, if_pos ⟨rfl, by omega⟩]

/-- The tree of a root whose user half is empty. -/
theorem tableAt_of_empty (hempty : ∀ i : Fin 512, i.val < kernelP4Start → T r i = .unused)
    (hb : tableAt T r p = some b) :
    p = [] ∧ b = r := by
  cases p with
  | nil => exact ⟨rfl, (Option.some.inj hb).symm⟩
  | cons i p =>
    rw [tableAt, node, follow_of_empty hempty i] at hb
    cases hb

/-- A root whose user half is empty, in a frame that is not in use. -/
theorem cons (h : UserTrees T roots) (hr : IsFrame r) (hfresh : ¬ InUse T roots r)
    (hempty : ∀ i : Fin 512, i.val < kernelP4Start → T r i = .unused) : UserTrees T (r :: roots) := by
  have hpath : ∀ {p b}, tableAt T r p = some b → p = [] ∧ b = r := tableAt_of_empty hempty
  refine ⟨List.forall_mem_cons.mpr ⟨hr, h.frames⟩, h.forest.cons hfresh (follow_of_empty hempty), ?_, ?_, ?_⟩
  · intro r' hr' q c hc hq j hj
    rcases List.mem_cons.mp hr' with rfl | hold
    · obtain ⟨rfl, rfl⟩ := hpath hc
      exact .inl (hempty j (hj rfl))
    · exact h.upper r' hold q c hc hq j hj
  · intro r' hr' q c hc hq j
    rcases List.mem_cons.mp hr' with rfl | hold
    · obtain ⟨rfl, rfl⟩ := hpath hc
      cases hq
    · exact h.leaves r' hold q c hc hq j
  · intro r' hr' q c k d hc hd j
    rcases List.mem_cons.mp hr' with rfl | hold
    · exact absurd (hpath hd).1 (by simp)
    · exact h.covers r' hold q c k d hc hd j

/-! ### Trees one by one -/

theorem inUse_iff : InUse T roots a ↔ ∃ r ∈ roots, InUse T [r] a := by
  constructor
  · rintro ⟨r, hr, hp⟩
    exact ⟨r, hr, r, List.mem_singleton_self r, hp⟩
  · rintro ⟨r, hr, r', hr', hp⟩
    rw [List.mem_singleton.mp hr'] at hp
    exact ⟨r, hr, hp⟩

/-- Some of the trees. -/
theorem mono (h : UserTrees T roots) {roots' : List U64} (hsub : ∀ r ∈ roots', r ∈ roots) : UserTrees T roots' where
  frames r hr := h.frames r (hsub r hr)
  forest r hr r' hr' := h.forest r (hsub r hr) r' (hsub r' hr')
  upper r hr := h.upper r (hsub r hr)
  leaves r hr := h.leaves r (hsub r hr)
  covers r hr := h.covers r (hsub r hr)

theorem single (h : UserTrees T roots) (hr : r ∈ roots) : UserTrees T [r] :=
  h.mono fun _ hr' => List.mem_singleton.mp hr' ▸ hr

/-- Different roots share no table. -/
theorem apart (h : UserTrees T roots) (hr : r ∈ roots) (hr' : r' ∈ roots) (hne : r ≠ r') (ha : InUse T [r] a) :
    ¬ InUse T [r'] a := by
  rintro ⟨c', hc', q, hq⟩
  obtain ⟨c, hc, p, hp⟩ := ha
  rw [List.mem_singleton.mp hc] at hp
  rw [List.mem_singleton.mp hc'] at hq
  exact hne (h.forest r hr r' hr' p q a hp hq).1

/-- Trees that share no table. -/
theorem of_each (h : ∀ r ∈ roots, UserTrees T [r])
    (hapart : ∀ r ∈ roots, ∀ r' ∈ roots, r ≠ r' → ∀ a, InUse T [r] a → ¬ InUse T [r'] a) : UserTrees T roots where
  frames r hr := (h r hr).frames r (List.mem_singleton_self r)
  forest r hr r' hr' p p' a hp hp' := by
    have hself := List.mem_singleton_self r
    by_cases heq : r = r'
    · subst heq
      exact (h r hr).forest r hself r hself p p' a hp hp'
    · exact absurd ⟨r', List.mem_singleton_self r', p', hp'⟩ (hapart r hr r' hr' heq a ⟨r, hself, p, hp⟩)
  upper r hr := (h r hr).upper r (List.mem_singleton_self r)
  leaves r hr := (h r hr).leaves r (List.mem_singleton_self r)
  covers r hr := (h r hr).covers r (List.mem_singleton_self r)

theorem tableAt_congr (hr : r ∈ roots) (hsame : ∀ a, InUse T roots a → T' a = T a) (q : List (Fin 512)) :
    tableAt T' r q = tableAt T r q := by
  apply node_congr
  intro p b hb i
  have heq := hsame b ⟨r, hr, p, hb⟩
  cases 3 - p.length with
  | zero => rfl
  | succ n => rw [follow, follow, heq]

/-- Memory that holds the same tables holds the same trees. -/
theorem congr (h : UserTrees T roots) (hsame : ∀ a, InUse T roots a → T' a = T a) : UserTrees T' roots := by
  have hnode : ∀ r ∈ roots, ∀ q, tableAt T' r q = tableAt T r q := fun r hr q => tableAt_congr hr hsame q
  refine ⟨h.frames, h.forest.congr hnode, ?_, ?_, ?_⟩
  · intro r hr p a ha hp i hi
    rw [hnode r hr] at ha
    rw [hsame a ⟨r, hr, p, ha⟩]
    exact h.upper r hr p a ha hp i hi
  · intro r hr p a ha hp i
    rw [hnode r hr] at ha
    rw [hsame a ⟨r, hr, p, ha⟩]
    exact h.leaves r hr p a ha hp i
  · intro r hr p a i b ha hb j
    rw [hnode r hr] at ha hb
    rw [hsame a ⟨r, hr, p, ha⟩, hsame b ⟨r, hr, _, hb⟩]
    exact h.covers r hr p a i b ha hb j

end UserTrees

/-! ### The pages of a root -/

/-- The permissions of a page, read off its entry. -/
def PageTableEntry.mappingFlags (e : PageTableEntry) : MappingFlags :=
  if e.writable then .readWrite else if e.noExecute then .readOnly else .readExecute

def leafMapping (e : PageTableEntry) : Option (U64 × MappingFlags) :=
  if e.present then some (e.addr, e.mappingFlags) else none

/-- The indexes of the `n` tables above the last one. -/
def pathFrom (a : U64) : Nat → List (Fin 512)
  | 0 => []
  | n + 1 => PageWalk.index a (12 + 9 * (n + 1)) :: pathFrom a n

/-- What the tree of a root maps a page to.  Only pages of the lower half have a place in it. -/
def mappingIn (T : U64 → PageTable) (root : U64) (page : Page4K) : Option (U64 × MappingFlags) :=
  if page.startAddress.toNat < 2 ^ 47 then
    (tableAt T root (pathFrom page.startAddress 3)).bind
      fun t => leafMapping (T t (PageWalk.index page.startAddress 12))
  else none

theorem leafMapping_unused : leafMapping .unused = none := rfl

theorem length_pathFrom (a : U64) (n : Nat) : (pathFrom a n).length = n := by
  induction n with
  | zero => rfl
  | succ n ih => rw [pathFrom, List.length_cons, ih]

/-- An address of the lower half goes through the user half of the root. -/
theorem index_lt_of_low {a : U64} (ha : a.toNat < 2 ^ 47) : (PageWalk.index a 39).val < kernelP4Start := by
  show a.toNat / 2 ^ 39 % 512 < 256
  omega

/-- A page is determined by its place. -/
private theorem page_eq_of_place {page page' : Page4K} (hlow : page.startAddress.toNat < 2 ^ 47)
    (hlow' : page'.startAddress.toNat < 2 ^ 47) (hpath : pathFrom page.startAddress 3 = pathFrom page'.startAddress 3)
    (hleaf : PageWalk.index page.startAddress 12 = PageWalk.index page'.startAddress 12) : page = page' := by
  have halign := aligned_iff.mp page.aligned
  have halign' := aligned_iff.mp page'.aligned
  simp only [pathFrom, List.cons.injEq, PageWalk.index, Fin.mk.injEq, and_true] at hpath hleaf
  obtain ⟨h39, h30, h21⟩ := hpath
  have hstart : page.startAddress = page'.startAddress := by
    apply BitVec.eq_of_toNat_eq
    omega
  cases page
  cases page'
  simp only at hstart
  subst hstart
  rfl

namespace UserTrees

variable {T T' : U64 → PageTable} {roots : List U64} {r r' a b c : U64} {p q : List (Fin 512)} {i j : Fin 512}
  {e : PageTableEntry} {page : Page4K}

theorem mappingIn_congr (hr : r ∈ roots) (hsame : ∀ a, InUse T roots a → T' a = T a) :
    mappingIn T' r = mappingIn T r := by
  funext page
  unfold mappingIn
  rw [tableAt_congr hr hsame]
  cases ht : tableAt T r (pathFrom page.startAddress 3) with
  | none => rfl
  | some t => simp only [Option.bind_some, hsame t ⟨r, hr, _, ht⟩]

/-- A write above the last level changes no page. -/
theorem mappingIn_upper (h : UserTrees T roots) (hr : r ∈ roots) (hw : Replaces T T' r p a i e) (hp : p.length < 3)
    (hr' : r' ∈ roots) : mappingIn T' r' = mappingIn T r' := by
  funext page
  unfold mappingIn
  rw [h.tableAt_replaces hr hw hr']
  cases ht : tableAt T r' (pathFrom page.startAddress 3) with
  | none => rfl
  | some t =>
    have hta : t ≠ a := by
      intro heq
      subst heq
      obtain ⟨-, hpath⟩ := h.forest r' hr' r hr _ p t ht hw.place
      rw [← hpath, length_pathFrom] at hp
      omega
    simp only [Option.bind_some, hw.written t _ (h.isFrame hr' ht), if_neg fun heq : t = a ∧ _ => hta heq.1]

/-- A write of the entry of a page changes that page. -/
theorem mappingIn_leaf (h : UserTrees T roots) (hr : r ∈ roots) (hlow : page.startAddress.toNat < 2 ^ 47)
    (hw : Replaces T T' r (pathFrom page.startAddress 3) a (PageWalk.index page.startAddress 12) e) (hr' : r' ∈ roots)
    (page' : Page4K) : mappingIn T' r' page' = if r' = r ∧ page' = page then
      leafMapping e else mappingIn T r' page' := by
  unfold mappingIn
  rw [h.tableAt_replaces hr hw hr']
  by_cases hpage : r' = r ∧ page' = page
  · obtain ⟨rfl, rfl⟩ := hpage
    rw [if_pos hlow, if_pos ⟨rfl, rfl⟩, hw.place, Option.bind_some, hw.written a _ (h.isFrame hr hw.place),
      if_pos ⟨rfl, rfl⟩]
  · rw [if_neg hpage]
    by_cases hlow' : page'.startAddress.toNat < 2 ^ 47
    · rw [if_pos hlow', if_pos hlow']
      cases ht : tableAt T r' (pathFrom page'.startAddress 3) with
      | none => rfl
      | some t =>
        have hother : ¬ (t = a ∧ PageWalk.index page'.startAddress 12 = PageWalk.index page.startAddress 12) := by
          intro heq
          obtain ⟨rfl, hleaf⟩ := heq
          obtain ⟨rfl, hpath⟩ := h.forest r' hr' r hr _ _ t ht hw.place
          exact hpage ⟨rfl, page_eq_of_place hlow' hlow hpath hleaf⟩
        simp only [Option.bind_some, hw.written t _ (h.isFrame hr' ht), if_neg hother]
    · rw [if_neg hlow', if_neg hlow']

/-- A new table maps nothing. -/
theorem mappingIn_links (h : UserTrees T roots) (hr : r ∈ roots) (hl : Links T T' roots r p a i e b)
    (hr' : r' ∈ roots) :
    mappingIn T' r' = mappingIn T r' := by
  have hgrows := hl.grows h hr
  funext page
  have hnode : tableAt T' r' (pathFrom page.startAddress 3) =
      if r' = r ∧ pathFrom page.startAddress 3 = p ++ [i] then
        some b else tableAt T r' (pathFrom page.startAddress 3) :=
    h.forest.node_grow hgrows hr' _
  unfold mappingIn
  rw [hnode]
  by_cases hnew : r' = r ∧ pathFrom page.startAddress 3 = p ++ [i]
  · have hnone : tableAt T r' (pathFrom page.startAddress 3) = none := by
      rw [hnew.1, hnew.2, tableAt, node_concat, hgrows.place, Option.bind_some, hgrows.unlinked]
    simp only [if_pos hnew, hnone, Option.bind_some, Option.bind_none, hl.written b _ hl.frame, if_true,
      leafMapping_unused, ite_self]
  · rw [if_neg hnew]
    cases ht : tableAt T r' (pathFrom page.startAddress 3) with
    | none => rfl
    | some t =>
      have htb : t ≠ b := fun heq => hl.fresh (heq ▸ ⟨r', hr', _, ht⟩)
      have hta : t ≠ a := by
        intro heq
        subst heq
        obtain ⟨-, hpath⟩ := h.forest r' hr' r hr _ p t ht hl.place
        have hshort := hl.short
        rw [← hpath, length_pathFrom] at hshort
        omega
      simp only [Option.bind_some, hl.written t _ (h.isFrame hr' ht), if_neg htb, if_neg fun heq :
        t = a ∧ _ => hta heq.1]

/-! ### The walk of the processor -/

/-- From a table of the tree down, the walk stops at an entry that is not present, or reaches the entry of the page
through links that give at least the rights of the page. -/
private theorem descend_cases (h : UserTrees T roots) (hr : r ∈ roots) (x : U64) (hlow : x.toNat < 2 ^ 47) {n : Nat}
    (hc : tableAt T r p = some c) (hn : p.length + n = 3) (hp : p ++ pathFrom x n = pathFrom x 3) :
    (PageWalk.descend T x (n + 1) (T c) = none ∧
      (node pageLink T n c (pathFrom x n)).bind (fun t => leafMapping (T t (PageWalk.index x 12))) = none) ∨
    ∃ t upper, node pageLink T n c (pathFrom x n) = some t ∧ (T t (PageWalk.index x 12)).IsLeaf ∧
      PageWalk.descend T x (n + 1) (T c) = some ⟨upper, T t (PageWalk.index x 12), 12⟩ ∧
      (∀ e ∈ upper, e.IsLink ∧ InUse T roots e.addr ∧ Below (T t (PageWalk.index x 12)) e) ∧
      Below (T t (PageWalk.index x 12)) (T c (PageWalk.index x (12 + 9 * n))) := by
  -- the levels that are left; the invariant relates the leaf to the entry through which the walk goes on
  induction n generalizing c p with
  | zero =>
    have hleaf := h.leaves r hr p c hc (by omega) (PageWalk.index x 12)
    simp only [PageWalk.descend, pathFrom, node_nil, Option.bind_some, Nat.mul_zero, Nat.add_zero]
    rcases hleaf with hunused | hleaf
    · exact .inl ⟨by rw [hunused]; rfl, by rw [hunused]; rfl⟩
    · refine .inr ⟨c, [], rfl, hleaf, ?_, by simp, .refl _⟩
      simp [hleaf.present]
  | succ n ih =>
    have hlength : p.length < 3 := by omega
    have huser : p = [] → (PageWalk.index x (12 + 9 * (n + 1))).val < kernelP4Start := by
      intro hnil
      have hlevel : n = 2 := by
        rw [hnil, List.length_nil] at hn
        omega
      rw [hlevel]
      exact index_lt_of_low hlow
    have hlevel : n = 2 → (PageWalk.index x (12 + 9 * (n + 1))).val < kernelP4Start := by
      intro htop
      apply huser
      apply List.eq_nil_of_length_eq_zero
      omega
    rcases h.upper r hr p c hc hlength _ huser with hunused | hlink
    · refine .inl ⟨?_, ?_⟩
      · rw [PageWalk.descend, hunused]
        rfl
      · rw [pathFrom, node, follow, hunused, pageLink_unused]
        rfl
    · have hfollow : follow pageLink T (n + 1) c (PageWalk.index x (12 + 9 * (n + 1))) =
          some (T c (PageWalk.index x (12 + 9 * (n + 1)))).addr := pageLink_of_isLink hlink hlevel
      have hnext : tableAt T r (p ++ [PageWalk.index x (12 + 9 * (n + 1))]) =
          some (T c (PageWalk.index x (12 + 9 * (n + 1)))).addr := by
        refine node_concat_eq_some.mpr ⟨c, hc, ?_⟩
        rw [show 3 - p.length = n + 1 by omega]
        exact hfollow
      have hnode : node pageLink T (n + 1) c (pathFrom x (n + 1)) =
          node pageLink T n (T c (PageWalk.index x (12 + 9 * (n + 1)))).addr (pathFrom x n) := by
        rw [pathFrom, node, hfollow]
        rfl
      have hdescend : PageWalk.descend T x (n + 1 + 1) (T c) =
          (PageWalk.descend T x (n + 1) (T (T c (PageWalk.index x (12 + 9 * (n + 1)))).addr)).map fun w =>
            { w with upper := T c (PageWalk.index x (12 + 9 * (n + 1))) :: w.upper } := by
        rw [PageWalk.descend]
        simp [hlink.present, hlink.small]
      rw [hnode, hdescend]
      rcases ih hnext (by rw [List.length_append, List.length_singleton]; omega)
        (by rw [← hp, pathFrom, List.append_assoc]; rfl) with ⟨hnone, hmapping⟩ |
        ⟨t, upper, ht, hleaf, hsome, hall, hbelow⟩
      · exact .inl ⟨by rw [hnone]; rfl, hmapping⟩
      · have hcover := h.covers r hr p c _ _ hc hnext (PageWalk.index x (12 + 9 * n))
        refine .inr ⟨t, _ :: upper, ht, hleaf, by rw [hsome]; rfl, ?_, hbelow.trans hcover⟩
        exact List.forall_mem_cons.mpr ⟨⟨hlink, ⟨r, hr, _, hnext⟩, hbelow.trans hcover⟩, hall⟩

end UserTrees

theorem aligned_pageStartOf (a : U64) : pageStartOf a % pageSize4K = 0 := by
  rw [aligned_iff, toNat_pageStartOf]
  omega

/-- The page of an address. -/
def Page4K.containing (a : U64) : Page4K := ⟨pageStartOf a, aligned_pageStartOf a⟩

/-- The walk ends at the address in the frame, all its entries are present and accessible to user mode, and together
they give the permissions. -/
structure PageWalk.Gives (w : PageWalk) (a frame : U64) (flags : MappingFlags) : Prop where
  physical : w.physical a = frame + BitVec.ofNat 64 (a.toNat % 4096)
  aligned : w.Aligned
  user : ∀ e ∈ w.entries, e.present = true ∧ e.userAccessible = true
  writable : (∀ e ∈ w.entries, e.writable = true) ↔ flags.writable = true
  executable : (∀ e ∈ w.entries, e.noExecute = false) ↔ flags.executable = true

private theorem PageTableEntry.mappingFlags_fields (e : PageTableEntry) : e.mappingFlags.writable = e.writable ∧
    e.mappingFlags.executable = (!e.writable && !e.noExecute) := by
  unfold mappingFlags
  cases e.writable <;> cases e.noExecute <;> decide

/-- The walk over links that give at least the rights of the leaf has the rights of the leaf. -/
private theorem PageWalk.gives_of_leaf {upper : List PageTableEntry} {leaf : PageTableEntry} (hleaf : leaf.IsLeaf)
    (hupper : ∀ e ∈ upper, e.IsLink ∧ Below leaf e) (a : U64) :
    PageWalk.Gives ⟨upper, leaf, 12⟩ a leaf.addr leaf.mappingFlags := by
  obtain ⟨hwritable, hexecutable⟩ := leaf.mappingFlags_fields
  have hentries : ∀ P : PageTableEntry → Prop, (∀ e ∈ PageWalk.entries ⟨upper, leaf, 12⟩, P e) ↔
      (∀ e ∈ upper, P e) ∧ P leaf := by
    intro P
    rw [PageWalk.entries, List.forall_mem_append, List.forall_mem_singleton]
  have halign := leaf.isFrame_addr.1
  refine ⟨?_, halign, ?_, ?_, ?_⟩
  · apply BitVec.eq_of_toNat_eq
    have hlt := leaf.toNat_addr_lt
    simp only [PageWalk.physical, BitVec.toNat_ofNat, BitVec.toNat_add]
    omega
  · rw [hentries]
    exact ⟨fun e he => ⟨(hupper e he).1.present, (hupper e he).2.2 hleaf.user⟩, hleaf.present, hleaf.user⟩
  · rw [hentries, hwritable]
    exact ⟨fun h => h.2, fun h => ⟨fun e he => (hupper e he).2.1 h, h⟩⟩
  · rw [hentries, hexecutable]
    constructor
    · intro h
      have hw : leaf.writable = false := by
        cases hw : leaf.writable with
        | false => rfl
        | true => exact absurd (hleaf.exclusive hw) (by rw [h.2]; decide)
      rw [hw, h.2]
      rfl
    · intro h
      simp only [Bool.and_eq_true, Bool.not_eq_true'] at h
      exact ⟨fun e he => (hupper e he).1.executable, h.2⟩

/-- The processor, with the root active, finds the pages that the tree maps, and no others. -/
theorem UserTrees.walk_eq {T : U64 → PageTable} {roots : List U64} {r : U64} (h : UserTrees T roots) (hr : r ∈ roots)
    (x : U64) (hlow : x.toNat < 2 ^ 47) :
    match mappingIn T r (.containing x) with
    | none => PageWalk.descend T x 4 (T r) = none
    | some (frame, flags) => ∃ w, PageWalk.descend T x 4 (T r) = some w ∧ w.Gives x frame flags := by
  have hindex : ∀ n, PageWalk.index (pageStartOf x) (12 + 9 * n) = PageWalk.index x (12 + 9 * n) := by
    intro n
    apply X86ActiveUserMemory.index_congr
    rw [toNat_pageStartOf]
    omega
  have hpath : pathFrom (pageStartOf x) 3 = pathFrom x 3 := by
    simp only [pathFrom, hindex]
  have hlow' : (pageStartOf x).toNat < 2 ^ 47 := by
    rw [toNat_pageStartOf]
    omega
  have hmapping : mappingIn T r (.containing x) =
      (tableAt T r (pathFrom x 3)).bind fun t => leafMapping (T t (PageWalk.index x 12)) := by
    show (if (pageStartOf x).toNat < 2 ^ 47 then _ else none) = _
    rw [if_pos hlow']
    show ((tableAt T r (pathFrom (pageStartOf x) 3)).bind
      fun t => leafMapping (T t (PageWalk.index (pageStartOf x) 12))) = _
    rw [hpath, hindex 0]
  rw [hmapping]
  rcases h.descend_cases hr x hlow (n := 3) (p := []) (c := r) rfl rfl rfl with
    ⟨hnone, hmap⟩ | ⟨t, upper, ht, hleaf, hwalk, hall, -⟩
  · rw [show ((tableAt T r (pathFrom x 3)).bind fun t => leafMapping (T t (PageWalk.index x 12))) = none from hmap]
    exact hnone
  · rw [show tableAt T r (pathFrom x 3) = some t from ht, Option.bind_some, leafMapping, if_pos hleaf.present]
    exact ⟨_, hwalk, PageWalk.gives_of_leaf hleaf (fun e he => ⟨(hall e he).1, (hall e he).2.2⟩) x⟩

/-- The walk of an address of the lower half goes through tables of the address space. -/
theorem UserTrees.inUse_of_walk {T : U64 → PageTable} {roots : List U64} {r : U64} (h : UserTrees T roots)
    (hr : r ∈ roots) {x : U64} (hlow : x.toNat < 2 ^ 47) {w : PageWalk} (hw : PageWalk.descend T x 4 (T r) = some w) :
    ∀ e ∈ w.upper, InUse T roots e.addr := by
  rcases h.descend_cases hr x hlow (n := 3) (p := []) (c := r) rfl rfl rfl with
    ⟨hnone, -⟩ | ⟨t, upper, -, -, hwalk, hall, -⟩
  · rw [hnone] at hw
    cases hw
  · rw [hwalk] at hw
    cases hw
    exact fun e he => (hall e he).2.1

end X11Os
