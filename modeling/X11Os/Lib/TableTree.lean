import Mathlib.Data.List.Induction
import Mathlib.Logic.Function.Basic

/-!
# Trees of tables in a memory

A memory `T` holds a table of entries at every address, and `link n i e` is the table that the entry `e` at index `i`
leads to, if any, from a table that has `n + 1` levels below it.  A path of indexes is followed from a root (`node`).

A forest is a set of roots whose tables are all reached on one way only.  A write that keeps the links of the tables
of a forest keeps its tables (`node_congr`), and a write that adds one link, to an empty table outside the forest,
adds exactly one table (`Forest.node_grow`, `Forest.grow`).
-/

namespace TableTree

variable {A I E : Type} {link : Nat → I → E → Option A} {T T' : A → I → E} {n : Nat} {r a b c : A} {p q : List I}
  {i j : I}

/-- The table that one entry leads to, from a table with `n` levels below it. -/
def follow (link : Nat → I → E → Option A) (T : A → I → E) : Nat → A → I → Option A
  | 0, _, _ => none
  | n + 1, a, i => link n i (T a i)

@[simp] theorem follow_zero : follow link T 0 a i = none := rfl

/-- The table at the end of a path. -/
def node (link : Nat → I → E → Option A) (T : A → I → E) : Nat → A → List I → Option A
  | _, a, [] => some a
  | n, a, i :: path => (follow link T n a i).bind fun b => node link T (n - 1) b path

@[simp] theorem node_nil : node link T n a [] = some a := rfl

theorem node_concat :
    node link T n a (p ++ [i]) = (node link T n a p).bind fun b => follow link T (n - p.length) b i := by
  induction p generalizing n a with
  | nil =>
    show (follow link T n a i).bind some = follow link T n a i
    cases follow link T n a i <;> rfl
  | cons k p ih =>
    have hlevels : n - (k :: p).length = n - 1 - p.length := by
      rw [List.length_cons]
      omega
    rw [List.cons_append, node, node, Option.bind_assoc, hlevels]
    simp only [ih]

theorem node_concat_eq_some : node link T n a (p ++ [i]) = some c ↔
    ∃ b, node link T n a p = some b ∧ follow link T (n - p.length) b i = some c := by
  rw [node_concat, Option.bind_eq_some_iff]

theorem node_append_none (h : node link T n a p = none) : node link T n a (p ++ q) = none := by
  induction q using List.reverseRecOn with
  | nil => rwa [List.append_nil]
  | append_singleton q i ih => rw [← List.append_assoc, node_concat, ih, Option.bind_none]

theorem length_le_of_node (h : node link T n a p = some b) : p.length ≤ n := by
  induction p using List.reverseRecOn generalizing b with
  | nil => exact Nat.zero_le n
  | append_singleton p i ih =>
    obtain ⟨c, hc, hfollow⟩ := node_concat_eq_some.mp h
    have hle := ih hc
    rw [List.length_append, List.length_singleton]
    by_contra hlong
    rw [show n - p.length = 0 by omega] at hfollow
    cases hfollow

/-- Memories whose tables at the places of a tree have the same links hold the same tree. -/
theorem node_congr (h : ∀ p b, node link T n a p = some b →
    ∀ i, follow link T' (n - p.length) b i = follow link T (n - p.length) b i) :
    node link T' n a q = node link T n a q := by
  induction q using List.reverseRecOn with
  | nil => rfl
  | append_singleton q i ih =>
    rw [node_concat, node_concat, ih]
    cases hnode : node link T n a q with
    | none => rfl
    | some b => exact h q b hnode i

/-! ### Forests -/

/-- The table is one of the trees with these roots. -/
def Occupied (link : Nat → I → E → Option A) (T : A → I → E) (n : Nat) (roots : List A) (a : A) : Prop :=
  ∃ r ∈ roots, ∃ p, node link T n r p = some a

/-- Every table of the trees is reached on one way only. -/
def Forest (link : Nat → I → E → Option A) (T : A → I → E) (n : Nat) (roots : List A) : Prop :=
  ∀ r ∈ roots, ∀ r' ∈ roots, ∀ p p' a, node link T n r p = some a → node link T n r' p' = some a → r = r' ∧ p = p'

variable {roots : List A}

theorem occupied_root (hr : r ∈ roots) : Occupied link T n roots r := ⟨r, hr, [], rfl⟩

theorem Forest.congr (h : Forest link T n roots)
    (hsame : ∀ r ∈ roots, ∀ q, node link T' n r q = node link T n r q) : Forest link T' n roots := by
  intro r hr r' hr' p p' a ha ha'
  rw [hsame r hr] at ha
  rw [hsame r' hr'] at ha'
  exact h r hr r' hr' p p' a ha ha'

theorem Occupied.congr (hsame : ∀ r ∈ roots, ∀ q, node link T' n r q = node link T n r q) :
    Occupied link T' n roots a ↔ Occupied link T n roots a := by
  refine exists_congr fun r => and_congr_right fun hr => exists_congr fun p => ?_
  rw [hsame r hr]

/-- A new root whose table has no links and lies outside the forest. -/
theorem Forest.cons (h : Forest link T n roots) (hnew : ¬ Occupied link T n roots a)
    (hempty : ∀ i, follow link T n a i = none) : Forest link T n (a :: roots) := by
  have hpath : ∀ {p b}, node link T n a p = some b → p = [] ∧ b = a := by
    intro p b hb
    cases p with
    | nil => exact ⟨rfl, (Option.some.inj hb).symm⟩
    | cons i p =>
      rw [node, hempty i] at hb
      cases hb
  intro r hr r' hr' p p' b hb hb'
  rcases List.mem_cons.mp hr with rfl | hold
  · obtain ⟨rfl, rfl⟩ := hpath hb
    rcases List.mem_cons.mp hr' with rfl | hold'
    · exact ⟨rfl, (hpath hb').1.symm⟩
    · exact absurd ⟨r', hold', p', hb'⟩ hnew
  · rcases List.mem_cons.mp hr' with rfl | hold'
    · rw [(hpath hb').2] at hb
      exact absurd ⟨r, hold, p, hb⟩ hnew
    · exact h r hold r' hold' p p' b hb hb'

/-- One entry of the table at `p` changes from no link to a link to the table `b`, which has no links; the other links
stay. -/
structure Grows (link : Nat → I → E → Option A) (T T' : A → I → E) (n : Nat) (roots : List A) (r : A) (p : List I)
    (a : A) (i : I) (b : A) : Prop where
  root : r ∈ roots
  place : node link T n r p = some a
  unlinked : follow link T (n - p.length) a i = none
  linked : follow link T' (n - p.length) a i = some b
  others : ∀ r' ∈ roots, ∀ q c, node link T n r' q = some c → ∀ j, (c = a → j ≠ i) →
    follow link T' (n - q.length) c j = follow link T (n - q.length) c j
  fresh : ¬ Occupied link T n roots b
  empty : ∀ m j, follow link T' m b j = none

/-- The new table is the only one that has come. -/
theorem Forest.node_grow [DecidableEq A] [DecidableEq I] (h : Forest link T n roots)
    (hgrows : Grows link T T' n roots r p a i b) {r' : A} (hr' : r' ∈ roots)
    (q : List I) : node link T' n r' q = if r' = r ∧ q = p ++ [i] then some b else node link T n r' q := by
  -- along the path, from its front: up to the new link nothing has changed, and behind it there is nothing
  induction q using List.reverseRecOn with
  | nil => rw [if_neg (by simp)]; rfl
  | append_singleton q j ih =>
    rw [node_concat, ih]
    by_cases hnew : r' = r ∧ q = p ++ [i]
    · obtain ⟨rfl, rfl⟩ := hnew
      have hlong : ¬ (r' = r' ∧ p ++ [i] ++ [j] = p ++ [i]) := by simp
      have hnone : node link T n r' (p ++ [i]) = none := by
        rw [node_concat, hgrows.place, Option.bind_some, hgrows.unlinked]
      rw [if_pos ⟨rfl, rfl⟩, if_neg hlong, node_concat, hnone, Option.bind_some, hgrows.empty]
      rfl
    · rw [if_neg hnew]
      by_cases hend : r' = r ∧ q = p ∧ j = i
      · obtain ⟨rfl, rfl, rfl⟩ := hend
        rw [if_pos ⟨rfl, rfl⟩, hgrows.place, Option.bind_some, hgrows.linked]
      · have hother : ¬ (r' = r ∧ q ++ [j] = p ++ [i]) := by
          rintro ⟨rfl, heq⟩
          obtain ⟨rfl, hij⟩ := List.append_inj' heq rfl
          exact hend ⟨rfl, rfl, List.head_eq_of_cons_eq hij⟩
        rw [if_neg hother, node_concat]
        cases hc : node link T n r' q with
        | none => rfl
        | some c =>
          refine hgrows.others r' hr' q c hc j fun hca hji => hend ?_
          subst hca hji
          obtain ⟨rfl, rfl⟩ := h r' hr' r hgrows.root q p c hc hgrows.place
          exact ⟨rfl, rfl, rfl⟩

/-- A table that stays where it was. -/
theorem Forest.node_of_grows (h : Forest link T n roots) (hgrows : Grows link T T' n roots r p a i b) {r' : A}
    (hr' : r' ∈ roots) (hc : node link T n r' q = some c) : node link T' n r' q = some c := by
  classical
  rw [h.node_grow hgrows hr', if_neg, hc]
  rintro ⟨rfl, rfl⟩
  rw [node_concat, hgrows.place, Option.bind_some, hgrows.unlinked] at hc
  cases hc

theorem Forest.grow (h : Forest link T n roots) (hgrows : Grows link T T' n roots r p a i b) :
    Forest link T' n roots := by
  classical
  intro r₁ hr₁ r₂ hr₂ p₁ p₂ c hc₁ hc₂
  rw [h.node_grow hgrows hr₁] at hc₁
  rw [h.node_grow hgrows hr₂] at hc₂
  split_ifs at hc₁ hc₂ with hnew₁ hnew₂ hnew₂
  · exact ⟨hnew₁.1.trans hnew₂.1.symm, hnew₁.2.trans hnew₂.2.symm⟩
  · cases hc₁
    exact absurd ⟨r₂, hr₂, p₂, hc₂⟩ hgrows.fresh
  · cases hc₂
    exact absurd ⟨r₁, hr₁, p₁, hc₁⟩ hgrows.fresh
  · exact h r₁ hr₁ r₂ hr₂ p₁ p₂ c hc₁ hc₂

theorem Forest.occupied_grow (h : Forest link T n roots) (hgrows : Grows link T T' n roots r p a i b) :
    Occupied link T' n roots c ↔ c = b ∨ Occupied link T n roots c := by
  classical
  constructor
  · rintro ⟨r', hr', q, hc⟩
    rw [h.node_grow hgrows hr'] at hc
    split_ifs at hc
    · exact .inl (Option.some.inj hc).symm
    · exact .inr ⟨r', hr', q, hc⟩
  · rintro (rfl | ⟨r', hr', q, hc⟩)
    · exact ⟨r, hgrows.root, p ++ [i], by rw [h.node_grow hgrows hgrows.root, if_pos ⟨rfl, rfl⟩]⟩
    · exact ⟨r', hr', q, h.node_of_grows hgrows hr' hc⟩

end TableTree
