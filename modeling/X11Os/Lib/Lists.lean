import Mathlib.Data.List.Forall2
import Mathlib.Data.List.Pairwise

/-!
# Lists that belong together, and lists whose entries have nothing in common

Entry-wise related lists (`List.Forall₂`) by membership, `List.maxByKey`, and `Exclusive R l`: no two entries of the
list are related to the same thing, as ranges without a common address or plans without a common page.
-/

variable {α β : Type} {R : α → β → Prop}

namespace List.Forall₂

theorem exists_left {l : List α} {l' : List β} (h : Forall₂ R l l') {b : β} (hb : b ∈ l') : ∃ a ∈ l, R a b := by
  induction h with
  | nil => cases hb
  | cons hr _ ih =>
    rcases mem_cons.mp hb with rfl | hb
    · exact ⟨_, mem_cons_self, hr⟩
    · obtain ⟨a, ha, hr⟩ := ih hb
      exact ⟨a, mem_cons_of_mem _ ha, hr⟩

theorem exists_right {l : List α} {l' : List β} (h : Forall₂ R l l') {a : α} (ha : a ∈ l) : ∃ b ∈ l', R a b :=
  h.flip.exists_left ha

theorem imp_of_mem_left {S : α → β → Prop} {l : List α} {l' : List β} (h : Forall₂ R l l')
    (hS : ∀ a ∈ l, ∀ b, R a b → S a b) : Forall₂ S l l' := by
  induction h with
  | nil => exact .nil
  | cons hr _ ih =>
    rw [forall_mem_cons] at hS
    exact .cons (hS.1 _ hr) (ih hS.2)

theorem map_eq {γ : Type} {f : α → γ} {g : β → γ} {l : List α} {l' : List β} (h : Forall₂ R l l')
    (hfg : ∀ a b, R a b → f a = g b) : l.map f = l'.map g := by
  induction h with
  | nil => rfl
  | cons hr _ ih => rw [map_cons, map_cons, hfg _ _ hr, ih]

end List.Forall₂

theorem List.mapM_eq_some_map {f : α → Option β} {g : α → β} {l : List α} (h : ∀ a ∈ l, f a = some (g a)) :
    l.mapM f = some (l.map g) := by
  induction l with
  | nil => rfl
  | cons a l ih =>
    rw [List.forall_mem_cons] at h
    simp [List.mapM_cons, h.1, ih h.2]

theorem List.mapM_eq_none_of_mem {f : α → Option β} {l : List α} {a : α} (ha : a ∈ l) (h : f a = none) :
    l.mapM f = none := by
  induction l with
  | nil => cases ha
  | cons b l ih =>
    rcases List.mem_cons.mp ha with rfl | ha
    · simp [List.mapM_cons, h]
    · cases hb : f b <;> simp [List.mapM_cons, hb, ih ha]

/-- A lookup behind its own check of the bounds. -/
theorem List.getElem?_guarded (l : List α) (index : Nat) :
    (if index ≥ l.length then none else l[index]?) = l[index]? := by
  split_ifs with h
  · exact (List.getElem?_eq_none h).symm
  · rfl

/-- `max_by_key`: the last one of the entries with the largest key. -/
def List.maxByKey (key : α → Nat) : List α → Option α
  | [] => none
  | x :: l =>
    match maxByKey key l with
    | none => some x
    | some y => if key y < key x then some x else some y

theorem List.maxByKey_eq_none {key : α → Nat} {l : List α} : l.maxByKey key = none ↔ l = [] := by
  cases l with
  | nil => exact iff_of_true rfl rfl
  | cons x l =>
    rw [maxByKey]
    split
    · simp
    · split_ifs <;> simp

theorem List.maxByKey_eq_some {key : α → Nat} {l : List α} {x : α} (h : l.maxByKey key = some x) :
    x ∈ l ∧ ∀ y ∈ l, key y ≤ key x := by
  induction l generalizing x with
  | nil => cases h
  | cons a l ih =>
    rw [maxByKey] at h
    rw [forall_mem_cons, mem_cons]
    split at h
    · rename_i hl
      cases h
      rw [maxByKey_eq_none.mp hl]
      exact ⟨.inl rfl, Nat.le_refl _, fun _ hy => absurd hy not_mem_nil⟩
    · rename_i y hl
      obtain ⟨hy, hmax⟩ := ih hl
      split_ifs at h with hlt <;> cases h
      · exact ⟨.inl rfl, Nat.le_refl _, fun z hz => Nat.le_trans (hmax z hz) (Nat.le_of_lt hlt)⟩
      · exact ⟨.inr hy, Nat.not_lt.mp hlt, hmax⟩

def Exclusive (R : α → β → Prop) (l : List α) : Prop := l.Pairwise fun x y => ∀ p, ¬ (R x p ∧ R y p)

/-- A thing is related to one entry at most. -/
theorem Exclusive.eq_of_common {l : List α} (h : Exclusive R l) {x y : α} (hx : x ∈ l) (hy : y ∈ l) {p : β}
    (hxp : R x p) (hyp : R y p) : x = y := by
  by_contra hne
  have hsymm : Std.Symm fun x y : α => ∀ p, ¬ (R x p ∧ R y p) := ⟨fun _ _ hno p hp => hno p hp.symm⟩
  exact h.forall hx hy hne p ⟨hxp, hyp⟩
