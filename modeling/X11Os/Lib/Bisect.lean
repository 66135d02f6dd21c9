import Mathlib.Data.List.Basic

/-!
# Partition points

`partitionPoint` is the binary search behind `slice::partition_point`: the window `[base, base + size)` is halved
until one element is left, and the predicate is asked once more about that element.  On a list that is not partitioned
the answer is some index up to the length and nothing more; on one where no element satisfies the predicate after one
that does not, the answer splits the list into the elements that satisfy it and those that do not.
-/

namespace Bisect

variable {α : Type}

/-- The halving loop; `fuel` bounds the number of rounds and the length of the list is always enough. -/
def narrow (pred : Nat → Bool) : Nat → Nat → Nat → Nat
  | 0, base, _ => base
  | fuel + 1, base, size =>
    if size ≤ 1 then base
    else
      let half := size / 2
      narrow pred fuel (if pred (base + half) then base + half else base) (size - half)

def partitionPoint (l : List α) (pred : α → Bool) : Nat :=
  let holds := fun i => (l[i]?).any pred
  let base := narrow holds l.length 0 l.length
  base + if holds base then 1 else 0

/-- The window always contains the end of the part where the predicate holds. -/
private theorem narrow_spec {pred : Nat → Bool} {k : Nat} (hpred : ∀ i, pred i = true ↔ i < k) (fuel base size : Nat)
    (hfuel : size ≤ fuel + 1) (hlow : base ≤ k) (hhigh : k ≤ base + size) :
    narrow pred fuel base size ≤ k ∧ k ≤ narrow pred fuel base size + 1 := by
  induction fuel generalizing base size with
  | zero => exact ⟨hlow, by simp only [narrow]; omega⟩
  | succ fuel ih =>
    unfold narrow
    split_ifs with hsize
    · exact ⟨hlow, by omega⟩
    · dsimp only
      split_ifs with hmid
      · have hmid := (hpred _).mp hmid
        exact ih _ _ (by omega) (by omega) (by omega)
      · have hmid : k ≤ base + size / 2 := Nat.le_of_not_lt fun hlt => hmid ((hpred _).mpr hlt)
        exact ih _ _ (by omega) hlow (by omega)

private theorem partitionPoint_append {pred : α → Bool} {a b : List α} (ha : ∀ x ∈ a, pred x = true)
    (hb : ∀ x ∈ b, pred x = false) : partitionPoint (a ++ b) pred = a.length := by
  have hpred : ∀ i, ((a ++ b)[i]?).any pred = true ↔ i < a.length := by
    intro i
    rcases Nat.lt_or_ge i a.length with hi | hi
    · rw [List.getElem?_append_left hi, List.getElem?_eq_getElem hi]
      simp [ha _ (List.getElem_mem hi), hi]
    · rw [List.getElem?_append_right hi]
      cases hget : b[i - a.length]? with
      | none => simp [hi]
      | some x => simp [hb x (List.mem_of_getElem? hget), hi]
  have hlength : a.length ≤ (a ++ b).length := by simp
  obtain ⟨hlow, hhigh⟩ := narrow_spec hpred (a ++ b).length 0 (a ++ b).length (by omega) (by omega) (by omega)
  unfold partitionPoint
  dsimp only
  split_ifs with hholds
  · have := (hpred _).mp hholds
    omega
  · have : ¬ _ < a.length := fun hlt => hholds ((hpred _).mpr hlt)
    omega

/-- A list in which the predicate fails from some point on. -/
private theorem filter_append_filter {pred : α → Bool} {l : List α}
    (h : l.Pairwise fun x y => pred y = true → pred x = true) :
    l.filter pred ++ l.filter (fun x => !pred x) = l := by
  induction l with
  | nil => rfl
  | cons x l ih =>
    obtain ⟨hx, hl⟩ := List.pairwise_cons.mp h
    by_cases hpx : pred x = true
    · simp [hpx, ih hl]
    · have hnone : ∀ y ∈ l, ¬ pred y = true := fun y hy hpy => hpx (hx y hy hpy)
      have hall : l.filter (fun x => !pred x) = l := List.filter_eq_self.mpr fun y hy => by simp [hnone y hy]
      simp [hpx, List.filter_eq_nil_iff.mpr hnone, hall]

section Split

variable {pred : α → Bool} {l : List α} (h : l.Pairwise fun x y => pred y = true → pred x = true)

include h

private theorem partitionPoint_eq : partitionPoint l pred = (l.filter pred).length := by
  have hsplit : partitionPoint (l.filter pred ++ l.filter fun x => !pred x) pred = (l.filter pred).length :=
    partitionPoint_append (fun x hx => (List.mem_filter.mp hx).2)
    (fun x hx => by simpa using (List.mem_filter.mp hx).2)
  rwa [filter_append_filter h] at hsplit

theorem take_partitionPoint : l.take (partitionPoint l pred) = l.filter pred := by
  have htake : (l.filter pred ++ l.filter fun x => !pred x).take (l.filter pred).length = l.filter pred :=
    List.take_left
  rwa [filter_append_filter h, ← partitionPoint_eq h] at htake

theorem drop_partitionPoint : l.drop (partitionPoint l pred) = l.filter fun x => !pred x := by
  have hdrop : (l.filter pred ++ l.filter fun x => !pred x).drop (l.filter pred).length = l.filter fun x => !pred x :=
    List.drop_left
  rwa [filter_append_filter h, ← partitionPoint_eq h] at hdrop

end Split

end Bisect
