import Mathlib.Data.List.Basic

/-!
# Sequences of self-delimiting records

A record begins with a header that tells how long the whole record is.  `Tiles F rs l` says that the records `rs`, one
after the other, are the string `l`; `F.split l` finds them by reading one header after the other.  A string has at
most one such decomposition, and `split` finds it (`split_eq_some`).
-/

/-- The length of a header, which counts as part of its record, and the length of the record as read
from the header. -/
structure RecordFormat (α : Type) where
  header : Nat
  header_pos : 0 < header
  size : List α → Nat

namespace RecordFormat

variable {α : Type} {F : RecordFormat α} {r l : List α} {rs : List (List α)}

structure IsRecord (F : RecordFormat α) (r : List α) : Prop where
  header_le : F.header ≤ r.length
  size_eq : F.size (r.take F.header) = r.length

structure Tiles (F : RecordFormat α) (rs : List (List α)) (l : List α) : Prop where
  flatten : rs.flatten = l
  isRecord : ∀ r ∈ rs, F.IsRecord r

/-- The length of the record at the front of a string. -/
def front (F : RecordFormat α) (l : List α) : Nat := F.size (l.take F.header)

def split (F : RecordFormat α) (l : List α) : Option (List (List α)) :=
  if l.isEmpty then some []
  else if _hsize : F.header ≤ F.front l ∧ F.front l ≤ l.length then
    (F.split (l.drop (F.front l))).map fun rs => l.take (F.front l) :: rs
  else none
termination_by l.length
decreasing_by
  have hpos := Nat.lt_of_lt_of_le F.header_pos _hsize.1
  rw [List.length_drop]
  omega

@[simp]
theorem split_nil : F.split [] = some [] := by
  rw [split]
  rfl

theorem split_of_ne_nil (hl : l ≠ []) (h : F.header ≤ F.front l) (h' : F.front l ≤ l.length) :
    F.split l = (F.split (l.drop (F.front l))).map fun rs => l.take (F.front l) :: rs := by
  rw [split, if_neg (by rwa [List.isEmpty_iff]), dif_pos ⟨h, h'⟩]

theorem split_eq_none_of (hl : l ≠ []) (h : ¬ (F.header ≤ F.front l ∧ F.front l ≤ l.length)) : F.split l = none := by
  rw [split, if_neg (by rwa [List.isEmpty_iff]), dif_neg h]

/-- The piece at the front of a string is a record. -/
private theorem isRecord_take_front (h : F.header ≤ F.front l) (h' : F.front l ≤ l.length) :
    F.IsRecord (l.take (F.front l)) := by
  have hlength : (l.take (F.front l)).length = F.front l := List.length_take_of_le h'
  refine ⟨by rwa [hlength], ?_⟩
  rw [hlength, List.take_take, Nat.min_eq_left h, front]

private theorem IsRecord.front_append (hr : F.IsRecord r) (l : List α) : F.front (r ++ l) = r.length := by
  rw [front, List.take_append_of_le_length hr.header_le, hr.size_eq]

private theorem IsRecord.ne_nil (hr : F.IsRecord r) : r ≠ [] := by
  have hheader := hr.header_le
  have hpos := F.header_pos
  intro hnil
  rw [hnil, List.length_nil] at hheader
  omega

private theorem IsRecord.split_append (hr : F.IsRecord r) (l : List α) :
    F.split (r ++ l) = (F.split l).map fun rs => r :: rs := by
  have hfront := hr.front_append l
  rw [split_of_ne_nil (fun h => hr.ne_nil (List.append_eq_nil_iff.mp h).1) (hfront ▸ hr.header_le)
    (by rw [hfront, List.length_append]; omega), hfront, List.drop_left, List.take_left]

private theorem Tiles.of_split (h : F.split l = some rs) : F.Tiles rs l := by
  fun_induction F.split l generalizing rs with
  | case1 l hl =>
    cases h
    exact ⟨(List.isEmpty_iff.mp hl).symm, fun _ hr => absurd hr List.not_mem_nil⟩
  | case2 l _ hsize ih =>
    obtain ⟨rest, hrest, rfl⟩ := Option.map_eq_some_iff.mp h
    have htiles := ih hrest
    refine ⟨?_, List.forall_mem_cons.mpr ⟨isRecord_take_front hsize.1 hsize.2, htiles.isRecord⟩⟩
    rw [List.flatten_cons, htiles.flatten, List.take_append_drop]
  | case3 => cases h

private theorem split_flatten (h : ∀ r ∈ rs, F.IsRecord r) : F.split rs.flatten = some rs := by
  induction rs with
  | nil => exact split_nil
  | cons r rs ih =>
    rw [List.forall_mem_cons] at h
    rw [List.flatten_cons, h.1.split_append, ih h.2, Option.map_some]

/-- The decomposition of a string into records is found. -/
theorem split_eq_some : F.split l = some rs ↔ F.Tiles rs l :=
  ⟨Tiles.of_split, fun h => h.flatten ▸ split_flatten h.isRecord⟩

theorem Tiles.unique {rs' : List (List α)} (h : F.Tiles rs l) (h' : F.Tiles rs' l) : rs = rs' := by
  rw [← split_eq_some] at h h'
  exact Option.some_inj.mp (h.symm.trans h')

theorem split_eq_none : F.split l = none ↔ ¬ ∃ rs, F.Tiles rs l := by
  simp only [← split_eq_some, Option.eq_none_iff_forall_ne_some, not_exists]

end RecordFormat
