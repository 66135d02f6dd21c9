import Mathlib.Data.Vector.Basic
import X11Os.Lib.Panics

/-!
# Arrays that are filled from the front

An array of `n` places, of which the first `count` are taken.  `Filled slots count l` says that they hold the entries
of `l`; `push` takes the next place, and drops the entry when there is none, so what a run of `push` leaves are the
first `n` entries (`Filled.push`).
-/

namespace SlotArray

variable {α : Type} {n : Nat} {slots : Vector (Option α) n} {count : Nat} {l : List α} {x : α}

def push (slots : Vector (Option α) n) (count : Nat) (x : α) : Vector (Option α) n × Nat :=
  if count < n then (slots.setIfInBounds count (some x), count + 1) else (slots, count)

/-- `slots[..count]`. -/
def upTo (slots : Vector (Option α) n) (count : Nat) : Panics (List (Option α)) :=
  if count ≤ n then .returned (slots.toList.take count) else .panicked

structure Filled (slots : Vector (Option α) n) (count : Nat) (l : List α) : Prop where
  count_eq : count = l.length
  toList_eq : slots.toList = l.map some ++ List.replicate (n - count) none

theorem filled_empty : Filled (Vector.replicate n (none : Option α)) 0 [] :=
  ⟨rfl, by simp⟩

private theorem Filled.count_le (h : Filled slots count l) : count ≤ n := by
  have hlength := congrArg List.length h.toList_eq
  rw [Vector.length_toList, List.length_append, List.length_map, ← h.count_eq] at hlength
  omega

theorem Filled.upTo (h : Filled slots count l) : upTo slots count = .returned (l.map some) := by
  rw [SlotArray.upTo, if_pos h.count_le, h.toList_eq, List.take_left' (by rw [List.length_map, h.count_eq])]

theorem Filled.push {done : List α} (h : Filled slots count (done.take n)) (x : α) :
    Filled (push slots count x).1 (push slots count x).2 ((done ++ [x]).take n) := by
  have hcount := h.count_eq
  rw [List.length_take] at hcount
  unfold SlotArray.push
  split_ifs with hroom
  · have hdone : done.take n = done := List.take_of_length_le (by omega)
    have hnext : (done ++ [x]).take n = done ++ [x] :=
      List.take_of_length_le (by rw [List.length_append]; simp; omega)
    rw [hnext]
    refine ⟨by simp; omega, ?_⟩
    have hfree : n - count = (n - (count + 1)) + 1 := by omega
    rw [Vector.toList_setIfInBounds, h.toList_eq, hdone, hfree, List.replicate_succ, List.map_append,
      List.set_append_right _ _ (by simp; omega), List.length_map, show count - done.length = 0 by omega,
      List.set_cons_zero, List.append_assoc]
    rfl
  · have hfull : (done ++ [x]).take n = done.take n := List.take_append_of_le_length (by omega)
    rw [hfull]
    exact h

end SlotArray
