import Mathlib.Logic.Function.Basic

/-!
# Partial maps and what has been added to them

`Extended base m log` says that the map `m` is `base` with the keys of `log` added, in this order.  Adding a key that
the map does not have extends the log; removing the last key takes it back, and with an empty log the map is `base`
again.  `Recorded base m entries` is the same with the values that have been added.
-/

variable {κ ν : Type} {base m : κ → Option ν} {log : List κ} {k : κ}

structure Extended (base m : κ → Option ν) (log : List κ) : Prop where
  nodup : log.Nodup
  added : ∀ k ∈ log, base k = none ∧ (m k).isSome
  kept : ∀ k, k ∉ log → m k = base k

namespace Extended

theorem refl (m : κ → Option ν) : Extended m m [] :=
  ⟨List.nodup_nil, fun _ hk => absurd hk List.not_mem_nil, fun _ _ => rfl⟩

theorem eq_base (h : Extended base m []) : m = base := funext fun k => h.kept k List.not_mem_nil

theorem last (h : Extended base m (log ++ [k])) : (m k).isSome := (h.added k (by simp)).2

variable [DecidableEq κ]

theorem push (h : Extended base m log) (hk : m k = none) (v : ν) :
    Extended base (Function.update m k (some v)) (log ++ [k]) := by
  have hfresh : k ∉ log := by
    intro hmem
    have hsome := (h.added k hmem).2
    rw [hk] at hsome
    cases hsome
  refine ⟨?_, fun k' hk' => ?_, fun k' hk' => ?_⟩
  · refine List.nodup_append.mpr ⟨h.nodup, List.pairwise_singleton _ k, ?_⟩
    rintro x hx y hy rfl
    exact hfresh (List.mem_singleton.mp hy ▸ hx)
  · rcases List.mem_append.mp hk' with hk' | hk'
    · have hne : k' ≠ k := fun heq => hfresh (heq ▸ hk')
      rw [Function.update_of_ne hne]
      exact h.added k' hk'
    · obtain rfl := List.mem_singleton.mp hk'
      rw [Function.update_self]
      exact ⟨h.kept _ hfresh ▸ hk, rfl⟩
  · rw [List.mem_append, not_or, List.mem_singleton] at hk'
    rw [Function.update_of_ne hk'.2]
    exact h.kept k' hk'.1

theorem pop (h : Extended base m (log ++ [k])) : Extended base (Function.update m k none) log := by
  have hnodup := List.nodup_append.mp h.nodup
  have hfresh : k ∉ log := fun hk => hnodup.2.2 k hk k (List.mem_singleton_self k) rfl
  refine ⟨hnodup.1, fun k' hk' => ?_, fun k' hk' => ?_⟩
  · have hne : k' ≠ k := fun heq => hfresh (heq ▸ hk')
    rw [Function.update_of_ne hne]
    exact h.added k' (List.mem_append_left _ hk')
  · by_cases heq : k' = k
    · rw [heq, Function.update_self, (h.added k (by simp)).1]
    · rw [Function.update_of_ne heq]
      exact h.kept k' (by simp [hk', heq])

end Extended

structure Recorded (base m : κ → Option ν) (entries : List (κ × ν)) : Prop where
  extended : Extended base m (entries.map Prod.fst)
  value : ∀ e ∈ entries, m e.1 = some e.2

namespace Recorded

variable {entries : List (κ × ν)}

theorem refl (m : κ → Option ν) : Recorded m m [] := ⟨.refl m, fun _ he => absurd he List.not_mem_nil⟩

/-- The map has what it had before and the entries. -/
theorem eq_some_iff (h : Recorded base m entries) {v : ν} : m k = some v ↔ base k = some v ∨ (k, v) ∈ entries := by
  constructor
  · intro hk
    by_cases hmem : k ∈ entries.map Prod.fst
    · obtain ⟨e, he, rfl⟩ := List.mem_map.mp hmem
      have hv : v = e.2 := Option.some.inj (hk.symm.trans (h.value e he))
      exact .inr (hv ▸ he)
    · exact .inl (h.extended.kept k hmem ▸ hk)
  · rintro (hk | he)
    · have hmem : k ∉ entries.map Prod.fst := by
        intro hmem
        rw [(h.extended.added k hmem).1] at hk
        cases hk
      rw [h.extended.kept k hmem, hk]
    · exact h.value _ he

theorem push [DecidableEq κ] (h : Recorded base m entries) (hk : m k = none) (v : ν) :
    Recorded base (Function.update m k (some v)) (entries ++ [(k, v)]) := by
  refine ⟨?_, fun e he => ?_⟩
  · rw [List.map_append]
    exact h.extended.push hk v
  · rcases List.mem_append.mp he with he | he
    · have hne : e.1 ≠ k := by
        intro heq
        have hsome := h.value e he
        rw [heq, hk] at hsome
        cases hsome
      rw [Function.update_of_ne hne]
      exact h.value e he
    · obtain rfl := List.mem_singleton.mp he
      exact Function.update_self ..

end Recorded
