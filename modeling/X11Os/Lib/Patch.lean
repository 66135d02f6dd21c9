import Mathlib.Data.Set.Basic

/-!
# Patches of a memory

A patch says what a region of a memory holds.  `Patched l m m'` says that `m'` is the memory `m` with the patches of
the list applied: every region holds its content, and nothing else has changed.  Patches that agree where they meet
can be applied one after the other (`Patched.append`).
-/

variable {α β : Type} {m m₁ m' : α → β}

structure Patch (α β : Type) where
  region : Set α
  content : α → β

structure Patched (l : List (Patch α β)) (m m' : α → β) : Prop where
  inside : ∀ p ∈ l, ∀ x ∈ p.region, m' x = p.content x
  outside : ∀ x, (∀ p ∈ l, x ∉ p.region) → m' x = m x

namespace Patched

theorem nil (m : α → β) : Patched [] m m := ⟨fun _ hp => absurd hp List.not_mem_nil, fun _ _ => rfl⟩

theorem single {p : Patch α β} (hin : ∀ x ∈ p.region, m' x = p.content x) (hout : ∀ x, x ∉ p.region → m' x = m x) :
    Patched [p] m m' :=
  ⟨fun _ hq => List.mem_singleton.mp hq ▸ hin, fun x hx => hout x (hx p (List.mem_singleton_self p))⟩

theorem append {l l' : List (Patch α β)} (h : Patched l m m₁) (h' : Patched l' m₁ m')
    (hagree : ∀ p ∈ l, ∀ q ∈ l', ∀ x ∈ p.region, x ∈ q.region → p.content x = q.content x) :
    Patched (l ++ l') m m' := by
  refine ⟨fun p hp x hx => ?_, fun x hx => ?_⟩
  · rcases List.mem_append.mp hp with hp | hp
    · by_cases hlater : ∃ q ∈ l', x ∈ q.region
      · obtain ⟨q, hq, hxq⟩ := hlater
        rw [h'.inside q hq x hxq, hagree p hp q hq x hx hxq]
      · rw [h'.outside x fun q hq hxq => hlater ⟨q, hq, hxq⟩]
        exact h.inside p hp x hx
    · exact h'.inside p hp x hx
  · rw [h'.outside x fun q hq => hx q (List.mem_append_right _ hq)]
    exact h.outside x fun p hp => hx p (List.mem_append_left _ hp)

end Patched
