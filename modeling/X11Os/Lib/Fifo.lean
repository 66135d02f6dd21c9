import Mathlib.Data.List.Basic

/-!
# Queues served in order

A machine with a queue that is filled at its tail and served at its head: whatever a step adds comes after what is
waiting, and what a step serves is the first of all that (`Passes`).  Then whoever waits moves one place with every
call that serves, and is served by the call that finds it at the head: nobody is overtaken (`InOrder.position`,
`InOrder.turn`).
-/

namespace Fifo

variable {σ ι α : Type*}

/-- From the queue `q` to the queue `q'`: some elements are added at the tail and at most one is served
at the head. -/
def Passes (q : List α) (served : Option α) (q' : List α) : Prop := ∃ added, q ++ added = served.toList ++ q'

namespace Passes

variable {q q' : List α} {k : ℕ} {x y : α}

private theorem getElem?_fill {added : List α} (hk : q[k]? = some x) : (q ++ added)[k]? = some x := by
  rw [List.getElem?_append_left (List.getElem?_eq_some_iff.mp hk).choose, hk]

private theorem waits (h : Passes q none q') (hk : q[k]? = some x) : q'[k]? = some x := by
  obtain ⟨added, hl⟩ := h
  have hl : q ++ added = q' := hl
  rw [← hl, getElem?_fill hk]

private theorem moves (h : Passes q (some y) q') (hk : q[k + 1]? = some x) : q'[k]? = some x := by
  obtain ⟨added, hl⟩ := h
  have hl : q ++ added = y :: q' := hl
  rw [← List.getElem?_cons_succ, ← hl, getElem?_fill hk]

private theorem isServed (h : Passes q (some y) q') (hk : q[0]? = some x) : y = x := by
  obtain ⟨added, hl⟩ := h
  have hl : q ++ added = y :: q' := hl
  have hx : (y :: q')[0]? = some x := by rw [← hl, getElem?_fill hk]
  exact Option.some.inj hx

end Passes

/-- A machine that serves a queue: `calls` says which of its steps are calls for the next element, `served` which
element a step serves. -/
structure Machine (σ ι α : Type*) where
  step : σ → ι → σ
  queue : σ → List α
  calls : σ → ι → Bool
  served : σ → ι → Option α

/-- In the states with `inv` the machine serves its queue in order, and a call serves if anybody is waiting. -/
structure Machine.InOrder (m : Machine σ ι α) (inv : σ → Prop) : Prop where
  keeps : ∀ s op, inv s → inv (m.step s op)
  passes : ∀ s op, inv s → Passes (m.queue s) (m.served s op) (m.queue (m.step s op))
  served_none : ∀ s op, m.calls s op = false → m.served s op = none
  served_some : ∀ s op, inv s → m.calls s op = true → m.queue s ≠ [] → (m.served s op).isSome

namespace Machine

variable {m : Machine σ ι α} {inv : σ → Prop}

/-- How many calls there are in a run. -/
def callsIn (m : Machine σ ι α) (s : σ) : List ι → ℕ
  | [] => 0
  | op :: ops => (m.calls s op).toNat + m.callsIn (m.step s op) ops

theorem InOrder.keeps_foldl (h : m.InOrder inv) {s : σ} (hs : inv s) (ops : List ι) : inv (ops.foldl m.step s) := by
  induction ops generalizing s with
  | nil => exact hs
  | cons op ops ih => exact ih (h.keeps s op hs)

/-- A call serves somebody if there is somebody at position `k` of the queue. -/
private theorem InOrder.call_passes (h : m.InOrder inv) {s : σ} (hs : inv s) {k : ℕ} {x : α}
    (hk : (m.queue s)[k]? = some x) {op : ι} (hcall : m.calls s op = true) :
    ∃ y, m.served s op = some y ∧ Passes (m.queue s) (some y) (m.queue (m.step s op)) := by
  have hq : m.queue s ≠ [] := by
    intro hnil
    rw [hnil, List.getElem?_nil] at hk
    cases hk
  obtain ⟨y, hy⟩ := Option.isSome_iff_exists.mp (h.served_some s op hs hcall hq)
  exact ⟨y, hy, hy ▸ h.passes s op hs⟩

/-- Whoever waits at position `k` moves one place with each call. -/
theorem InOrder.position (h : m.InOrder inv) {s : σ} (hs : inv s) {k : ℕ} {x : α} (hk : (m.queue s)[k]? = some x)
    (ops : List ι) (hcalls : m.callsIn s ops ≤ k) :
    (m.queue (ops.foldl m.step s))[k - m.callsIn s ops]? = some x := by
  induction ops generalizing s k with
  | nil => exact hk
  | cons op ops ih =>
    rw [List.foldl_cons]
    cases hcall : m.calls s op with
    | false =>
      have hstep := h.passes s op hs
      rw [h.served_none s op hcall] at hstep
      simp only [callsIn, hcall, Bool.toNat_false, Nat.zero_add] at hcalls ⊢
      exact ih (h.keeps s op hs) (hstep.waits hk) hcalls
    | true =>
      obtain ⟨y, -, hstep⟩ := h.call_passes hs hk hcall
      simp only [callsIn, hcall, Bool.toNat_true] at hcalls ⊢
      obtain ⟨k, rfl⟩ : ∃ j, k = j + 1 := ⟨k - 1, by omega⟩
      have hrest := ih (h.keeps s op hs) (hstep.moves hk) (by omega)
      rwa [show k + 1 - (1 + m.callsIn (m.step s op) ops) = k - m.callsIn (m.step s op) ops by omega]

/-- The call after `k` calls serves the element that was at position `k`. -/
theorem InOrder.turn (h : m.InOrder inv) {s : σ} (hs : inv s) {k : ℕ} {x : α} (hk : (m.queue s)[k]? = some x)
    {ops : List ι} (hcalls : m.callsIn s ops = k) {op : ι} (hcall : m.calls (ops.foldl m.step s) op = true) :
    m.served (ops.foldl m.step s) op = some x := by
  have hpos := h.position hs hk ops (Nat.le_of_eq hcalls)
  rw [hcalls, Nat.sub_self] at hpos
  obtain ⟨y, hy, hstep⟩ := h.call_passes (h.keeps_foldl hs ops) hpos hcall
  rw [hy, hstep.isServed hpos]

end Machine

end Fifo
