import Mathlib.Data.List.Induction
import X11Os.Lib.Supply

/-!
# Items that are handed out and taken back

A state machine whose calls hand out items and take some of them back.  `held` is the set of items that are out.  When
each call hands out items that were never handed out before, and takes back items that are out (`Exchange`), then over
any sequence of calls no item is handed out twice, and the items that are out are those handed out and not taken back
(`Ledger.account`).  A call need not be an exchange when it leaves the bounds of the machine (`Within`).
-/

namespace Supply

variable {σ κ α : Type} {free held : σ → Set α}

/-- One call from `s` to `s'` that hands out `given` and takes back `taken`. -/
structure Exchange (free held : σ → Set α) (s s' : σ) (given taken : List α) : Prop extends Draw free s s' given where
  wasHeld : ∀ x ∈ taken, x ∈ held s
  held_iff : ∀ x, x ∈ held s' ↔ x ∈ given ∨ x ∈ held s ∧ x ∉ taken

/-- A call that goes on without handing out or taking back anything. -/
theorem Exchange.trans_nil {s s₁ s' : σ} {given taken : List α} (h : Exchange free held s s₁ given taken)
    (h' : Exchange free held s₁ s' [] []) : Exchange free held s s' given taken where
  toDraw := by simpa using h.toDraw.trans h'.toDraw
  wasHeld := h.wasHeld
  held_iff x := by
    rw [h'.held_iff, h.held_iff]
    simp

/-- An item that is taken back within the call that hands it out is never seen to be out. -/
theorem Exchange.give_up {s s₁ s' : σ} {x : α} (h : Exchange free held s s₁ [x] []) (hx : x ∉ held s)
    (h' : Exchange free held s₁ s' [] [x]) : Exchange free held s s' [] [] where
  toDraw := (h.toDraw.trans h'.toDraw).give_up
  wasHeld := by simp
  held_iff y := by
    rw [h'.held_iff, h.held_iff]
    simp only [List.not_mem_nil, List.mem_singleton, not_false_eq_true, and_true, false_or]
    constructor
    · rintro ⟨hy | hy, hne⟩
      · exact absurd hy hne
      · exact hy
    · intro hy
      refine ⟨.inr hy, ?_⟩
      rintro rfl
      exact hx hy

/-- The calls of a machine, with what each of them hands out and takes back. -/
structure Ledger (step : σ → κ → σ) (given taken : σ → κ → List α) (Within Valid : σ → Prop)
    (free held : σ → Set α) : Prop where
  within : ∀ s c, Within (step s c) → Within s
  valid : ∀ s c, Valid s → Within (step s c) → Valid (step s c)
  exchange : ∀ s c, Valid s → Within (step s c) → Exchange free held s (step s c) (given s c) (taken s c)

namespace Ledger

variable {step : σ → κ → σ} {given taken : σ → κ → List α} {Within Valid : σ → Prop}

/-- What the calls of a sequence hand out, or take back. -/
def total (step : σ → κ → σ) (items : σ → κ → List α) (s : σ) (cs : List κ) : List α :=
  issued (fun s c => (step s c, items s c)) s cs

private theorem total_append (items : σ → κ → List α) (s : σ) (cs : List κ) (c : κ) :
    total step items s (cs ++ [c]) = total step items s cs ++ items (cs.foldl step s) c := by
  rw [total, issued_append]
  simp [issued, total]

/-- The accounts of a sequence of calls. -/
structure Account (step : σ → κ → σ) (given taken : σ → κ → List α) (Valid : σ → Prop) (free held : σ → Set α) (s : σ)
    (cs : List κ) : Prop where
  valid : Valid (cs.foldl step s)
  nodup : (total step given s cs).Nodup
  spent : ∀ x ∈ total step given s cs, x ∉ free (cs.foldl step s)
  returned : ∀ x ∈ total step taken s cs, x ∈ total step given s cs
  held_iff : ∀ x, x ∈ held (cs.foldl step s) ↔ x ∈ total step given s cs ∧ x ∉ total step taken s cs

/-- Every sequence of calls within the bounds, from a state in which nothing is out, has its accounts in order. -/
theorem account (h : Ledger step given taken Within Valid free held) {s : σ} (hs : Valid s) (hempty : ∀ x, x ∉ held s)
    (cs : List κ) (hwithin : Within (cs.foldl step s)) : Account step given taken Valid free held s cs := by
  induction cs using List.reverseRecOn with
  | nil =>
    exact ⟨hs, List.nodup_nil, fun x hx => absurd hx List.not_mem_nil, fun x hx => hx,
      fun x => ⟨fun hx => absurd hx (hempty x), fun hx => absurd hx.1 List.not_mem_nil⟩⟩
  | append_singleton cs c ih =>
    have hlast : (cs ++ [c]).foldl step s = step (cs.foldl step s) c := by
      rw [List.foldl_append]
      rfl
    rw [hlast] at hwithin
    have hbefore := ih (h.within _ c hwithin)
    have hcall := h.exchange _ c hbefore.valid hwithin
    -- what the last call hands out was free until then
    have hfresh : ∀ x ∈ given (cs.foldl step s) c, x ∉ total step given s cs :=
      fun x hx hx' => hbefore.spent x hx' (hcall.wasFree x hx)
    have hheld : ∀ x ∈ taken (cs.foldl step s) c, x ∈ total step given s cs ∧ x ∉ total step taken s cs :=
      fun x hx => (hbefore.held_iff x).mp (hcall.wasHeld x hx)
    constructor
    · rw [hlast]
      exact h.valid _ c hbefore.valid hwithin
    · rw [total_append]
      refine List.nodup_append.mpr ⟨hbefore.nodup, hcall.nodup, ?_⟩
      rintro x hx _ hx' rfl
      exact hfresh x hx' hx
    · rw [total_append, hlast]
      intro x hx hfree
      obtain ⟨hfree', hnot⟩ := hcall.remains x hfree
      rcases List.mem_append.mp hx with hx | hx
      · exact hbefore.spent x hx hfree'
      · exact hnot hx
    · rw [total_append, total_append]
      intro x hx
      rcases List.mem_append.mp hx with hx | hx
      · exact List.mem_append_left _ (hbefore.returned x hx)
      · exact List.mem_append_left _ (hheld x hx).1
    · intro x
      rw [total_append, total_append, hlast, hcall.held_iff, hbefore.held_iff, List.mem_append, List.mem_append,
        not_or]
      constructor
      · rintro (hx | ⟨⟨hgiven, htaken⟩, hkept⟩)
        · exact ⟨.inr hx, fun hx' => hfresh x hx (hbefore.returned x hx'), fun hx' => hfresh x hx (hheld x hx').1⟩
        · exact ⟨.inl hgiven, htaken, hkept⟩
      · rintro ⟨hgiven | hgiven, htaken, hkept⟩
        · exact .inr ⟨⟨hgiven, htaken⟩, hkept⟩
        · exact .inl hgiven

end Ledger

end Supply
