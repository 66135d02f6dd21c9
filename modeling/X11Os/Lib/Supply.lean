import Mathlib.Data.Set.Basic

/-!
# Drawing from a supply

A state from which calls draw items.  `free` is the set of items that a state can still hand out; a call may give up
items without handing them out.  When every call hands out distinct free items and leaves none of them free
(`Draws`), no item is handed out twice over any sequence of calls (`Draws.nodup_issued`).
-/

namespace Supply

variable {σ κ α : Type} {step : σ → κ → σ × List α} {Valid : σ → Prop} {free : σ → Set α}

/-- The items that a sequence of calls hands out, in order. -/
def issued (step : σ → κ → σ × List α) : σ → List κ → List α
  | _, [] => []
  | s, c :: cs => (step s c).2 ++ issued step (step s c).1 cs

theorem issued_append (s : σ) (cs cs' : List κ) :
    issued step s (cs ++ cs') = issued step s cs ++ issued step (cs.foldl (fun s c => (step s c).1) s) cs' := by
  induction cs generalizing s with
  | nil => rfl
  | cons c cs ih => simp only [List.cons_append, issued, List.foldl_cons, ih, List.append_assoc]

/-- One draw from `s` to `s'` that hands out `items`. -/
structure Draw (free : σ → Set α) (s s' : σ) (items : List α) : Prop where
  nodup : items.Nodup
  wasFree : ∀ x ∈ items, x ∈ free s
  remains : ∀ x ∈ free s', x ∈ free s ∧ x ∉ items

/-- Nothing is handed out, and no item becomes free. -/
theorem Draw.nothing {s s' : σ} (h : free s' ⊆ free s) : Draw free s s' [] :=
  ⟨List.nodup_nil, fun _ hx => absurd hx List.not_mem_nil, fun _ hx => ⟨h hx, List.not_mem_nil⟩⟩

theorem Draw.refl (s : σ) : Draw free s s [] := .nothing subset_rfl

/-- One item is handed out. -/
theorem Draw.single {s s' : σ} {x : α} (hfree : x ∈ free s) (h : ∀ y ∈ free s', y ∈ free s ∧ y ≠ x) :
    Draw free s s' [x] where
  nodup := by simp
  wasFree y hy := by rwa [List.mem_singleton.mp hy]
  remains y hy := ⟨(h y hy).1, fun hmem => (h y hy).2 (List.mem_singleton.mp hmem)⟩

/-- A draw from a state that has given up items is a draw from the state before. -/
theorem Draw.of_subset {s s₁ s' : σ} {items : List α} (h : Draw free s₁ s' items) (hsub : free s₁ ⊆ free s) :
    Draw free s s' items :=
  ⟨h.nodup, fun x hx => hsub (h.wasFree x hx), fun x hx => ⟨hsub (h.remains x hx).1, (h.remains x hx).2⟩⟩

theorem Draw.trans {s s₁ s' : σ} {items items' : List α} (h : Draw free s s₁ items) (h' : Draw free s₁ s' items') :
    Draw free s s' (items ++ items') where
  nodup := by
    refine List.nodup_append.mpr ⟨h.nodup, h'.nodup, ?_⟩
    rintro x hx _ hx' rfl
    exact (h.remains x (h'.wasFree x hx')).2 hx
  wasFree x hx := by
    rcases List.mem_append.mp hx with hx | hx
    · exact h.wasFree x hx
    · exact (h.remains x (h'.wasFree x hx)).1
  remains x hx := by
    obtain ⟨hfree, hnot'⟩ := h'.remains x hx
    obtain ⟨hfree, hnot⟩ := h.remains x hfree
    exact ⟨hfree, fun hmem => (List.mem_append.mp hmem).elim hnot hnot'⟩

/-- Items that have been drawn need not be handed out. -/
theorem Draw.give_up {s s' : σ} {items : List α} (h : Draw free s s' items) : Draw free s s' [] :=
  .nothing fun x hx => (h.remains x hx).1

/-- Every call on a valid state is a draw and leaves a valid state. -/
structure Draws (step : σ → κ → σ × List α) (Valid : σ → Prop) (free : σ → Set α) : Prop where
  valid : ∀ s c, Valid s → Valid (step s c).1
  draw : ∀ s c, Valid s → Draw free s (step s c).1 (step s c).2

theorem Draws.free_of_issued (h : Draws step Valid free) {s : σ} (hs : Valid s) {cs : List κ} {x : α}
    (hx : x ∈ issued step s cs) : x ∈ free s := by
  induction cs generalizing s with
  | nil => cases hx
  | cons c cs ih =>
    rcases List.mem_append.mp hx with hx | hx
    · exact (h.draw s c hs).wasFree x hx
    · exact ((h.draw s c hs).remains x (ih (h.valid s c hs) hx)).1

theorem Draws.nodup_issued (h : Draws step Valid free) {s : σ} (hs : Valid s) (cs : List κ) :
    (issued step s cs).Nodup := by
  induction cs generalizing s with
  | nil => exact List.nodup_nil
  | cons c cs ih =>
    refine List.nodup_append.mpr ⟨(h.draw s c hs).nodup, ih (h.valid s c hs), ?_⟩
    rintro x hx _ hx' rfl
    exact ((h.draw s c hs).remains x (h.free_of_issued (h.valid s c hs) hx')).2 hx

end Supply
