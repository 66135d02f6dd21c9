import Mathlib.Data.List.ReduceOption
import Mathlib.Data.List.Nodup
import Mathlib.Logic.Function.Basic

/-!
# Tables of optional entries

A growing table of slots, some of them empty, whose entries carry distinct keys.  The table is searched from
the front; since the keys are distinct it behaves as a finite map: `get` after an operation is an update of
`get` before it.
-/

/-- What holds of every entry of a map holds after an update with such an entry. -/
theorem forall_update {K V W : Type} [DecidableEq K] {entry : V → W} {g : K → W} {φ : K → V → Prop}
    (h : ∀ k v, g k = entry v → φ k v) {k₀ : K} {x : W} (hx : ∀ v, x = entry v → φ k₀ v) :
    ∀ k v, Function.update g k₀ x k = entry v → φ k v :=
  (Function.forall_update_iff g fun k y => ∀ v, y = entry v → φ k v).mpr ⟨hx, fun k _ => h k⟩

structure KeyedSlots {α κ : Type} (key : α → κ) where
  slots : List (Option α)
  nodup : (slots.reduceOption.map key).Nodup

namespace KeyedSlots

variable {α κ : Type} {key : α → κ}

def empty : KeyedSlots key := ⟨[], List.nodup_nil⟩

/-- The entries that are present, in order. -/
def entries (t : KeyedSlots key) : List α := t.slots.reduceOption

variable [DecidableEq κ]

def get (t : KeyedSlots key) (k : κ) : Option α := t.entries.find? fun a => key a = k

private theorem get_eq_none {t : KeyedSlots key} {k : κ} : t.get k = none ↔ ∀ a ∈ t.entries, key a ≠ k := by
  simp [get]

private theorem get_eq_some {t : KeyedSlots key} {k : κ} {a : α} : t.get k = some a ↔ a ∈ t.entries ∧ key a = k := by
  constructor
  · intro h
    exact ⟨List.mem_of_find?_eq_some h, by simpa using List.find?_some h⟩
  · rintro ⟨hmem, rfl⟩
    cases hget : t.get (key a) with
    | none => exact absurd rfl (get_eq_none.mp hget a hmem)
    | some b =>
      have hb := List.mem_of_find?_eq_some hget
      have hkey : key b = key a := by simpa using List.find?_some hget
      rw [List.inj_on_of_nodup_map t.nodup hb hmem hkey]

theorem key_of_get {t : KeyedSlots key} {k : κ} {a : α} (h : t.get k = some a) : key a = k := (get_eq_some.mp h).2

/-- A table that has the same entries but for one key is an update. -/
private theorem get_update {t t' : KeyedSlots key} {k : κ} {x : Option α}
    (hself : ∀ a, (a ∈ t'.entries ∧ key a = k) ↔ x = some a)
    (hother : ∀ a, key a ≠ k → (a ∈ t'.entries ↔ a ∈ t.entries)) : t'.get = Function.update t.get k x := by
  funext j
  apply Option.ext
  intro a
  rw [get_eq_some]
  by_cases hj : j = k
  · rw [hj, Function.update_self]
    exact hself a
  · rw [Function.update_of_ne hj, get_eq_some]
    constructor
    · rintro ⟨hmem, rfl⟩
      exact ⟨(hother a hj).mp hmem, rfl⟩
    · rintro ⟨hmem, rfl⟩
      exact ⟨(hother a hj).mpr hmem, rfl⟩

/-! ### Adding an entry -/

/-- The first empty slot takes the entry; a full table grows. -/
def fillFirst (a : α) : List (Option α) → List (Option α)
  | [] => [some a]
  | none :: rest => some a :: rest
  | some b :: rest => some b :: fillFirst a rest

private theorem reduceOption_fillFirst_perm (a : α) (l : List (Option α)) :
    (fillFirst a l).reduceOption.Perm (a :: l.reduceOption) := by
  induction l with
  | nil => exact List.Perm.refl _
  | cons x rest ih =>
    cases x with
    | none => exact List.Perm.refl _
    | some b => exact (ih.cons b).trans (List.Perm.swap a b _)

private theorem nodup_of_perm {t : KeyedSlots key} {a : α} {l : List (Option α)} (h : t.get (key a) = none)
    (hl : l.reduceOption.Perm (a :: t.entries)) : (l.reduceOption.map key).Nodup := by
  rw [(hl.map key).nodup_iff, List.map_cons, List.nodup_cons]
  refine ⟨fun hmem => ?_, t.nodup⟩
  obtain ⟨b, hb, hkey⟩ := List.mem_map.mp hmem
  exact get_eq_none.mp h b hb hkey

/-- The entry goes to the first empty slot. -/
def fill (t : KeyedSlots key) (a : α) (h : t.get (key a) = none) : KeyedSlots key :=
  ⟨fillFirst a t.slots, nodup_of_perm h (reduceOption_fillFirst_perm a t.slots)⟩

private theorem append_perm (a : α) (l : List (Option α)) :
    (l ++ [some a]).reduceOption.Perm (a :: l.reduceOption) := by
  rw [List.reduceOption_append, List.reduceOption_singleton]
  exact List.perm_append_comm

/-- The entry goes to a new slot at the end. -/
def push (t : KeyedSlots key) (a : α) (h : t.get (key a) = none) : KeyedSlots key :=
  ⟨t.slots ++ [some a], nodup_of_perm h (append_perm a t.slots)⟩

private theorem get_of_perm {t t' : KeyedSlots key} {a : α} (h : t.get (key a) = none)
    (hperm : t'.entries.Perm (a :: t.entries)) : t'.get = Function.update t.get (key a) (some a) := by
  refine get_update (fun b => ?_) (fun b hb => ?_)
  · rw [hperm.mem_iff, List.mem_cons, Option.some.injEq]
    constructor
    · rintro ⟨rfl | hb, hkey⟩
      · rfl
      · exact absurd hkey (get_eq_none.mp h b hb)
    · rintro rfl
      exact ⟨.inl rfl, rfl⟩
  · rw [hperm.mem_iff, List.mem_cons]
    constructor
    · rintro (rfl | hmem)
      · exact absurd rfl hb
      · exact hmem
    · exact .inr

theorem get_fill (t : KeyedSlots key) (a : α) (h : t.get (key a) = none) :
    (t.fill a h).get = Function.update t.get (key a) (some a) :=
  get_of_perm h (reduceOption_fillFirst_perm a t.slots)

theorem get_push (t : KeyedSlots key) (a : α) (h : t.get (key a) = none) :
    (t.push a h).get = Function.update t.get (key a) (some a) :=
  get_of_perm h (append_perm a t.slots)

/-! ### Changing and removing an entry -/

/-- Replaces the first entry of the key by what `f` makes of it. -/
def alterFirst (key : α → κ) (k : κ) (f : α → Option α) : List (Option α) → List (Option α)
  | [] => []
  | none :: rest => none :: alterFirst key k f rest
  | some b :: rest => if key b = k then f b :: rest else some b :: alterFirst key k f rest

private theorem alterFirst_keys {k : κ} {f : α → Option α} (hf : ∀ b a, f b = some a → key a = key b)
    (l : List (Option α)) : ((alterFirst key k f l).reduceOption.map key).Sublist (l.reduceOption.map key) := by
  induction l with
  | nil => exact List.Sublist.refl _
  | cons x rest ih =>
    cases x with
    | none => exact ih
    | some b =>
      unfold alterFirst
      split_ifs with hb
      · cases hfb : f b with
        | none => exact List.sublist_cons_self _ _
        | some a =>
          simp only [List.reduceOption_cons_of_some, List.map_cons, hf b a hfb]
          exact List.Sublist.refl _
      · exact ih.cons_cons _

/-- Changes or removes the entry of a key; the key itself stays. -/
def alter (t : KeyedSlots key) (k : κ) (f : α → Option α) (hf : ∀ b a, f b = some a → key a = key b) :
    KeyedSlots key :=
  ⟨alterFirst key k f t.slots, t.nodup.sublist (alterFirst_keys hf t.slots)⟩

def erase (t : KeyedSlots key) (k : κ) : KeyedSlots key := t.alter k (fun _ => none) fun _ _ h => by cases h

def modify (t : KeyedSlots key) (k : κ) (f : α → α) (hf : ∀ a, key (f a) = key a) : KeyedSlots key :=
  t.alter k (fun a => some (f a)) fun b a h => by rw [← Option.some.inj h, hf]

private theorem mem_alterFirst {k : κ} {f : α → Option α} {l : List (Option α)} (hl : (l.reduceOption.map key).Nodup)
    (a : α) : a ∈ (alterFirst key k f l).reduceOption ↔
      (a ∈ l.reduceOption ∧ key a ≠ k) ∨ ∃ b ∈ l.reduceOption, key b = k ∧ f b = some a := by
  induction l with
  | nil => simp [alterFirst]
  | cons x rest ih =>
    cases x with
    | none => exact ih hl
    | some b =>
      rw [List.reduceOption_cons_of_some, List.map_cons, List.nodup_cons] at hl
      unfold alterFirst
      split_ifs with hb
      · -- no entry behind `b` has its key
        have hrest : ∀ c ∈ rest.reduceOption, key c ≠ k := by
          intro c hc hkey
          exact hl.1 (List.mem_map.mpr ⟨c, hc, hkey.trans hb.symm⟩)
        have hhead : a ∈ (f b :: rest).reduceOption ↔ f b = some a ∨ a ∈ rest.reduceOption := by
          cases f b <;> simp [List.reduceOption_cons_of_some, List.reduceOption_cons_of_none, eq_comm]
        rw [hhead]
        simp only [List.reduceOption_cons_of_some, List.mem_cons, exists_eq_or_imp, hb, true_and]
        constructor
        · rintro (hfb | hmem)
          · exact .inr (.inl hfb)
          · exact .inl ⟨.inr hmem, hrest a hmem⟩
        · rintro (⟨rfl | hmem, hkey⟩ | hfb | ⟨c, hc, hkey, -⟩)
          · exact absurd hb hkey
          · exact .inr hmem
          · exact .inl hfb
          · exact absurd hkey (hrest c hc)
      · simp only [List.reduceOption_cons_of_some, List.mem_cons, ih hl.2, exists_eq_or_imp, hb, false_and, false_or]
        constructor
        · rintro (rfl | ⟨hmem, hkey⟩ | h)
          · exact .inl ⟨.inl rfl, hb⟩
          · exact .inl ⟨.inr hmem, hkey⟩
          · exact .inr h
        · rintro (⟨rfl | hmem, hkey⟩ | h)
          · exact .inl rfl
          · exact .inr (.inl ⟨hmem, hkey⟩)
          · exact .inr (.inr h)

private theorem get_alter (t : KeyedSlots key) (k : κ) (f : α → Option α) (hf : ∀ b a, f b = some a → key a = key b) :
    (t.alter k f hf).get = Function.update t.get k ((t.get k).bind f) := by
  refine get_update (fun a => ?_) (fun a ha => ?_)
  · rw [entries, alter, mem_alterFirst t.nodup, Option.bind_eq_some_iff]
    simp only [get_eq_some]
    constructor
    · rintro ⟨⟨-, hkey⟩ | ⟨b, hmem, hb, hfb⟩, ha⟩
      · exact absurd ha hkey
      · exact ⟨b, ⟨hmem, hb⟩, hfb⟩
    · rintro ⟨b, ⟨hmem, hb⟩, hfb⟩
      exact ⟨.inr ⟨b, hmem, hb, hfb⟩, (hf b a hfb).trans hb⟩
  · rw [entries, alter, mem_alterFirst t.nodup]
    constructor
    · rintro (⟨hmem, -⟩ | ⟨b, -, hb, hfb⟩)
      · exact hmem
      · exact absurd ((hf b a hfb).trans hb) ha
    · exact fun hmem => .inl ⟨hmem, ha⟩

theorem get_erase (t : KeyedSlots key) (k : κ) : (t.erase k).get = Function.update t.get k none := by
  rw [erase, get_alter, Option.bind_fun_none]

theorem get_modify (t : KeyedSlots key) (k : κ) (f : α → α) (hf : ∀ a, key (f a) = key a) :
    (t.modify k f hf).get = Function.update t.get k ((t.get k).map f) := by
  rw [modify, get_alter, Option.map_eq_bind]
  rfl

private theorem alterFirst_self {k : κ} {f : α → Option α} {l : List (Option α)}
    (h : ∀ a ∈ l.reduceOption, key a = k → f a = some a) : alterFirst key k f l = l := by
  induction l with
  | nil => rfl
  | cons x rest ih =>
    cases x with
    | none => exact congrArg (none :: ·) (ih h)
    | some b =>
      rw [List.reduceOption_cons_of_some, List.forall_mem_cons] at h
      unfold alterFirst
      split_ifs with hb
      · rw [h.1 hb]
      · rw [ih h.2]

/-- A change that leaves the entry of the key as it is. -/
theorem modify_eq_self {t : KeyedSlots key} {k : κ} {f : α → α} {hf : ∀ a, key (f a) = key a} {a : α}
    (hget : t.get k = some a) (ha : f a = a) : t.modify k f hf = t := by
  have hslots : alterFirst key k (fun a => some (f a)) t.slots = t.slots := by
    refine alterFirst_self fun b hb hkey => ?_
    have hsame : t.get k = some b := get_eq_some.mpr ⟨hb, hkey⟩
    rw [hget, Option.some.injEq] at hsame
    rw [← hsame, ha]
  cases t
  simp only [modify, alter, hslots]

/-- At most one slot holds an entry of a key. -/
theorem countP_entries (t : KeyedSlots key) (k : κ) :
    t.entries.countP (fun a => key a = k) = if (t.get k).isSome then 1 else 0 := by
  have hcount : t.entries.countP (fun a => key a = k) = (t.entries.map key).count k := by
    rw [List.count, List.countP_map]
    rfl
  rw [hcount]
  cases hget : t.get k with
  | none =>
    refine List.count_eq_zero_of_not_mem fun hmem => ?_
    obtain ⟨a, ha, hkey⟩ := List.mem_map.mp hmem
    exact get_eq_none.mp hget a ha hkey
  | some a =>
    obtain ⟨hmem, hkey⟩ := get_eq_some.mp hget
    exact List.count_eq_one_of_mem t.nodup (List.mem_map.mpr ⟨a, hmem, hkey⟩)

end KeyedSlots
