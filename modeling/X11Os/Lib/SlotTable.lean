import Mathlib.Data.List.Basic
import X11Os.Lib.KeyedSlots
import X11Os.Lib.Panics

/-!
# Tables of optional entries, by position

`KeyedSlots` says what a table of keyed entries is.  Here are the ways in which a program walks such a table: it looks
for a slot or for an entry and writes through a mutable reference, or it looks for a position and indexes.  Each of
them is one of the operations of `KeyedSlots`.
-/

/-- A mutable reference into a structure: the value it refers to, and the structure after a write. -/
structure RefMut (σ α : Type) where
  value : α
  write : α → σ

/-- The structure is itself a part of a larger one. -/
def RefMut.within {σ τ α : Type} (f : σ → τ) (r : RefMut σ α) : RefMut τ α := ⟨r.value, fun a => f (r.write a)⟩

/-! ### Positions of a list -/

namespace List

variable {β : Type}

/-- `iter_mut().find(p)` -/
def findMut (p : β → Bool) : List β → Option (RefMut (List β) β)
  | [] => none
  | x :: rest => if p x then some ⟨x, (· :: rest)⟩ else (findMut p rest).map (.within (x :: ·))

/-- `split_at_mut(mid)` -/
def splitAtMut (l : List β) (mid : Nat) : Panics (List β × List β) :=
  if mid ≤ l.length then .returned (l.take mid, l.drop mid) else .panicked

/-- `l[i]` -/
def index (l : List β) (i : Nat) : Panics β :=
  match l[i]? with
  | some x => .returned x
  | none => .panicked

theorem splitAtMut_of_getElem? {l : List β} {i : Nat} {x : β} (h : l[i]? = some x) :
    l.splitAtMut i = .returned (l.take i, l.drop i) := by
  obtain ⟨hi, -⟩ := List.getElem?_eq_some_iff.mp h
  rw [splitAtMut, if_pos (Nat.le_of_lt hi)]

private theorem index_of_getElem? {l : List β} {i : Nat} {x : β} (h : l[i]? = some x) : l.index i = .returned x := by
  rw [index, h]

theorem index_take {l : List β} {i j : Nat} {x : β} (hij : i < j) (h : l[i]? = some x) :
    (l.take j).index i = .returned x :=
  index_of_getElem? (by rw [getElem?_take_of_lt hij, h])

theorem index_drop {l : List β} {i : Nat} {x : β} (h : l[i]? = some x) : (l.drop i).index 0 = .returned x :=
  index_of_getElem? (by rw [getElem?_drop, Nat.add_zero, h])

/-- A write to the left part. -/
theorem set_take_append_drop {l : List β} {i j : Nat} (x : β) (hij : i < j) (hj : j ≤ l.length) :
    (l.take j).set i x ++ l.drop j = l.set i x := by
  conv_rhs => rw [← List.take_append_drop j l]
  rw [set_append_left]
  rw [length_take]
  omega

/-- A write to the head of the right part. -/
theorem take_append_set_drop {l : List β} {i : Nat} (x : β) (hi : i ≤ l.length) :
    l.take i ++ (l.drop i).set 0 x = l.set i x := by
  have hlength : (l.take i).length = i := by rw [length_take, Nat.min_eq_left hi]
  conv_rhs => rw [← List.take_append_drop i l]
  rw [set_append_right _ _ (Nat.le_of_eq hlength), hlength, Nat.sub_self]

end List

/-! ### Slots and entries -/

namespace SlotTable

variable {α κ : Type}

/-- `iter_mut().filter_map(as_mut).find(p)` -/
def findEntryMut (p : α → Bool) : List (Option α) → Option (RefMut (List (Option α)) α)
  | [] => none
  | none :: rest => (findEntryMut p rest).map (.within (none :: ·))
  | some a :: rest =>
    if p a then some ⟨a, fun b => some b :: rest⟩ else (findEntryMut p rest).map (.within (some a :: ·))

variable [DecidableEq κ] (key : α → κ)

/-- The slot holds the entry of the key. -/
def holds (k : κ) (slot : Option α) : Bool := slot.any fun a => key a = k

/-- The entry of the key, searched from the front. -/
def find (slots : List (Option α)) (k : κ) : Option α := slots.reduceOption.find? fun a => key a = k

/-- The position of the entry of the key. -/
def indexOf (slots : List (Option α)) (k : κ) : Option Nat := slots.findIdx? (holds key k)

variable {key}

open KeyedSlots

private theorem find_cons_of_eq {rest : List (Option α)} {k : κ} {a : α} (ha : key a = k) :
    find key (some a :: rest) k = some a := by
  rw [find, List.reduceOption_cons_of_some]
  exact List.find?_cons_of_pos (by simpa using ha)

private theorem find_cons_of_ne {rest : List (Option α)} {k : κ} {a : α} (ha : key a ≠ k) :
    find key (some a :: rest) k = find key rest k := by
  rw [find, List.reduceOption_cons_of_some]
  exact List.find?_cons_of_neg (by simpa using ha)

/-- The first empty slot, or a new one at the end. -/
theorem findMut_isNone (a : α) (slots : List (Option α)) :
    (match slots.findMut Option.isNone with
      | some slot => slot.write (some a)
      | none => slots ++ [some a]) = fillFirst a slots := by
  induction slots with
  | nil => rfl
  | cons x rest ih =>
    cases x with
    | none => rfl
    | some b =>
      rw [fillFirst, ← ih, List.findMut, if_neg (by simp)]
      cases rest.findMut Option.isNone <;> rfl

/-- A write to the slot that holds the key. -/
private theorem findMut_holds (k : κ) (slots : List (Option α)) :
    slots.findMut (holds key k) =
      (find key slots k).map fun a => ⟨some a, fun x => alterFirst key k (fun _ => x) slots⟩ := by
  induction slots with
  | nil => rfl
  | cons x rest ih =>
    cases x with
    | none =>
      rw [List.findMut, if_neg (by simp [holds]), ih, Option.map_map]
      rfl
    | some a =>
      by_cases ha : key a = k
      · simp only [List.findMut, holds, Option.any_some, ha, decide_true, if_true, find_cons_of_eq ha,
          Option.map_some, alterFirst]
      · simp only [List.findMut, ha, ih, Option.map_map, find_cons_of_ne ha, alterFirst, holds, Option.any_some,
          decide_false, Bool.false_eq_true, if_false]
        rfl

/-- A write to the entry of the key. -/
private theorem findEntryMut_key (k : κ) (slots : List (Option α)) :
    findEntryMut (fun a => key a = k) slots =
      (find key slots k).map fun a => ⟨a, fun b => alterFirst key k (fun _ => some b) slots⟩ := by
  induction slots with
  | nil => rfl
  | cons x rest ih =>
    cases x with
    | none =>
      rw [findEntryMut, ih, Option.map_map]
      rfl
    | some a =>
      by_cases ha : key a = k
      · simp only [findEntryMut, ha, decide_true, if_true, find_cons_of_eq ha, Option.map_some, alterFirst]
      · simp only [findEntryMut, ha, ih, Option.map_map, find_cons_of_ne ha, alterFirst, decide_false,
          Bool.false_eq_true, if_false]
        rfl

theorem indexOf_eq_none {k : κ} {slots : List (Option α)} (h : find key slots k = none) :
    indexOf key slots k = none := by
  induction slots with
  | nil => rfl
  | cons x rest ih =>
    cases x with
    | none =>
      rw [indexOf, List.findIdx?_cons, if_neg (by simp [holds])]
      exact Option.map_eq_none_iff.mpr (ih h)
    | some a =>
      by_cases ha : key a = k
      · rw [find_cons_of_eq ha] at h
        cases h
      · rw [find_cons_of_ne ha] at h
        rw [indexOf, List.findIdx?_cons, if_neg (by simpa [holds] using ha)]
        exact Option.map_eq_none_iff.mpr (ih h)

/-- The position of the entry of the key, and a write there. -/
theorem indexOf_eq_some {k : κ} {slots : List (Option α)} {a : α} (h : find key slots k = some a) :
    ∃ i, indexOf key slots k = some i ∧ slots[i]? = some (some a) ∧
      ∀ x, slots.set i x = alterFirst key k (fun _ => x) slots := by
  induction slots with
  | nil => cases h
  | cons x rest ih =>
    cases x with
    | none =>
      obtain ⟨i, hi, hslot, hset⟩ := ih h
      refine ⟨i + 1, ?_, hslot, fun y => ?_⟩
      · rw [indexOf, List.findIdx?_cons, if_neg (by simp [holds])]
        exact Option.map_eq_some_iff.mpr ⟨i, hi, rfl⟩
      · rw [List.set_cons_succ, hset, alterFirst]
    | some b =>
      by_cases hb : key b = k
      · rw [find_cons_of_eq hb] at h
        refine ⟨0, ?_, congrArg some h, fun y => ?_⟩
        · rw [indexOf, List.findIdx?_cons, if_pos (by simpa [holds] using hb)]
        · rw [List.set_cons_zero, alterFirst, if_pos hb]
      · rw [find_cons_of_ne hb] at h
        obtain ⟨i, hi, hslot, hset⟩ := ih h
        refine ⟨i + 1, ?_, hslot, fun y => ?_⟩
        · rw [indexOf, List.findIdx?_cons, if_neg (by simpa [holds] using hb)]
          exact Option.map_eq_some_iff.mpr ⟨i, hi, rfl⟩
        · rw [List.set_cons_succ, hset, alterFirst, if_neg hb]

end SlotTable

/-! ### Writes to a keyed table -/

namespace KeyedSlots

variable {α κ : Type} {key : α → κ}

/-- Two slots with entries of one key are the same slot. -/
theorem slot_unique (t : KeyedSlots key) {i j : Nat} {a b : α} (hi : t.slots[i]? = some (some a))
    (hj : t.slots[j]? = some (some b)) (hkey : key a = key b) : i = j := by
  have hdistinct : t.slots.Pairwise fun x y => ∀ a, x = some a → ∀ b, y = some b → key a ≠ key b := by
    have hnodup := t.nodup
    rw [List.Nodup, List.pairwise_map, List.reduceOption, List.pairwise_filterMap] at hnodup
    exact hnodup
  rw [List.pairwise_iff_getElem] at hdistinct
  obtain ⟨hi, hslot⟩ := List.getElem?_eq_some_iff.mp hi
  obtain ⟨hj, hslot'⟩ := List.getElem?_eq_some_iff.mp hj
  rcases Nat.lt_trichotomy i j with hlt | heq | hgt
  · exact absurd hkey (hdistinct i j hi hj hlt a hslot b hslot')
  · exact heq
  · exact absurd hkey.symm (hdistinct j i hj hi hgt b hslot' a hslot)

variable [DecidableEq κ]

private theorem alterFirst_of_find {k : κ} {slots : List (Option α)} {a : α} (f : α → Option α)
    (h : SlotTable.find key slots k = some a) : alterFirst key k (fun _ => f a) slots = alterFirst key k f slots := by
  induction slots with
  | nil => rfl
  | cons x rest ih =>
    cases x with
    | none => exact congrArg (none :: ·) (ih h)
    | some b =>
      by_cases hb : key b = k
      · rw [SlotTable.find_cons_of_eq hb, Option.some.injEq] at h
        rw [alterFirst, alterFirst, if_pos hb, if_pos hb, h]
      · rw [SlotTable.find_cons_of_ne hb] at h
        rw [alterFirst, alterFirst, if_neg hb, if_neg hb, ih h]

/-- Replaces the entry of a key. -/
def put (t : KeyedSlots key) (k : κ) (b : α) (hb : key b = k) : KeyedSlots key :=
  t.modify k (fun a => if key a = k then b else a) fun a => by
    split_ifs with ha
    · rw [hb, ha]
    · rfl

theorem get_put {t : KeyedSlots key} {k : κ} {a b : α} (hb : key b = k) (h : t.get k = some a) :
    (t.put k b hb).get = Function.update t.get k (some b) := by
  rw [put, get_modify, h, Option.map_some, if_pos (key_of_get h)]

theorem slots_put {t : KeyedSlots key} {k : κ} {a b : α} (hb : key b = k) (h : t.get k = some a) :
    (t.put k b hb).slots = alterFirst key k (fun _ => some b) t.slots := by
  have halter := alterFirst_of_find (fun a => some (if key a = k then b else a)) h
  rw [if_pos (key_of_get h)] at halter
  exact halter.symm

theorem slots_modify {t : KeyedSlots key} {k : κ} {f : α → α} (hf : ∀ a, key (f a) = key a) {a : α}
    (h : t.get k = some a) : (t.modify k f hf).slots = alterFirst key k (fun _ => some (f a)) t.slots :=
  (alterFirst_of_find (fun a => some (f a)) h).symm

/-! ### References into a keyed table -/

/-- The slot of a key: there is none, or what is written to it is the erasure of the key. -/
theorem findMut_cases (t : KeyedSlots key) (k : κ) :
    (t.get k = none ∧ t.slots.findMut (SlotTable.holds key k) = none) ∨
      ∃ a write, t.get k = some a ∧ t.slots.findMut (SlotTable.holds key k) = some ⟨some a, write⟩ ∧
        write none = (t.erase k).slots := by
  rw [SlotTable.findMut_holds]
  cases hget : t.get k with
  | none =>
    have hfind : SlotTable.find key t.slots k = none := hget
    exact .inl ⟨rfl, by rw [hfind, Option.map_none]⟩
  | some a =>
    have hfind : SlotTable.find key t.slots k = some a := hget
    rw [hfind, Option.map_some]
    exact .inr ⟨a, _, rfl, rfl, rfl⟩

theorem findEntryMut_of_none {t : KeyedSlots key} {k : κ} (h : t.get k = none) :
    SlotTable.findEntryMut (fun a => key a = k) t.slots = none := by
  have hfind : SlotTable.find key t.slots k = none := h
  rw [SlotTable.findEntryMut_key, hfind, Option.map_none]

theorem findEntryMut_of_some {t : KeyedSlots key} {k : κ} {a : α} (h : t.get k = some a) :
    ∃ write, SlotTable.findEntryMut (fun a => key a = k) t.slots = some ⟨a, write⟩ ∧
      ∀ b (hb : key b = k), write b = (t.put k b hb).slots := by
  have hfind : SlotTable.find key t.slots k = some a := h
  rw [SlotTable.findEntryMut_key, hfind, Option.map_some]
  exact ⟨_, rfl, fun b hb => (slots_put hb h).symm⟩

/-- Two tables that differ in the entry of one key at most. -/
def SameBut (k : κ) (t t' : KeyedSlots key) : Prop := ∀ j, j ≠ k → t'.get j = t.get j

theorem SameBut.refl (k : κ) (t : KeyedSlots key) : SameBut k t t := fun _ _ => rfl

theorem sameBut_of_update {t t' : KeyedSlots key} {k : κ} {x : Option α} (h : t'.get = Function.update t.get k x) :
    SameBut k t t' := by
  intro j hj
  rw [h, Function.update_of_ne hj]

end KeyedSlots
