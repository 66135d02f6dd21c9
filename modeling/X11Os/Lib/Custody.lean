import Mathlib.Data.List.Basic
import Mathlib.Logic.Function.Basic

/-!
# Continuations in custody

Threads share one processor.  The thread that has it leaves with a continuation, which is stored under its name, and
another thread is given the processor with the continuation that is stored for it.  A `Custody` is the owner of the
processor and the store; what is stored for the owner has no meaning.  When every change is a `Step`, a thread that is
given the processor again gets the continuation with which it has last left (`Returned`).
-/

/-- An element of a list that has grown at its end is the new one or an old one. -/
theorem List.split_concat {α : Type} {l before after : List α} {a e : α} (h : l ++ [e] = before ++ a :: after) :
    (l = before ∧ e = a) ∨ ∃ rest, l = before ++ a :: rest := by
  rcases List.eq_nil_or_concat after with rfl | ⟨rest, last, rfl⟩
  · obtain ⟨hl, hlast⟩ := List.append_inj' h rfl
    exact .inl ⟨hl, List.singleton_inj.mp hlast⟩
  · rw [List.concat_eq_append, ← List.cons_append, ← List.append_assoc] at h
    exact .inr ⟨rest, (List.append_inj' h rfl).1⟩

structure Custody (T K : Type) where
  owner : T
  stored : T → Option K

inductive CustodyEvent (T K : Type) where
  | left (thread : T) (continuation : K)
  | given (thread : T) (continuation : K)
deriving DecidableEq, Repr

namespace Custody

variable {T K : Type} [DecidableEq T]

/-! ### What has left last -/

/-- The continuation with which a thread has last left. -/
def lastLeft (trace : List (CustodyEvent T K)) (t : T) : Option K :=
  (trace.filterMap fun
    | .left t' k => if t' = t then some k else none
    | .given _ _ => none).getLast?

theorem lastLeft_left (trace : List (CustodyEvent T K)) (t : T) (k : K) :
    lastLeft (trace ++ [.left t k]) t = some k := by
  simp [lastLeft]

theorem lastLeft_left_of_ne (trace : List (CustodyEvent T K)) {t t' : T} (h : t' ≠ t) (k : K) :
    lastLeft (trace ++ [.left t' k]) t = lastLeft trace t := by
  simp [lastLeft, h]

theorem lastLeft_given (trace : List (CustodyEvent T K)) (t t' : T) (k : K) :
    lastLeft (trace ++ [.given t' k]) t = lastLeft trace t := by
  simp [lastLeft]

/-- Whoever is given the processor again gets what it has left with. -/
def Returned (trace : List (CustodyEvent T K)) : Prop :=
  ∀ before t k after, trace = before ++ .given t k :: after → ∀ k', lastLeft before t = some k' → k = k'

private theorem Returned.left {trace : List (CustodyEvent T K)} (h : Returned trace) (t : T) (k : K) :
    Returned (trace ++ [.left t k]) := by
  intro before t' k' after heq
  rcases List.split_concat heq with ⟨-, hevent⟩ | ⟨rest, htrace⟩
  · cases hevent
  · exact h before t' k' rest htrace

private theorem Returned.given {trace : List (CustodyEvent T K)} (h : Returned trace) {t : T} {k : K}
    (hk : ∀ k', lastLeft trace t = some k' → k = k') : Returned (trace ++ [.given t k]) := by
  intro before t' k' after heq
  rcases List.split_concat heq with ⟨rfl, hevent⟩ | ⟨rest, htrace⟩
  · cases hevent
    exact hk
  · exact h before t' k' rest htrace

/-! ### Steps -/

inductive Step : Custody T K → List (CustodyEvent T K) → Custody T K → Prop where
  | keep {c c' : Custody T K} (howner : c'.owner = c.owner) (hstored : ∀ t, t ≠ c.owner → c'.stored t = c.stored t) :
      Step c [] c'
  | add {c c' : Custody T K} (t : T) (k : K) (howner : c'.owner = c.owner) (hfresh : c.stored t = none)
      (hstored : c'.stored = Function.update c.stored t (some k)) : Step c [] c'
  | handover {c c' : Custody T K} (k k' : K) (hne : c'.owner ≠ c.owner) (hnext : c.stored c'.owner = some k')
      (hleft : c'.stored c.owner = some k)
      (hstored : ∀ t, t ≠ c.owner → t ≠ c'.owner → c'.stored t = c.stored t) :
      Step c [.left c.owner k, .given c'.owner k'] c'

/-- A thread without the processor has its last continuation in the store. -/
structure Kept (trace : List (CustodyEvent T K)) (c : Custody T K) : Prop where
  stored : ∀ t k, t ≠ c.owner → lastLeft trace t = some k → c.stored t = some k
  returned : Returned trace

theorem Kept.initial (c : Custody T K) : Kept [] c where
  stored t k _ h := by cases h
  returned before t k after h := by simp at h

theorem Step.kept {c c' : Custody T K} {trace events : List (CustodyEvent T K)} (h : Step c events c')
    (hc : Kept trace c) : Kept (trace ++ events) c' := by
  cases h with
  | keep howner hstored =>
    rw [List.append_nil]
    refine ⟨fun t k ht hk => ?_, hc.returned⟩
    rw [howner] at ht
    rw [hstored t ht, hc.stored t k ht hk]
  | add t k howner hfresh hstored =>
    rw [List.append_nil]
    refine ⟨fun t' k' ht' hk' => ?_, hc.returned⟩
    rw [howner] at ht'
    have hold := hc.stored t' k' ht' hk'
    -- nothing has been stored under a fresh name
    have hne : t' ≠ t := by
      rintro rfl
      rw [hfresh] at hold
      cases hold
    rw [hstored, Function.update_of_ne hne, hold]
  | handover k k' hne hnext hleft hstored =>
    rw [List.append_cons]
    refine ⟨fun t k'' ht hk'' => ?_, (hc.returned.left c.owner k).given fun k'' hk'' => ?_⟩
    · rw [lastLeft_given] at hk''
      by_cases howner : t = c.owner
      · subst howner
        rw [lastLeft_left, Option.some.injEq] at hk''
        rw [hleft, hk'']
      · rw [lastLeft_left_of_ne trace (Ne.symm howner)] at hk''
        rw [hstored t howner ht, hc.stored t k'' howner hk'']
    · rw [lastLeft_left_of_ne trace hne.symm] at hk''
      have hold := hc.stored c'.owner k'' hne hk''
      rw [hnext, Option.some.injEq] at hold
      exact hold

end Custody
