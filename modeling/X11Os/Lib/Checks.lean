import X11Os.Lib.Panics

/-!
# Calls that check a condition

`Ends x R E` says that the call `x` never panics, and returns a value with `R` or an error with `E`.  `Checks x Q R`
says that it succeeds exactly when `Q` holds, and then returns a value with `R`.  The rules follow the program: each
of them disposes of one statement, and asks that a rejection at this statement has `E`, or refutes `Q`.
-/

namespace Fallible

variable {α β ε : Type} {Q : Prop} {R : α → Prop} {E : ε → Prop}

def Ends (x : Fallible ε α) (R : α → Prop) (E : ε → Prop) : Prop :=
  (∃ a, x.run = .returned (.ok a) ∧ R a) ∨ ∃ e, x.run = .returned (.error e) ∧ E e

private theorem run_reject (c : Prop) [Decidable c] (e : ε) :
    (reject c e : Fallible ε Unit).run = if c then Panics.returned (.error e) else .returned (.ok ()) := by
  unfold reject
  split_ifs <;> rfl

theorem run_lift_bind {x : Panics β} {b : β} (h : x = .returned b) (f : β → Fallible ε α) :
    ((liftM x : Fallible ε β) >>= f).run = (f b).run := by
  subst h
  rfl

namespace Ends

theorem pure {a : α} (h : R a) : Ends (Pure.pure a : Fallible ε α) R E := .inl ⟨a, rfl, h⟩

theorem throw {e : ε} (h : E e) : Ends (MonadExcept.throw e : Fallible ε α) R E := .inr ⟨e, rfl, h⟩

theorem imp {x : Fallible ε α} {R' : α → Prop} {E' : ε → Prop} (h : Ends x R' E') (hR : ∀ a, R' a → R a)
    (hE : ∀ e, E' e → E e) : Ends x R E := by
  rcases h with ⟨a, hrun, hR'⟩ | ⟨e, hrun, hE'⟩
  · exact .inl ⟨a, hrun, hR a hR'⟩
  · exact .inr ⟨e, hrun, hE e hE'⟩

theorem bind {x : Fallible ε β} {f : β → Fallible ε α} {P : β → Prop} (hx : Ends x P E)
    (hf : ∀ b, P b → Ends (f b) R E) : Ends (x >>= f) R E := by
  rcases hx with ⟨b, hrun, hP⟩ | ⟨e, hrun, hE⟩
  · have heq : (x >>= f).run = (f b).run := by
      show Panics.bind x.run _ = _
      rw [hrun]
      rfl
    unfold Ends
    rw [heq]
    exact hf b hP
  · refine .inr ⟨e, ?_, hE⟩
    show Panics.bind x.run _ = _
    rw [hrun]
    rfl

theorem reject {c : Prop} [Decidable c] {e : ε} {f : Unit → Fallible ε α} (hc : c → E e)
    (hf : ¬ c → Ends (f ()) R E) : Ends (reject c e >>= f) R E := by
  refine .bind (P := fun _ => ¬ c) ?_ fun _ => hf
  by_cases h : c
  · exact .inr ⟨e, (run_reject c e).trans (if_pos h), hc h⟩
  · exact .inl ⟨(), (run_reject c e).trans (if_neg h), h⟩

theorem okOr {x : Option β} {e : ε} {f : β → Fallible ε α} (hnone : x = none → E e)
    (hf : ∀ b, x = some b → Ends (f b) R E) : Ends (okOr x e >>= f) R E := by
  cases x with
  | none => exact .inr ⟨e, rfl, hnone rfl⟩
  | some b => exact hf b rfl

theorem lift {x : Panics β} {b : β} {f : β → Fallible ε α} (hx : x = .returned b) (hf : Ends (f b) R E) :
    Ends ((liftM x : Fallible ε β) >>= f) R E := by
  subst hx
  exact hf

/-- What a success tells. -/
theorem of_ok {x : Fallible ε α} (h : Ends x R E) {a : α} (hx : x.run = .returned (.ok a)) : R a := by
  rcases h with ⟨b, hrun, hR⟩ | ⟨e, hrun, -⟩
  · rw [hrun] at hx
    cases hx
    exact hR
  · rw [hrun] at hx
    cases hx

end Ends

def Checks (x : Fallible ε α) (Q : Prop) (R : α → Prop) : Prop :=
  (∃ a, x.run = .returned (.ok a) ∧ Q ∧ R a) ∨ ∃ e, x.run = .returned (.error e) ∧ ¬ Q

namespace Checks

private theorem ends {x : Fallible ε α} (h : Checks x Q R) : Ends x (fun a => Q ∧ R a) fun _ => ¬ Q := h

theorem pure {a : α} (hQ : Q) (hR : R a) : Checks (Pure.pure a : Fallible ε α) Q R := Ends.pure ⟨hQ, hR⟩

theorem imp {x : Fallible ε α} {Q' : Prop} {R' : α → Prop} (h : Checks x Q' R') (hQ : Q' ↔ Q)
    (hR : ∀ a, R' a → R a) : Checks x Q R :=
  h.ends.imp (fun a ⟨hQ', hR'⟩ => ⟨hQ.mp hQ', hR a hR'⟩) fun _ hQ' hq => hQ' (hQ.mpr hq)

theorem bind {x : Fallible ε β} {f : β → Fallible ε α} {Q' : Prop} {R' : β → Prop} (hx : Checks x Q' R')
    (hreject : ¬ Q' → ¬ Q) (hf : ∀ b, Q' → R' b → Checks (f b) Q R) : Checks (x >>= f) Q R :=
  Ends.bind (hx.ends.imp (fun _ h => h) fun _ => hreject) fun b ⟨hQ', hR'⟩ => hf b hQ' hR'

theorem reject {c : Prop} [Decidable c] {e : ε} {f : Unit → Fallible ε α} (hc : c → ¬ Q)
    (hf : ¬ c → Checks (f ()) Q R) : Checks (reject c e >>= f) Q R :=
  Ends.reject hc hf

theorem okOr_some {x : Option β} {b : β} {e : ε} {f : β → Fallible ε α} (hx : x = some b)
    (hf : Checks (f b) Q R) : Checks (okOr x e >>= f) Q R := by
  subst hx
  exact hf

theorem okOr {x : Option β} {e : ε} {f : β → Fallible ε α} (hnone : x = none → ¬ Q)
    (hf : ∀ b, x = some b → Checks (f b) Q R) : Checks (okOr x e >>= f) Q R :=
  Ends.okOr hnone hf

theorem lift {x : Panics β} {b : β} {f : β → Fallible ε α} (hx : x = .returned b) (hf : Checks (f b) Q R) :
    Checks ((liftM x : Fallible ε β) >>= f) Q R :=
  Ends.lift hx hf

theorem of_ok {x : Fallible ε α} (h : Checks x Q R) {a : α} (hx : x.run = .returned (.ok a)) : Q ∧ R a :=
  h.ends.of_ok hx

end Checks

end Fallible
