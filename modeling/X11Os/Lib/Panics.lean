import Mathlib.Order.Basic

/-!
# Computations that may panic

`Panics α` is the result of a call that either returns a value or panics; a fallible call returns an `Except`, so
`Panics (Except ε α)` keeps the three endings of such a call apart.  `attempt` is the early return of the `?`
operator: go on with the value of a call that succeeded, hand on its error or its panic.

`Fallible ε` and `Exec σ ε` are the monads of such calls, the second with a state that survives an error; `okOr`,
`reject` and `mapErr` are the ways in which a call turns an outcome into an error of its own.
-/

inductive Panics (α : Type) where
  | returned (a : α)
  | panicked
deriving DecidableEq, Repr

namespace Panics

variable {α β ε : Type}

def bind (x : Panics α) (f : α → Panics β) : Panics β :=
  match x with
  | returned a => f a
  | panicked => panicked

instance : Monad Panics where
  pure := returned
  bind := bind

def attempt (x : Panics (Except ε α)) (f : α → Panics (Except ε β)) : Panics (Except ε β) :=
  match x with
  | returned (.ok a) => f a
  | returned (.error e) => returned (.error e)
  | panicked => panicked

@[simp] theorem bind_returned (a : α) (f : α → Panics β) : (returned a).bind f = f a := rfl

@[simp] theorem bind_panicked (f : α → Panics β) : (panicked : Panics α).bind f = panicked := rfl

@[simp] theorem attempt_ok (a : α) (f : α → Panics (Except ε β)) : (returned (.ok a)).attempt f = f a := rfl

@[simp] theorem attempt_error (e : ε) (f : α → Panics (Except ε β)) :
    (returned (.error e)).attempt f = returned (.error e) := rfl

@[simp] theorem attempt_panicked (f : α → Panics (Except ε β)) :
    (panicked : Panics (Except ε α)).attempt f = panicked := rfl

theorem attempt_eq_ok {x : Panics (Except ε α)} {f : α → Panics (Except ε β)} {b : β} :
    x.attempt f = .returned (.ok b) ↔ ∃ a, x = .returned (.ok a) ∧ f a = .returned (.ok b) := by
  rcases x with (e | a) | _ <;> simp

theorem attempt_eq_panicked {x : Panics (Except ε α)} {f : α → Panics (Except ε β)} :
    x.attempt f = .panicked ↔ x = .panicked ∨ ∃ a, x = .returned (.ok a) ∧ f a = .panicked := by
  rcases x with (e | a) | _ <;> simp

/-- A loop whose steps return and keep a condition. -/
theorem foldlM_returns {P : α → Prop} {step : α → β → Panics α} (l : List β) {a : α} (ha : P a)
    (hstep : ∀ a b, P a → ∃ a', step a b = .returned a' ∧ P a') : ∃ a', l.foldlM step a = .returned a' ∧ P a' := by
  induction l generalizing a with
  | nil => exact ⟨a, rfl, ha⟩
  | cons b l ih =>
    obtain ⟨a₁, hb, ha₁⟩ := hstep a b ha
    obtain ⟨a', hrest, ha'⟩ := ih ha₁
    refine ⟨a', ?_, ha'⟩
    rw [List.foldlM_cons, hb]
    exact hrest

end Panics

abbrev Fallible (ε : Type) := ExceptT ε Panics

abbrev Exec (σ ε : Type) := ExceptT ε (StateT σ Panics)

section Outcomes

variable {m : Type → Type} [Monad m] {α ε ε' : Type}

def okOr (x : Option α) (e : ε) : ExceptT ε m α :=
  match x with
  | some a => pure a
  | none => throw e

def reject (c : Prop) [Decidable c] (e : ε) : ExceptT ε m Unit := if c then throw e else pure ()

def mapErr (f : ε → ε') (x : ExceptT ε m α) : ExceptT ε' m α := x.adapt f

end Outcomes

namespace Exec

variable {σ ε ε' α β : Type}

/-- The run of a computation from a state. -/
def exec (x : Exec σ ε α) (s : σ) : Panics (Except ε α × σ) := x.run.run s

/-- The rest of a computation after its first part has ended. -/
def andThen (f : α → Exec σ ε β) : Except ε α × σ → Panics (Except ε β × σ)
  | (.ok a, s) => (f a).exec s
  | (.error e, s) => .returned (.error e, s)

@[simp] theorem andThen_ok (f : α → Exec σ ε β) (a : α) (s : σ) : andThen f (.ok a, s) = (f a).exec s := rfl

@[simp] theorem andThen_error (f : α → Exec σ ε β) (e : ε) (s : σ) :
    andThen f (.error e, s) = .returned (.error e, s) := rfl

@[simp] theorem exec_bind (x : Exec σ ε α) (f : α → Exec σ ε β) (s : σ) :
    (x >>= f).exec s = (x.exec s).bind (andThen f) := by
  show Panics.bind (x.exec s) _ = _
  congr 1
  funext ⟨r, s'⟩
  cases r <;> rfl

@[simp] theorem exec_reject (c : Prop) [Decidable c] (e : ε) (s : σ) :
    exec (reject c e : Exec σ ε Unit) s = if c then Panics.returned (.error e, s) else .returned (.ok (), s) := by
  unfold reject
  split_ifs <;> rfl

@[simp] theorem exec_okOr_some (a : α) (e : ε) (s : σ) :
    exec (okOr (some a) e : Exec σ ε α) s = .returned (.ok a, s) := rfl

@[simp] theorem exec_modifyGet (f : σ → α × σ) (s : σ) :
    (modifyGet f : Exec σ ε α).exec s = .returned (.ok (f s).1, (f s).2) := rfl

@[simp] theorem exec_mapErr (f : ε → ε') (x : Exec σ ε α) (s : σ) :
    exec (mapErr f x : Exec σ ε' α) s =
      (x.exec s).bind fun r => .returned (r.1.mapError f, r.2) := rfl

@[simp] theorem exec_lift (x : Exec σ ε' α) (s : σ) :
    exec (ExceptT.lift x.run : Exec σ ε (Except ε' α)) s =
      (x.exec s).bind fun r => .returned (.ok r.1, r.2) := rfl

end Exec
