import X11Os.Lib.Panics

/-!
# Transactions

A transaction checks everything before its first write: it fails and leaves the state as it was, or it succeeds
(`Transacts`).  There is one rule for each kind of check; they are applied in the order of the program until the
writes remain, and those are run (`Runs`).  A call that is known to be refused is followed up to the check that
refuses it (`Fails`).

`focus` is a call of an operation of one component of the state; its writes to the component stay also when it fails.
`expect` is a call whose failure is a panic.
-/

namespace Exec

variable {σ τ ε ε' α β : Type}

/-- The result of a check that has been made; its error becomes an error of the caller. -/
def orThrow (f : ε' → ε) (x : Except ε' α) : Exec σ ε α :=
  match x with
  | .ok a => pure a
  | .error e => throw (f e)

def focus (get : σ → τ) (set : τ → σ → σ) (op : τ → τ × Except ε α) : Exec σ ε α :=
  ExceptT.mk fun s => .returned ((op (get s)).2, set (op (get s)).1 s)

def expect (x : Exec σ ε' α) : Exec σ ε α :=
  ExceptT.mk fun s =>
    match x.exec s with
    | .returned (.ok a, s') => .returned (.ok a, s')
    | _ => .panicked

/-! ### Calls that succeed -/

/-- From `s` the call returns `a` and leaves `s'`. -/
def Runs (x : Exec σ ε α) (s : σ) (a : α) (s' : σ) : Prop := x.exec s = .returned (.ok a, s')

namespace Runs

variable {s s₁ s' : σ} {a : α} {b : β}

theorem bind {x : Exec σ ε α} {f : α → Exec σ ε β} (hx : Runs x s a s₁) (hf : Runs (f a) s₁ b s') :
    Runs (x >>= f) s b s' := by
  unfold Runs at hx hf ⊢
  rw [exec_bind, hx, Panics.bind_returned, andThen_ok, hf]

/-- What comes after the call panics. -/
theorem panics {x : Exec σ ε α} {f : α → Exec σ ε β} (hx : Runs x s a s₁) (hf : (f a).exec s₁ = .panicked) :
    (x >>= f).exec s = .panicked := by
  unfold Runs at hx
  rw [exec_bind, hx, Panics.bind_returned, andThen_ok, hf]

theorem pure : Runs (Pure.pure a : Exec σ ε α) s a s := rfl

theorem get : Runs (MonadState.get : Exec σ ε σ) s s s := rfl

theorem modify {f : σ → σ} : Runs (modify f : Exec σ ε Unit) s () (f s) := rfl

theorem lift {x : Panics α} (h : x = .returned a) : Runs (liftM x : Exec σ ε α) s a s := by
  subst h
  rfl

theorem okOr {x : Option α} {e : ε} (h : x = some a) : Runs (okOr x e) s a s := by
  rw [h]
  rfl

theorem reject {c : Prop} [Decidable c] {e : ε} (h : ¬ c) : Runs (reject c e) s () s :=
  (exec_reject c e s).trans (if_neg h)

theorem orThrow {g : ε' → ε} {x : Except ε' α} (h : x = .ok a) : Runs (orThrow g x) s a s := by
  rw [h]
  rfl

theorem focus {get : σ → τ} {set : τ → σ → σ} {op : τ → τ × Except ε α} {c : τ} (h : op (get s) = (c, .ok a)) :
    Runs (focus get set op) s a (set c s) := by
  show Panics.returned ((op (get s)).2, set (op (get s)).1 s) = _
  rw [h]

theorem mapErr {g : ε' → ε} {x : Exec σ ε' α} (hx : Runs x s a s') : Runs (mapErr g x) s a s' := by
  unfold Runs at hx ⊢
  rw [exec_mapErr, hx]
  rfl

/-- A call whose outcome is looked at. -/
theorem caught {x : Exec σ ε' α} (hx : Runs x s a s') :
    Runs (ExceptT.lift x.run : Exec σ ε (Except ε' α)) s (.ok a) s' := by
  unfold Runs at hx ⊢
  rw [exec_lift, hx]
  rfl

theorem expect {x : Exec σ ε' α} (hx : Runs x s a s') : Runs (expect x : Exec σ ε α) s a s' := by
  show (match x.exec s with
    | .returned (.ok a, s') => Panics.returned (Except.ok a, s')
    | _ => .panicked) = _
  rw [hx]

end Runs

/-! ### Calls that fail -/

/-- From `s` the call returns the error `e` and leaves `s'`. -/
def Fails (x : Exec σ ε α) (s : σ) (e : ε) (s' : σ) : Prop := x.exec s = .returned (.error e, s')

namespace Fails

variable {s s₁ s' : σ} {a : α} {e : ε}

theorem first {x : Exec σ ε α} {f : α → Exec σ ε β} (hx : Fails x s e s') : Fails (x >>= f) s e s' := by
  unfold Fails at hx ⊢
  rw [exec_bind, hx, Panics.bind_returned, andThen_error]

theorem after {x : Exec σ ε α} {f : α → Exec σ ε β} (hx : Runs x s a s₁) (h : Fails (f a) s₁ e s') :
    Fails (x >>= f) s e s' := by
  unfold Fails Runs at *
  rw [exec_bind, hx, Panics.bind_returned, andThen_ok, h]

theorem okOr {x : Option α} (h : x = none) : Fails (okOr x e) s e s := by
  rw [h]
  rfl

theorem reject {c : Prop} [Decidable c] (h : c) : Fails (reject c e) s e s := (exec_reject c e s).trans (if_pos h)

end Fails

/-! ### Calls that check before they write -/

/-- The call fails and changes nothing, or succeeds with `Q`. -/
def Transacts (x : Exec σ ε α) (s : σ) (Q : α → σ → Prop) : Prop :=
  (∃ e, x.exec s = .returned (.error e, s)) ∨ ∃ a s', Runs x s a s' ∧ Q a s'

namespace Transacts

variable {s s' : σ} {Q : β → σ → Prop}

theorem of_runs {x : Exec σ ε β} {b : β} (h : Runs x s b s') (hQ : Q b s') : Transacts x s Q := .inr ⟨b, s', h, hQ⟩

theorem throws (e : ε) : Transacts (throw e : Exec σ ε β) s Q := .inl ⟨e, rfl⟩

/-- After a step that has not changed the state. -/
private theorem after {x : Exec σ ε α} {f : α → Exec σ ε β} {a : α} (hx : Runs x s a s) (h : Transacts (f a) s Q) :
    Transacts (x >>= f) s Q := by
  unfold Transacts Runs at *
  rwa [exec_bind, hx, Panics.bind_returned, andThen_ok]

private theorem fails {x : Exec σ ε α} {f : α → Exec σ ε β} {e : ε} (hx : Fails x s e s) : Transacts (x >>= f) s Q :=
  .inl ⟨e, Fails.first hx⟩

theorem get {f : σ → Exec σ ε β} (h : Transacts (f s) s Q) : Transacts (MonadState.get >>= f) s Q := after rfl h

theorem okOr {x : Option α} {e : ε} {f : α → Exec σ ε β} (h : ∀ a, x = some a → Transacts (f a) s Q) :
    Transacts (okOr x e >>= f) s Q := by
  cases x with
  | none => exact fails rfl
  | some a => exact after rfl (h a rfl)

theorem reject {c : Prop} [Decidable c] {e : ε} {f : Unit → Exec σ ε β} (h : ¬ c → Transacts (f ()) s Q) :
    Transacts (reject c e >>= f) s Q := by
  by_cases hc : c
  · exact fails (.reject hc)
  · exact after (.reject hc) (h hc)

theorem orThrow {g : ε' → ε} {x : Except ε' α} {f : α → Exec σ ε β} (h : ∀ a, x = .ok a → Transacts (f a) s Q) :
    Transacts (orThrow g x >>= f) s Q := by
  cases x with
  | error e => exact fails rfl
  | ok a => exact after rfl (h a rfl)

/-- A call that changes nothing when it fails, and after which nothing fails. -/
theorem focus {get : σ → τ} {set : τ → σ → σ} {op : τ → τ × Except ε' α} {g : ε' → ε} {f : α → Exec σ ε β}
    (hset : set (get s) s = s) (hfails : ∀ c e, op (get s) = (c, .error e) → c = get s)
    (h : ∀ c a, op (get s) = (c, .ok a) → ∃ b s', Runs (f a) (set c s) b s' ∧ Q b s') :
    Transacts (mapErr g (Exec.focus get set op) >>= f) s Q := by
  rcases hop : op (get s) with ⟨c, e | a⟩
  · refine fails (e := g e) ?_
    have hexec : (Exec.focus get set op).exec s = .returned ((op (get s)).2, set (op (get s)).1 s) := rfl
    rw [Fails, exec_mapErr, hexec, hop, hfails c e hop, hset]
    rfl
  · obtain ⟨b, s', hruns, hQ⟩ := h c a hop
    exact of_runs (.bind (.mapErr (.focus hop)) hruns) hQ

end Transacts

end Exec
