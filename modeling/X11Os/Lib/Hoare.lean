import X11Os.Lib.Transaction

/-!
# Pre- and postconditions

`Ends x s Q E` says of the computation `x` from the state `s`: if it returns a value, value and state satisfy `Q`, and
if it returns an error, error and state satisfy `E`.  A panic is no ending.  The rules follow the statements of a
program.  `Keeps I x` is the case of one condition on the state, before `x` and at every ending.
-/

namespace Exec

variable {σ ε ε' α β : Type} {s : σ} {Q : α → σ → Prop} {E : ε → σ → Prop}

/-- What an ending satisfies. -/
def Holds (Q : α → σ → Prop) (E : ε → σ → Prop) : Except ε α × σ → Prop
  | (.ok a, s) => Q a s
  | (.error e, s) => E e s

def Ends (x : Exec σ ε α) (s : σ) (Q : α → σ → Prop) (E : ε → σ → Prop) : Prop :=
  ∀ r, x.exec s = .returned r → Holds Q E r

namespace Ends

theorem of_ok {x : Exec σ ε α} (h : Ends x s Q E) {a : α} {s' : σ} (hx : x.exec s = .returned (.ok a, s')) : Q a s' :=
  h _ hx

theorem of_error {x : Exec σ ε α} (h : Ends x s Q E) {e : ε} {s' : σ} (hx : x.exec s = .returned (.error e, s')) :
    E e s' :=
  h _ hx

theorem pure {a : α} (h : Q a s) : Ends (Pure.pure a : Exec σ ε α) s Q E := by
  rintro _ ⟨⟩
  exact h

theorem throw {e : ε} (h : E e s) : Ends (MonadExcept.throw e : Exec σ ε α) s Q E := by
  rintro _ ⟨⟩
  exact h

theorem bind {x : Exec σ ε β} {f : β → Exec σ ε α} (h : Ends x s (fun b s' => Ends (f b) s' Q E) E) :
    Ends (x >>= f) s Q E := by
  intro r hr
  rw [exec_bind] at hr
  cases hx : x.exec s with
  | panicked => simp [hx] at hr
  | returned first =>
    obtain ⟨result, s'⟩ := first
    rw [hx, Panics.bind_returned] at hr
    cases result with
    | ok b => exact h.of_ok hx r hr
    | error e =>
      cases hr
      exact h.of_error hx

/-- The rest of a computation whose first part runs. -/
theorem after {x : Exec σ ε β} {f : β → Exec σ ε α} {b : β} {s' : σ} (hx : Runs x s b s') (h : Ends (f b) s' Q E) :
    Ends (x >>= f) s Q E := by
  refine .bind fun r hr => ?_
  rw [hx] at hr
  cases hr
  exact h

/-- Nothing is asked of the endings. -/
theorem trivial (x : Exec σ ε α) (s : σ) : Ends x s (fun _ _ => True) fun _ _ => True := by
  rintro ⟨_ | _, s'⟩ - <;> exact True.intro

theorem imp {x : Exec σ ε α} {Q' : α → σ → Prop} {E' : ε → σ → Prop} (h : Ends x s Q' E')
    (hQ : ∀ a s', Q' a s' → Q a s') (hE : ∀ e s', E' e s' → E e s') : Ends x s Q E := by
  rintro ⟨_ | _, s'⟩ hr
  · exact hE _ _ (h.of_error hr)
  · exact hQ _ _ (h.of_ok hr)

/-- The rest of a computation of whose errors nothing is asked. -/
theorem next {x : Exec σ ε β} {f : β → Exec σ ε α} {P : β → σ → Prop} {E' : ε → σ → Prop} (h : Ends x s P E')
    (hf : ∀ b s', P b s' → Ends (f b) s' Q fun _ _ => True) : Ends (x >>= f) s Q fun _ _ => True :=
  .bind (h.imp hf fun _ _ _ => True.intro)

theorem and {x : Exec σ ε α} {Q' : α → σ → Prop} {E' : ε → σ → Prop} (h : Ends x s Q E) (h' : Ends x s Q' E') :
    Ends x s (fun a s' => Q a s' ∧ Q' a s') fun e s' => E e s' ∧ E' e s' := by
  rintro ⟨_ | _, s'⟩ hr
  · exact ⟨h.of_error hr, h'.of_error hr⟩
  · exact ⟨h.of_ok hr, h'.of_ok hr⟩

theorem mapErr {f : ε' → ε} {x : Exec σ ε' α} (h : Ends x s Q fun e => E (f e)) : Ends (mapErr f x) s Q E := by
  intro r hr
  rw [exec_mapErr] at hr
  cases hx : x.exec s with
  | panicked => simp [hx] at hr
  | returned first =>
    rw [hx, Panics.bind_returned] at hr
    cases hr
    obtain ⟨_ | _, s'⟩ := first
    · exact h.of_error hx
    · exact h.of_ok hx

/-- A call whose error is looked at, not handed on. -/
theorem lift {x : Exec σ ε' β} {f : Except ε' β → Exec σ ε α}
    (h : Ends x s (fun b s' => Ends (f (.ok b)) s' Q E) fun e s' => Ends (f (.error e)) s' Q E) :
    Ends ((ExceptT.lift x.run : Exec σ ε (Except ε' β)) >>= f) s Q E := by
  refine .bind fun r hr => ?_
  rw [exec_lift] at hr
  cases hx : x.exec s with
  | panicked => simp [hx] at hr
  | returned first =>
    rw [hx, Panics.bind_returned] at hr
    cases hr
    obtain ⟨_ | _, s'⟩ := first
    · exact h.of_error hx
    · exact h.of_ok hx

theorem okOr {x : Option β} {e : ε} {f : β → Exec σ ε α} (hnone : x = none → E e s)
    (h : ∀ b, x = some b → Ends (f b) s Q E) : Ends (okOr x e >>= f) s Q E := by
  cases x with
  | none => exact .bind (.throw (hnone rfl))
  | some b => exact .bind (.pure (h b rfl))

theorem reject {c : Prop} [Decidable c] {e : ε} {f : Unit → Exec σ ε α} (hc : c → E e s)
    (h : ¬ c → Ends (f ()) s Q E) : Ends (reject c e >>= f) s Q E := by
  refine .bind fun r hr => ?_
  rw [exec_reject] at hr
  split_ifs at hr with hcond
  · cases hr
    exact hc hcond
  · cases hr
    exact h hcond

end Ends

/-! ### Invariants -/

/-- The computation keeps `I`, whichever way it ends. -/
def Keeps (I : σ → Prop) (x : Exec σ ε α) : Prop := ∀ s, I s → Ends x s (fun _ => I) fun _ => I

namespace Keeps

variable {τ : Type} {I : σ → Prop}

theorem of_exec {x : Exec σ ε α} (h : Keeps I x) (hs : I s) {r : Except ε α} {s' : σ}
    (hx : x.exec s = .returned (r, s')) : I s' := by
  cases r with
  | ok a => exact (h s hs).of_ok hx
  | error e => exact (h s hs).of_error hx

theorem pure {a : α} : Keeps I (Pure.pure a : Exec σ ε α) := fun _ hs => .pure hs

theorem throw {e : ε} : Keeps I (MonadExcept.throw e : Exec σ ε α) := fun _ hs => .throw hs

theorem get : Keeps I (MonadState.get : Exec σ ε σ) := by
  rintro s hs _ ⟨⟩
  exact hs

theorem modify {f : σ → σ} (h : ∀ s, I s → I (f s)) : Keeps I (modify f : Exec σ ε Unit) := by
  rintro s hs _ ⟨⟩
  exact h s hs

theorem bind {x : Exec σ ε β} {f : β → Exec σ ε α} (hx : Keeps I x) (hf : ∀ b, Keeps I (f b)) : Keeps I (x >>= f) :=
  fun s hs => .bind ((hx s hs).imp (fun b s' hs' => hf b s' hs') fun _ _ hs' => hs')

theorem okOr {x : Option α} {e : ε} : Keeps I (okOr x e) := by
  cases x with
  | none => exact throw
  | some a => exact pure

theorem reject {c : Prop} [Decidable c] {e : ε} : Keeps I (reject c e) := by
  intro s hs r hr
  rw [exec_reject] at hr
  split_ifs at hr
  · cases hr
    exact hs
  · cases hr
    exact hs

theorem orThrow {g : ε' → ε} {x : Except ε' α} : Keeps I (orThrow g x) := by
  cases x with
  | error e => exact throw
  | ok a => exact pure

theorem focus {get : σ → τ} {set : τ → σ → σ} {op : τ → τ × Except ε α} (h : ∀ s, I s → I (set (op (get s)).1 s)) :
    Keeps I (focus get set op) := by
  rintro s hs _ ⟨⟩
  have hkept := h s hs
  cases (op (get s)).2 <;> exact hkept

theorem mapErr {g : ε' → ε} {x : Exec σ ε' α} (h : Keeps I x) : Keeps I (mapErr g x) := fun s hs => .mapErr (h s hs)

/-- A call whose outcome is looked at. -/
theorem caught {x : Exec σ ε' α} (h : Keeps I x) : Keeps I (ExceptT.lift x.run : Exec σ ε (Except ε' α)) := by
  intro s hs r hr
  rw [exec_lift] at hr
  cases hx : x.exec s with
  | panicked => simp [hx] at hr
  | returned first =>
    rw [hx, Panics.bind_returned] at hr
    cases hr
    exact h.of_exec hs hx

theorem expect {x : Exec σ ε' α} (h : Keeps I x) : Keeps I (expect x : Exec σ ε α) := by
  intro s hs r hr
  unfold Exec.expect at hr
  rw [exec, ExceptT.run_mk, StateT.run] at hr
  split at hr
  · rename_i hx
    cases hr
    exact (h s hs).of_ok hx
  · cases hr

end Keeps

end Exec
