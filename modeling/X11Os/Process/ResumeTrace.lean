import X11Os.Lib.Custody
import X11Os.Process.Lifecycle

/-!
# The states that tasks leave and take up

The trace of a run of the lifecycle holds the snapshots of the tasks that lose the CPU and the states from which tasks
resume.  A task takes up what it left behind when it last lost the CPU, and nothing when it has never run; so no
snapshot is taken up twice.
-/

namespace X11Os

variable {T P A R : Type}

def ResumeEvent.task : ResumeEvent T R → T
  | switchedOut t _ => t
  | transferred t _ => t

section Trace

variable [DecidableEq T]

/-- The last event about a task. -/
def lastEvent (trace : List (ResumeEvent T R)) (t : T) : Option (ResumeEvent T R) :=
  (trace.filter (·.task = t)).getLast?

private theorem lastEvent_append_self (trace : List (ResumeEvent T R)) (e : ResumeEvent T R) :
    lastEvent (trace ++ [e]) e.task = some e := by
  simp [lastEvent]

private theorem lastEvent_append_of_ne (trace : List (ResumeEvent T R)) {e : ResumeEvent T R} {t : T}
    (h : e.task ≠ t) :
    lastEvent (trace ++ [e]) t = lastEvent trace t := by
  simp [lastEvent, h]

private theorem lastEvent_eq_none {trace : List (ResumeEvent T R)} {t : T} (h : ∀ e ∈ trace, e.task ≠ t) :
    lastEvent trace t = none := by
  rw [lastEvent, List.getLast?_eq_none_iff, List.filter_eq_nil_iff]
  simpa using h

/-- `r` is what `t` has left behind: nothing, or the snapshot with which it has lost the CPU and not got it back. -/
def LeftBehind (trace : List (ResumeEvent T R)) (t : T) (r : Option R) : Prop :=
  (lastEvent trace t = none ∧ r = none) ∨ lastEvent trace t = some (.switchedOut t r)

private theorem LeftBehind.append {trace : List (ResumeEvent T R)} {t : T} {r : Option R} (h : LeftBehind trace t r)
    {e : ResumeEvent T R} (he : e.task ≠ t) : LeftBehind (trace ++ [e]) t r := by
  unfold LeftBehind
  rwa [lastEvent_append_of_ne trace he]

/-- Whoever gets the CPU takes up what it has left behind. -/
def Faithful (trace : List (ResumeEvent T R)) : Prop :=
  ∀ before t r after, trace = before ++ .transferred t r :: after → LeftBehind before t r

private theorem Faithful.append {trace : List (ResumeEvent T R)} (h : Faithful trace) {e : ResumeEvent T R}
    (he : ∀ t r, e = .transferred t r → LeftBehind trace t r) : Faithful (trace ++ [e]) := by
  intro before t r after heq
  rcases List.split_concat heq with ⟨rfl, hevent⟩ | ⟨rest, htrace⟩
  · exact he t r hevent
  · exact h before t r rest htrace

/-- The snapshots that have been taken of a task, in order. -/
def snapshots (t : T) (trace : List (ResumeEvent T R)) : List R :=
  trace.filterMap fun
    | .switchedOut t' (some r) => if t' = t then some r else none
    | _ => none

private theorem snapshots_filter (t : T) (trace : List (ResumeEvent T R)) :
    snapshots t (trace.filter (·.task = t)) = snapshots t trace := by
  unfold snapshots
  rw [List.filterMap_filter]
  refine List.filterMap_congr fun e _ => ?_
  cases e with
  | switchedOut t' r => cases r <;> by_cases ht : t' = t <;> simp [ResumeEvent.task, ht]
  | transferred t' r => simp

/-- When every switch takes a snapshot, a task has left its last snapshot behind. -/
theorem LeftBehind.eq_getLast? {trace : List (ResumeEvent T R)} {t : T} {r : Option R} (h : LeftBehind trace t r)
    (hcaptured : ∀ t', .switchedOut t' none ∉ trace) : r = (snapshots t trace).getLast? := by
  rw [← snapshots_filter]
  rcases h with ⟨hnone, rfl⟩ | hlast
  · rw [List.getLast?_eq_none_iff.mp hnone]
    rfl
  · obtain ⟨earlier, heq⟩ := List.getLast?_eq_some_iff.mp hlast
    cases r with
    | none =>
      have hmem : .switchedOut t none ∈ trace.filter (·.task = t) := by simp [heq]
      exact absurd (List.mem_of_mem_filter hmem) (hcaptured t)
    | some state => simp [heq, snapshots]

/-- Between two transfers to a task it has lost the CPU. -/
theorem Faithful.switchedOut_between {trace before mid after : List (ResumeEvent T R)} {t : T} {r r' : Option R}
    (h : Faithful trace) (heq : trace = before ++ .transferred t r :: (mid ++ .transferred t r' :: after)) :
    .switchedOut t r' ∈ mid := by
  have hleft : LeftBehind (before ++ .transferred t r :: mid) t r' :=
    h (before ++ .transferred t r :: mid) t r' after (by rw [heq, List.append_assoc, List.cons_append])
  have hlast : lastEvent (before ++ .transferred t r :: mid) t =
      some ((mid.filter (·.task = t)).getLast?.getD (.transferred t r)) := by
    rw [lastEvent, List.filter_append, List.filter_cons_of_pos (by simp [ResumeEvent.task]), List.getLast?_append,
      List.getLast?_cons, Option.some_or]
  rcases hleft with ⟨hnone, -⟩ | hswitched
  · rw [hlast] at hnone
    cases hnone
  · rw [hlast, Option.some.injEq] at hswitched
    cases hmid : (mid.filter (·.task = t)).getLast? with
    | none =>
      rw [hmid] at hswitched
      cases hswitched
    | some e =>
      rw [hmid, Option.getD_some] at hswitched
      rw [← hswitched]
      exact List.mem_of_mem_filter (List.mem_of_getLast? hmid)

end Trace

/-! ### Runs of the lifecycle are faithful -/

namespace Lifecycle

variable [DecidableEq T] [DecidableEq P]

/-- What the trace says about the state: it is about tasks that have been named, and a task that does not own the CPU
stores what it has left behind. -/
structure Tracks (trace : List (ResumeEvent T R)) (d : Lifecycle T P A R) : Prop where
  issued : ∀ e ∈ trace, e.task ∈ d.issued
  waiting : ∀ t u, d.user t = some u → d.current ≠ some t → LeftBehind trace t u.resume
  faithful : Faithful trace

omit [DecidableEq P] in
private theorem Tracks.fresh {trace : List (ResumeEvent T R)} {d : Lifecycle T P A R} (h : Tracks trace d) {t : T}
    (ht : t ∉ d.issued) : LeftBehind trace t none :=
  .inl ⟨lastEvent_eq_none fun e he heq => ht (heq ▸ h.issued e he), rfl⟩

private theorem Move.tracks {trace events : List (ResumeEvent T R)} {d d' : Lifecycle T P A R} (h : Move d events d')
    (hd : d.Agrees) (hstored : d.Stored) (htracks : Tracks trace d) : Tracks (trace ++ events) d' := by
  have hlive : ∀ {t u}, d.user t = some u → t ∈ d.issued := fun hu => by
    obtain ⟨st, -, htask, -⟩ := hd.user _ _ hu
    exact hd.issued _ (by simp [htask])
  cases h with
  | claim =>
    rw [List.append_nil]
    exact ⟨fun e he => .inr (htracks.issued e he), htracks.waiting, htracks.faithful⟩
  | addKernel =>
    rw [List.append_nil]
    exact ⟨fun e he => .inr (htracks.issued e he), htracks.waiting, htracks.faithful⟩
  | reap =>
    rw [List.append_nil]
    exact ⟨htracks.issued, htracks.waiting, htracks.faithful⟩
  | @addUser t p a hfresh =>
    rw [List.append_nil]
    refine ⟨fun e he => .inr (htracks.issued e he), fun k u hu hcur => ?_, htracks.faithful⟩
    replace hu : Function.update d.user t (some ⟨p, a, none⟩) k = some u := hu
    by_cases hk : k = t
    · subst hk
      rw [Function.update_self, Option.some.injEq] at hu
      rw [← hu]
      exact htracks.fresh hfresh
    · rw [Function.update_of_ne hk] at hu
      exact htracks.waiting k u hu hcur
  | @start t u rest hidle =>
    rw [List.append_nil]
    refine ⟨htracks.issued, fun k v hv hcur => ?_, htracks.faithful⟩
    have hk : k ≠ t := fun heq => hcur (by rw [heq]; rfl)
    refine htracks.waiting k v ?_ (by simp [hidle])
    exact (Function.update_of_ne hk ..).symm.trans hv
  | @exitTo t t' u u' rest hcur hu hq hu' =>
    have hne := hd.head_ne_owner hcur hq
    refine ⟨?_, fun k v hv hk => ?_, htracks.faithful.append ?_⟩
    · simpa [or_imp, forall_and] using ⟨htracks.issued, hlive hu'⟩
    · have hkt' : k ≠ t' := fun heq => hk (by rw [heq]; rfl)
      replace hv : Function.update d.user t none k = some v := (Function.update_of_ne hkt' ..).symm.trans hv
      have hkt : k ≠ t := by
        rintro rfl
        rw [Function.update_self] at hv
        cases hv
      rw [Function.update_of_ne hkt] at hv
      exact (htracks.waiting k v hv (by simpa [hcur] using hkt.symm)).append hkt'.symm
    · rintro k r ⟨⟩
      exact htracks.waiting t' u' hu' (by simpa [hcur] using hne.symm)
  | @yieldTo t t' u u' rest snapshot hcur hu hq hu' =>
    have hne := hd.head_ne_owner hcur hq
    -- the successor was waiting before, and the event of `t` is not about it
    have hwait : LeftBehind (trace ++ [.switchedOut t snapshot]) t' u'.resume :=
      (htracks.waiting t' u' hu' (by simpa [hcur] using hne.symm)).append hne.symm
    rw [List.append_cons]
    refine ⟨?_, fun k v hv hk => ?_, (htracks.faithful.append ?_).append ?_⟩
    · simpa [or_imp, forall_and] using ⟨htracks.issued, hlive hu, hlive hu'⟩
    · have hkt' : k ≠ t' := fun heq => hk (by rw [heq]; rfl)
      replace hv : Function.update d.user t (some { u with resume := snapshot.or u.resume }) k = some v :=
        (Function.update_of_ne hkt' ..).symm.trans hv
      refine LeftBehind.append ?_ hkt'.symm
      by_cases hkt : k = t
      · -- the owner of the CPU had nothing stored, so the snapshot is what it leaves behind
        subst hkt
        rw [Function.update_self, Option.some.injEq] at hv
        rw [← hv, hstored.owner hcur hu, Option.or_none]
        exact .inr (lastEvent_append_self ..)
      · rw [Function.update_of_ne hkt] at hv
        exact (htracks.waiting k v hv (by simpa [hcur] using fun heq => hkt heq.symm)).append fun heq => hkt heq.symm
    · rintro k r ⟨⟩
    · rintro k r ⟨⟩
      exact hwait

/-- Every run keeps the agreement and is faithful. -/
theorem Reach.tracks {trace : List (ResumeEvent T R)} {d : Lifecycle T P A R} (h : Reach trace d) :
    d.Agrees ∧ d.Stored ∧ Tracks trace d := by
  induction h with
  | initial =>
    refine ⟨.initial, ?_, ?_, ?_, ?_⟩
    · rintro t u ⟨⟩
    · simp
    · rintro t u ⟨⟩
    · intro before t r after heq
      simp at heq
  | step h hstep ih =>
    obtain ⟨hagrees, hstored, htracks⟩ := ih
    rcases hstep with hmove | ⟨rfl, rfl⟩
    · exact ⟨hmove.agrees hagrees, hmove.stored hstored, hmove.tracks hagrees hstored htracks⟩
    · rw [List.append_nil]
      exact ⟨hagrees, hstored, htracks⟩

end Lifecycle

end X11Os
