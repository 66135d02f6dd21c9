import X11Os.Arch.SyscallEntry

/-!
# The exit status

A request to exit stays pending with its code until it is committed, and the record of a process that has exited
stays as it is until the process is reaped.  Between the two the code is lost: the commit records every exit
with the code 0.
-/

namespace X11Os

open Word Exec

namespace System

open SystemRuntime

/-! ### What stays until the commit and until the reaping -/

/-- An update of the slot of a process in another state. -/
private theorem slot_of_other {slots : ProcessId → Except ProcessManagerError ProcessSlot} {process other : ProcessId}
    {slot slot' : ProcessSlot} (h : slots process = .ok slot) (h' : slots other = .ok slot')
    (hstate : slot'.state ≠ slot.state) (x : Except ProcessManagerError ProcessSlot) :
    Function.update slots other x process = .ok slot := by
  have hne : process ≠ other := by
    rintro rfl
    rw [h] at h'
    cases h'
    exact hstate rfl
  rw [Function.update_of_ne hne, h]

/-- Only reaping changes the record of a process that has exited. -/
private theorem Effect.exited_kept {s s' : System} {op : Op} {transfer : Option UserReturnTransfer}
    (h : Effect s op s' transfer) {process : ProcessId} {slot : ProcessSlot}
    (hop : op ≠ .reap process) (hslot : s.processes.slot process = .ok slot) (hexited : slot.state = some .exited) :
    s'.processes.slot process = .ok slot := by
  cases h with
  | unchanged => exact hslot
  | exitAsked => exact hslot
  | yieldAsked => exact hslot
  | givenUp h => rw [h.processes, hslot]
  | kernelSpawned h => rw [h.processes, hslot]
  | @userSpawned op r other task space h =>
    obtain ⟨slot', -, -, -, hslots⟩ := h.processes
    have hne : process ≠ other := by
      rintro rfl
      have habsent := h.absent
      rw [hslot] at habsent
      cases habsent
    rw [hslots, Function.update_of_ne hne, hslot]
  | @started s' other user hlaunch e =>
    rw [e.processes]
    exact slot_of_other hslot hlaunch.slot_eq (by simp [hlaunch.slot_state, hexited]) _
  | @exited s' other task code plan hover hpending e =>
    rw [e.processes, Function.update_comm hover.process_ne]
    have hfirst := slot_of_other hslot hover.slot_eq (by simp [hover.slot_state, hexited])
      (.ok { hover.slot with state := some .exited, exitCode := some 0 })
    refine slot_of_other hfirst ?_ (show hover.nextSlot.state ≠ slot.state by simp [hover.nextSlot_state, hexited]) _
    rw [Function.update_of_ne hover.process_ne, hover.nextSlot_eq]
  | @yielded s' other task plan interrupted hover hvalid e =>
    rw [e.processes]
    have hfirst := slot_of_other hslot hover.slot_eq (by simp [hover.slot_state, hexited])
      (.ok { hover.slot with state := some .ready })
    refine slot_of_other hfirst ?_ (show hover.nextSlot.state ≠ slot.state by simp [hover.nextSlot_state, hexited]) _
    rw [Function.update_of_ne hover.process_ne, hover.nextSlot_eq]
  | @reaped r other h =>
    have hne : process ≠ other := fun heq => hop (by rw [heq])
    rw [h.processes, Function.update_of_ne hne, hslot]

/-- Only the commit takes a request back, as long as the first process is not started again. -/
private theorem Effect.pending_kept {s s' : System} {op : Op} {transfer : Option UserReturnTransfer}
    (h : Effect s op s' transfer) (henabled : op.Enabled s) (hop : op ≠ .commitPendingExit)
    {request : ProcessId × TaskId × U64} (hI : s.pendingExit = some request ∧ s.currentProcess ≠ none) :
    s'.pendingExit = some request ∧ s'.currentProcess ≠ none := by
  obtain ⟨hpending, hcurrent⟩ := hI
  cases h with
  | unchanged => exact ⟨hpending, hcurrent⟩
  | exitAsked code hchecked =>
    rw [currentBindingChecked_of_pending hpending] at hchecked
    cases hchecked
  | yieldAsked => exact ⟨hpending, hcurrent⟩
  | givenUp h => exact ⟨h.pendingExit.trans hpending, by rwa [h.currentProcess]⟩
  | kernelSpawned h => exact ⟨h.pendingExit.trans hpending, by rwa [h.currentProcess]⟩
  | userSpawned h => exact ⟨h.pendingExit.trans hpending, by rwa [h.currentProcess]⟩
  | started e => exact absurd henabled hcurrent
  | exited => exact absurd rfl hop
  | yielded hvalid e => exact ⟨e.pendingExit.trans hpending, by simp [e.currentProcess]⟩
  | reaped h =>
    rw [h.others]
    exact ⟨hpending, hcurrent⟩

/-! ### The code of an exit -/

/-- The process reports the code until it is reaped, and it is reaped with the code. -/
def ReportsUntilReaped (s : System) (process : ProcessId) (code : U64) : Prop :=
  ∀ ops events s', .reap process ∉ ops → s.performAll ops = some (events, s') →
    s'.processes.exitCode process = .ok (some code) ∧
      ∃ r, (s'.processes.reap process).2 = .ok r ∧ r.exitCode = code

private theorem exitCode_of_slot {m : ProcessManager} {process : ProcessId} {slot : ProcessSlot} {code : U64}
    (hslot : m.slot process = .ok slot) (hstate : slot.state = some .exited) (himage : slot.image.isSome = true)
    (hcode : slot.exitCode = some code) :
    m.exitCode process = .ok (some code) ∧ ∃ r, (m.reap process).2 = .ok r ∧ r.exitCode = code := by
  obtain ⟨image, himage⟩ := Option.isSome_iff_exists.mp himage
  refine ⟨by rw [ProcessManager.exitCode, hslot, ← hcode]; rfl, ⟨process, image, slot.binding, code⟩, ?_, rfl⟩
  simp [ProcessManager.reap, hslot, hstate, himage, hcode]

private theorem ReportsUntilReaped.of_slot {s : System} (hs : s.Coherent) {process : ProcessId} {slot : ProcessSlot}
    {code : U64} (hslot : s.processes.slot process = .ok slot) (hstate : slot.state = some .exited)
    (hcode : slot.exitCode = some code) : ReportsUntilReaped s process code := by
  intro ops events s' hops hperform
  obtain ⟨hs', hslot'⟩ := performAll_keeps (fun s => s.processes.slot process = .ok slot) (· ≠ .reap process)
    (fun heffect _ hallowed hkept => heffect.exited_kept hallowed hkept hstate) hs hslot
    (fun op hmem heq => hops (heq ▸ hmem)) hperform
  exact exitCode_of_slot hslot' hstate (hs'.image process slot hslot') hcode

/-- A committed exit is reported with the code 0. -/
private theorem reports_zero {s s' : System} (hs : s.Coherent) {process : ProcessId} {task : TaskId} {code : U64}
    (hpending : s.pendingExit = some (process, task, code)) {transfer : UserReturnTransfer}
    (hcommit : Runs commitPendingExit s transfer s') : ReportsUntilReaped s' process 0 := by
  rcases commitPendingExit_transacts hs with
    ⟨e, hfails⟩ | ⟨transfer', s₁, hruns, process', task', code', plan, hpending', -, -, h, heffect⟩
  · rw [Runs, hfails] at hcommit
    cases hcommit
  · rw [hpending] at hpending'
    cases hpending'
    rw [Runs, hruns] at hcommit
    cases hcommit
    have hslot : s'.processes.slot process = .ok { h.slot with state := some .exited, exitCode := some 0 } := by
      rw [heffect.processes, Function.update_self]
    exact .of_slot (heffect.coherent hs) hslot rfl rfl

private theorem ReportsUntilReaped.unique {s : System} {process : ProcessId} {code code' : U64}
    (h : ReportsUntilReaped s process code) (h' : ReportsUntilReaped s process code') : code = code' := by
  have hcode := (h [] [] s (by simp) rfl).1
  rw [(h' [] [] s (by simp) rfl).1] at hcode
  cases hcode
  rfl

/-- The code of an exit that the current process has asked for and that is committed, whatever happens in between, is
reported until the process is reaped exactly when it is 0. -/
theorem exitCode_reported_iff {trace : List (ResumeEvent TaskId InterruptedState)} {s : System} (hrun : Run trace s)
    {process : ProcessId} (hprocess : s.currentProcess = some process) {code : U64} {r : SystemRuntime}
    (hexit : s.toSystemRuntime.exit code = (r, .ok ())) {ops : List Op}
    {events : List (ResumeEvent TaskId InterruptedState)} {s₁ s₂ : System} (hops : .commitPendingExit ∉ ops)
    (hmid : performAll { s with toSystemRuntime := r } ops = some (events, s₁)) {transfer : UserReturnTransfer}
    (hcommit : Runs commitPendingExit s₁ transfer s₂) : ReportsUntilReaped s₂ process code ↔ code = 0 := by
  have hs := hrun.coherent
  rcases exit_cases s.toSystemRuntime code with ⟨e, -, hexit'⟩ | ⟨user, hchecked, hexit'⟩
  · rw [hexit] at hexit'
    cases hexit'
  · rw [hexit] at hexit'
    cases hexit'
    have huser : user.process = process :=
      Option.some.inj ((currentProcess_of_checked hchecked).symm.trans hprocess)
    obtain ⟨hs₁, hpending, -⟩ := performAll_keeps
      (fun s => s.pendingExit = some (user.process, user.task, code) ∧ s.currentProcess ≠ none)
      (· ≠ .commitPendingExit)
      (fun heffect henabled hallowed hkept => heffect.pending_kept henabled hallowed hkept)
      ((Effect.exitAsked code hchecked).coherent hs) ⟨rfl, by simp [hprocess]⟩ (fun op hmem heq => hops (heq ▸ hmem))
        hmid
    rw [huser] at hpending
    have hzero := reports_zero hs₁ hpending hcommit
    exact ⟨fun h => h.unique hzero, fun h => h ▸ hzero⟩

/-! ### An exit with the code 7 -/

/-- The current process asks to exit with `code`, and the exit is committed. -/
def exitWith (s : System) (code : U64) : Option System :=
  match commitPendingExit.exec { s with toSystemRuntime := (s.toSystemRuntime.exit code).1 } with
  | .returned (.ok _, s') => some s'
  | _ => none

private theorem runs_of_exitWith {s s' : System} {code : U64} (h : s.exitWith code = some s') :
    ∃ transfer, Runs commitPendingExit { s with toSystemRuntime := (s.toSystemRuntime.exit code).1 } transfer s' := by
  unfold exitWith at h
  split at h
  · rename_i transfer s₁ hexec
    cases h
    exact ⟨transfer, hexec⟩
  · cases h

/-- The first of two processes exits with 7; it is reported and would be reaped with 0. -/
theorem exit_seven_reported_zero : ∃ trace s s', Run trace s ∧ s.currentProcess = some ⟨0, 1⟩ ∧
    (s.toSystemRuntime.exit 7).2 = .ok () ∧ s.exitWith 7 = some s' ∧ s'.processes.exitCode ⟨0, 1⟩ = .ok (some 0) ∧
    (s'.processes.reap ⟨0, 1⟩).2.toOption.map ReapedProcess.exitCode = some 0 ∧ ¬ ReportsUntilReaped s' ⟨0, 1⟩ 7 := by
  obtain ⟨trace, s, hrun, hprocess, hexit, hcommit⟩ := Run.of_performAll 0
    (φ := fun _ s => s.currentProcess = some ⟨0, 1⟩ ∧ (s.toSystemRuntime.exit 7).2 = .ok () ∧
      (s.exitWith 7).any (fun s' => s'.processes.exitCode ⟨0, 1⟩ = .ok (some 0) ∧
        (s'.processes.reap ⟨0, 1⟩).2.toOption.map ReapedProcess.exitCode = some 0) = true)
    [.spawnSample 1 (by decide), .spawnSample 2 (by decide), .startUser ⟨0, 1⟩] (by decide +kernel)
  obtain ⟨s', hs', hread⟩ := (Option.any_eq_true _ _).mp hcommit
  obtain ⟨hcode, hreap⟩ := of_decide_eq_true hread
  refine ⟨trace, s, s', hrun, hprocess, hexit, hs', hcode, hreap, fun h => ?_⟩
  have hseven := (h [] [] s' (by simp) rfl).1
  rw [hcode] at hseven
  cases hseven

/-- An exit with the code 0 is reported. -/
theorem exit_zero_reported : ∃ trace s s', Run trace s ∧ s.exitWith 0 = some s' ∧ ReportsUntilReaped s' ⟨0, 1⟩ 0 := by
  obtain ⟨trace, s, hrun, hprocess, hexit, hcommit⟩ := Run.of_performAll 0
    (φ := fun _ s => s.currentProcess = some ⟨0, 1⟩ ∧ (s.toSystemRuntime.exit 0).2 = .ok () ∧
      (s.exitWith 0).isSome = true)
    [.spawnSample 1 (by decide), .spawnSample 2 (by decide), .startUser ⟨0, 1⟩] (by decide +kernel)
  obtain ⟨s', hs'⟩ := Option.isSome_iff_exists.mp hcommit
  obtain ⟨transfer, hruns⟩ := runs_of_exitWith hs'
  exact ⟨trace, s, s', hrun, hs',
    (exitCode_reported_iff hrun hprocess (Prod.ext rfl hexit) (List.not_mem_nil) rfl hruns).mpr rfl⟩

end System

end X11Os
