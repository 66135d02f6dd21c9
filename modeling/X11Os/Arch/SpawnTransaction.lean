import X11Os.Arch.SystemRuns
import X11Os.Lib.Hoare
import X11Os.Scheduler.Names

/-!
# Spawning is transactional

A spawn that fails gives back everything but the numbers of the slots that it has used, and a spawn that succeeds adds
exactly its own entries.  The registries may hold anything; of the scheduler it is enough that it has been reached by
its operations, and in every run of the system it has.
-/

namespace X11Os

open Word Exec

/-! ### The scheduler of the system -/

namespace KernelTaskManager

theorem spawn_reached {m : KernelTaskManager} (h : m.scheduler.Reached) (priority : Priority)
    (placement : Option Placement) : (m.spawn priority placement).1.scheduler.Reached := by
  unfold spawn
  rcases hcreate : m.scheduler.createTask priority with ⟨s₁, id⟩
  have hcreated : s₁.Reached := h.of_perform (.createTask priority) (congrArg Prod.fst hcreate)
  dsimp only
  rcases hattach : s₁.attachExecution id with ⟨s₂, attached⟩
  have hattached : s₂.Reached := hcreated.of_perform (.attachExecution id) (congrArg Prod.fst hattach)
  have hdestroyed : (s₂.destroyCreated id).1.Reached := hattached.perform (.destroyCreated id)
  cases attached with
  | error e => exact hdestroyed
  | ok handle =>
    dsimp only
    rcases m.executions.insert handle placement with ⟨executions, e | _⟩
    · exact hdestroyed
    dsimp only
    rcases hmake : s₂.makeReady id with ⟨s₃, made⟩
    have hready : s₃.Reached := hattached.of_perform (.makeReady id) (congrArg Prod.fst hmake)
    cases made with
    | false => exact hready.perform (.destroyCreated id)
    | true => exact hready

end KernelTaskManager

namespace SystemRuntime

private theorem spawnUserReady_reached {s : SystemRuntime} (h : s.scheduler.Reached) (image : ProcessImage)
    (launch : PreparedUserLaunch) (priority : Priority) (placement : Option Placement) :
    (s.spawnUserReady image launch priority placement).1.scheduler.Reached := by
  unfold spawnUserReady
  dsimp only
  split_ifs
  · exact h
  rcases hcreate : s.scheduler.createUserTask priority with ⟨s₁, task⟩
  have hcreated : s₁.Reached := h.of_perform (.createUserTask priority) (congrArg Prod.fst hcreate)
  dsimp only
  rcases hattach : s₁.attachExecution task with ⟨s₂, attached⟩
  have hattached : s₂.Reached := hcreated.of_perform (.attachExecution task) (congrArg Prod.fst hattach)
  have hdestroyed : (s₂.destroyCreated task).1.Reached := hattached.perform (.destroyCreated task)
  cases attached with
  | error e => exact hdestroyed
  | ok execution =>
    dsimp only
    rcases s.executions.insert execution placement with ⟨executions, e | _⟩
    · exact hdestroyed
    dsimp only
    rcases s.processes.spawnReady image task execution image.addressSpace.id with ⟨processes, e | spawned⟩
    · exact hdestroyed
    dsimp only
    rcases UserExecutionBinding.new spawned.id task image.addressSpace.id launch with e | binding
    · exact hdestroyed
    dsimp only
    rcases s.userspace.insert binding with ⟨userspace, e | _⟩
    · exact hdestroyed
    dsimp only
    rcases hmake : s₂.makeReady task with ⟨s₃, made⟩
    have hready : s₃.Reached := hattached.of_perform (.makeReady task) (congrArg Prod.fst hmake)
    cases made with
    | false => exact hready.perform (.destroyCreated task)
    | true => exact hready

end SystemRuntime

namespace System

/-- The scheduler of the system has been reached by its operations. -/
def SchedulerReached (s : System) : Prop := s.scheduler.Reached

section Keeps

variable {ε α : Type}

private theorem onProcesses_keeps (op : ProcessManager → ProcessManager × Except ε α) :
    Keeps SchedulerReached (onProcesses op) :=
  .focus fun _ hs => hs

private theorem onUserspace_keeps (op : UserExecutionRegistry → UserExecutionRegistry × Except ε α) :
    Keeps SchedulerReached (onUserspace op) :=
  .focus fun _ hs => hs

private theorem scheduleNext_keeps : Keeps SchedulerReached (scheduleNext : Exec System ε DispatchDecision) := by
  unfold scheduleNext onScheduler
  exact .focus fun _ hs => Scheduler.Reached.perform hs .scheduleNext

private theorem consumeResume_keeps (transfer : UserReturnTransfer) (task : TaskId) :
    Keeps SchedulerReached (consumeResume transfer task : Exec System ε Unit) := by
  unfold consumeResume
  split_ifs
  · exact .bind (.expect (onUserspace_keeps _)) fun _ => .pure
  · exact .pure

end Keeps

private theorem startUser_keeps (process : ProcessId) : Keeps SchedulerReached (startUser process) :=
  .bind .get fun _ => .bind .orThrow fun _ => .bind .okOr fun _ => .bind .okOr fun _ => .bind .reject fun _ =>
    .bind .orThrow fun _ => .bind .reject fun _ => .bind .okOr fun _ => .bind .reject fun _ =>
    .bind (.modify fun _ hs => hs) fun _ => .bind (.mapErr (onProcesses_keeps _)) fun _ =>
    .bind scheduleNext_keeps fun _ =>
    .bind .get fun _ => .bind .reject fun _ => .bind (.modify fun _ hs => hs) fun _ =>
    .bind (.modify fun _ hs => hs) fun _ => .bind (.modify fun _ hs => hs) fun _ => .pure

private theorem commitPendingExit_keeps : Keeps SchedulerReached commitPendingExit :=
  .bind .get fun _ => .bind .okOr fun _ => .bind .reject fun _ => .bind .orThrow fun _ => .bind .orThrow fun _ =>
    .bind .okOr fun _ => .bind .reject fun _ => .bind .orThrow fun _ => .bind .reject fun _ => .bind .orThrow fun _ =>
    .bind .okOr fun _ => .bind .okOr fun _ => .bind (.mapErr (onProcesses_keeps _)) fun _ =>
    .bind (.mapErr (onProcesses_keeps _)) fun _ =>
    .bind (.mapErr (.focus fun _ hs => Scheduler.Reached.perform hs (.terminateCurrentTo _))) fun _ =>
    .bind (.mapErr (onUserspace_keeps _)) fun _ => .bind (.modify fun _ hs => hs) fun _ =>
    .bind (consumeResume_keeps _ _) fun _ => .bind (.modify fun _ hs => hs) fun _ =>
    .bind (.modify fun _ hs => hs) fun _ => .bind (.modify fun _ hs => hs) fun _ => .pure

private theorem finishYield_keeps (process : ProcessId) (successor : SystemRuntime.UserSuccessorPlan)
    (transfer : UserReturnTransfer) (stackTop : U64) :
    Keeps SchedulerReached (finishYield process successor transfer stackTop) :=
  .bind (.mapErr (onProcesses_keeps _)) fun _ => .bind scheduleNext_keeps fun _ => .bind .get fun _ =>
    .bind .reject fun _ => .bind (consumeResume_keeps _ _) fun _ => .bind (.modify fun _ hs => hs) fun _ =>
    .bind (.modify fun _ hs => hs) fun _ => .bind (.modify fun _ hs => hs) fun _ => .pure

private theorem commitUserspaceYieldWithSnapshot_keeps (interrupted : Option (TaskId × InterruptedState)) :
    Keeps SchedulerReached (commitUserspaceYieldWithSnapshot interrupted) := by
  refine .bind .get fun s => .bind .okOr fun _ => .bind .okOr fun task => .bind .orThrow fun _ => .bind .okOr fun _ =>
    .bind .reject fun _ => .bind .orThrow fun _ => .bind .reject fun _ => ?_
  split
  · exact .pure
  · exact .throw
  · refine .bind .orThrow fun _ => .bind .okOr fun _ => ?_
    split
    · exact finishYield_keeps _ _ _ _
    · exact .bind .reject fun _ => .bind (.mapErr (onUserspace_keeps _)) fun _ => finishYield_keeps _ _ _ _

private theorem reached_of_exec {ε α β : Type} {x : Exec System ε α} (hx : Keeps SchedulerReached x) {s s' : System}
    (h : s.scheduler.Reached) {f : Except ε α × System → β} {b : β}
    (hperform : ((x.exec s).bind fun r => .returned (r.2, f r)) = .returned (s', b)) : s'.scheduler.Reached := by
  rcases hexec : x.exec s with ⟨r, s₁⟩ | _
  · rw [hexec] at hperform
    cases hperform
    exact hx.of_exec h hexec
  · rw [hexec] at hperform
    cases hperform

/-- The system changes its scheduler by the operations of the scheduler only. -/
private theorem Op.perform_reached {s s' : System} {op : Op} {transfer : Option UserReturnTransfer}
    (hperform : op.perform s = .returned (s', transfer)) (h : s.scheduler.Reached) : s'.scheduler.Reached := by
  cases op with
  | spawnUserReady image launch priority placement =>
    cases hperform
    exact SystemRuntime.spawnUserReady_reached h image launch priority placement
  | spawnKernel priority placement =>
    cases hperform
    exact KernelTaskManager.spawn_reached h priority placement
  | startUser process => exact reached_of_exec (startUser_keeps process) h hperform
  | exit code =>
    cases hperform
    rcases exit_cases s.toSystemRuntime code with ⟨e, -, hexit⟩ | ⟨user, -, hexit⟩
    · rw [hexit]
      exact h
    · rw [hexit]
      exact h
  | yieldNow =>
    cases hperform
    rcases yieldNow_cases s.toSystemRuntime with ⟨e, hyield⟩ | ⟨user, -, hyield⟩
    · rw [hyield]
      exact h
    · rw [hyield]
      exact h
  | commitPendingExit => exact reached_of_exec commitPendingExit_keeps h hperform
  | commitUserspaceYieldWithSnapshot interrupted =>
    exact reached_of_exec (commitUserspaceYieldWithSnapshot_keeps interrupted) h hperform
  | reap process =>
    cases hperform
    exact h

private theorem Run.scheduler_reached {trace : List (ResumeEvent TaskId InterruptedState)} {s : System}
    (h : Run trace s) :
    s.scheduler.Reached := by
  induction h with
  | boot stackTop => exact ⟨[], rfl⟩
  | step h op henabled hperform ih => exact op.perform_reached hperform ih

end System

/-! ### Both spawns -/

/-- Over a scheduler that has been reached by its operations, and with any entries in the registries, a spawn of a
kernel task or of a process that fails leaves everything but the numbers of the slots as it was, and one that succeeds
adds its own entries and no others. -/
theorem spawn_transactional {scheduler : Scheduler} (hreached : scheduler.Reached)
    (hslots : scheduler.tasks.length < 2 ^ 32) :
    (∀ m : KernelTaskManager, m.scheduler = scheduler → ∀ priority placement m',
      (∀ e, m.spawn priority placement = (m', .error e) → m.Restored m') ∧
      ∀ id, m.spawn priority placement = (m', .ok id) → m.Gained m' id .kernel) ∧
    ∀ s : SystemRuntime, s.scheduler = scheduler → ∀ image launch priority placement s',
      (∀ e, s.spawnUserReady image launch priority placement = (s', .error e) → s.Restored s') ∧
      ∀ process task, s.spawnUserReady image launch priority placement = (s', .ok (process, task)) →
        s.Gained s' process task image launch := by
  have hnumbered := hreached.numbered hslots
  have hsound := hreached.sound
  constructor
  · rintro m rfl priority placement m'
    obtain ⟨m₁, id, ⟨e, hspawn, habandoned⟩ | ⟨hspawn, -, hgained⟩⟩ :=
      KernelTaskManager.spawn_ends hnumbered hsound hslots priority placement
    · rw [hspawn]
      refine ⟨fun e' h => ?_, fun id' h => by cases h⟩
      cases h
      exact habandoned.restored
    · rw [hspawn]
      refine ⟨fun e' h => (by cases h), fun id' h => ?_⟩
      cases h
      exact hgained
  · rintro s rfl image launch priority placement s'
    rcases SystemRuntime.spawnUserReady_ends hnumbered hsound hslots image launch priority placement with
      ⟨e, hspawn⟩ | ⟨s₁, task, e, hspawn, hgiven⟩ | ⟨s₁, process, task, hspawn, -, hgained⟩
    · rw [hspawn]
      refine ⟨fun e' h => ?_, fun process' task' h => by cases h⟩
      cases h
      exact ⟨⟨rfl, rfl, rfl, rfl, rfl⟩, rfl, rfl, rfl, rfl⟩
    · rw [hspawn]
      refine ⟨fun e' h => ?_, fun process' task' h => by cases h⟩
      cases h
      exact hgiven.restored
    · rw [hspawn]
      refine ⟨fun e' h => (by cases h), fun process' task' h => ?_⟩
      cases h
      exact hgained

namespace SpawnSample

def image : ProcessImage := MinimalElf.image ⟨3, by decide⟩

def launch : PreparedUserLaunch := System.sampleLaunch ⟨3, by decide⟩

/-- Beside two processes, the first of which runs, a third one is spawned: once without memory for its
stack, once with. -/
theorem spawn_transactional_third : ∃ trace s, System.Run trace s ∧
    (∃ s' e, s.toSystemRuntime.spawnUserReady image launch .default none = (s', .error e) ∧
      s.toSystemRuntime.Restored s') ∧
    ∃ s', s.toSystemRuntime.spawnUserReady image launch .default (some ⟨0x300000, 0x9000, 0x8000, by decide⟩) =
        (s', .ok (⟨2, 1⟩, ⟨2, 1⟩)) ∧
      s.toSystemRuntime.Gained s' ⟨2, 1⟩ ⟨2, 1⟩ image launch := by
  obtain ⟨trace, s, hrun, hslots, hfails, hspawns⟩ := System.Run.of_performAll 0
    (φ := fun _ s => s.scheduler.tasks.length < 2 ^ 32 ∧
      (s.toSystemRuntime.spawnUserReady image launch .default none).2 =
        .error (.runtime (.task (.registry .allocation))) ∧
      (s.toSystemRuntime.spawnUserReady image launch .default (some ⟨0x300000, 0x9000, 0x8000, by decide⟩)).2 =
        .ok (⟨2, 1⟩, ⟨2, 1⟩))
    [.spawnSample 1 (by decide), .spawnSample 2 (by decide), .startUser ⟨0, 1⟩] (by decide +kernel)
  obtain ⟨-, hspawn⟩ := spawn_transactional hrun.scheduler_reached hslots
  exact ⟨trace, s, hrun,
    ⟨_, _, Prod.ext rfl hfails, (hspawn s.toSystemRuntime rfl _ _ _ _ _).1 _ (Prod.ext rfl hfails)⟩,
    _, Prod.ext rfl hspawns, (hspawn s.toSystemRuntime rfl _ _ _ _ _).2 _ _ (Prod.ext rfl hspawns)⟩

end SpawnSample

end X11Os
