import X11Os.Arch.SystemRuns
import X11Os.Process.ResumeTrace

/-!
# Userspace tasks resume where they were interrupted

The trace of a run of the system holds the snapshot of every userspace task that has lost the CPU and the resume state
of every transfer.  A task that has been interrupted is resumed from its last snapshot, each snapshot is used once,
and none is stored for the task that owns the CPU.
-/

namespace X11Os

open Word

namespace System

open SystemRuntime

/-- Storing a snapshot of the owner of the CPU never finds one already stored. -/
private theorem installResume_ne_alreadyPresent {s : System} (hs : s.Coherent) {task : TaskId}
    (hcur : s.scheduler.current = some task) (state : InterruptedState) :
    (s.userspace.installResume task state).2 ≠ .error (.binding .resumeStateAlreadyPresent) := by
  unfold UserExecutionRegistry.installResume
  split
  · simp
  · rename_i b hb
    have hnone : b.resume = none := hs.resume_owner hcur hb
    by_cases hvalid : state.isUserValid = true
    · simp [UserExecutionBinding.installResume, hnone, hvalid, Except.mapError]
    · simp [UserExecutionBinding.installResume, hnone, hvalid, Except.mapError]

/-- In a run in which every switch has taken a snapshot, a transfer carries the last snapshot of its task, and none
when the task has never been switched out; between two transfers to a task there is a switch that has taken what the
second one carries; and no snapshot is stored for the owner of the CPU. -/
theorem run_resumes {trace : List (ResumeEvent TaskId InterruptedState)} {s : System} (h : Run trace s)
    (hcaptured : ∀ task, .switchedOut task none ∉ trace) :
    (∀ before task resume after, trace = before ++ .transferred task resume :: after →
      resume = (snapshots task before).getLast?) ∧
    (∀ before task resume mid resume' after,
      trace = before ++ .transferred task resume :: (mid ++ .transferred task resume' :: after) →
      .switchedOut task resume' ∈ mid) ∧
    ∀ task, s.scheduler.current = some task → (∀ b, s.userspace.get task = some b → b.resume = none) ∧
      ∀ state, (s.userspace.installResume task state).2 ≠ .error (.binding .resumeStateAlreadyPresent) := by
  obtain ⟨-, -, htracks⟩ := h.reach.tracks
  refine ⟨fun before task resume after heq => ?_, fun before task resume mid resume' after heq => ?_,
    fun task hcur => ⟨fun b hb => h.coherent.resume_owner hcur hb, fun state => ?_⟩⟩
  · refine (htracks.faithful before task resume after heq).eq_getLast? fun task' hmem => hcaptured task' ?_
    rw [heq]
    exact List.mem_append_left _ hmem
  · exact htracks.faithful.switchedOut_between heq
  · exact installResume_ne_alreadyPresent h.coherent hcur state

/-- A snapshot of a user program. -/
def sampleSnapshot (rip : U64) : InterruptedState :=
  ⟨⟨0, 0, 0, 0, 0, 0, 0, 0, 0, 0, 0, 0, 0, 0, 0⟩, ⟨rip, 0x1b, 0x202, 0x7000, some 0x7000, some 0x13⟩⟩

/-- Two processes take turns, and the first one gets its own snapshot back. -/
theorem run_resumes_two_processes : ∃ trace s, Run trace s ∧
    trace = [.switchedOut ⟨0, 1⟩ (some (sampleSnapshot 0x401005)), .transferred ⟨1, 1⟩ none,
      .switchedOut ⟨1, 1⟩ (some (sampleSnapshot 0x401009)), .transferred ⟨0, 1⟩ (some (sampleSnapshot 0x401005))] ∧
    some (sampleSnapshot 0x401005) = (snapshots ⟨0, 1⟩ (trace.take 3)).getLast? := by
  obtain ⟨trace, s, hrun, htrace⟩ := Run.of_performAll 0
    (φ := fun trace _ => trace = [.switchedOut ⟨0, 1⟩ (some (sampleSnapshot 0x401005)), .transferred ⟨1, 1⟩ none,
      .switchedOut ⟨1, 1⟩ (some (sampleSnapshot 0x401009)), .transferred ⟨0, 1⟩ (some (sampleSnapshot 0x401005))])
    [.spawnSample 1 (by decide), .spawnSample 2 (by decide), .startUser ⟨0, 1⟩,
      .commitUserspaceYieldWithSnapshot (some (⟨0, 1⟩, sampleSnapshot 0x401005)),
      .commitUserspaceYieldWithSnapshot (some (⟨1, 1⟩, sampleSnapshot 0x401009))] (by decide +kernel)
  subst htrace
  exact ⟨_, s, hrun, rfl, (run_resumes hrun (by simp)).1 _ _ _ [] rfl⟩

end System

end X11Os
