import X11Os.Arch.SyscallEntry
import X11Os.Lib.Traces

/-!
# What the CPU enters in user mode

Over every run of the system runtime, a userspace task stays bound to the launch that it was spawned with, whatever is
started, exits, yields, resumes or is reaped in between.  The launch of the first process and every transfer therefore
activate the root of the spawn that has made the process, and go on with the frame of that launch, or with a snapshot
that was taken in user mode (`user_entries_confined`).
-/

namespace X11Os

open Word Exec SystemRuntime

/-! ### The frame and the snapshot of a transfer -/

/-- A transfer that enters a task for the first time does so with selectors of ring 3, and a state that it resumes was
taken in user mode.  Which words `resume_user` makes of that state is not said here. -/
structure UserReturnTransfer.FromUser (t : UserReturnTransfer) : Prop where
  enters : t.resume = none → t.frame.cs &&& 3 = 3 ∧ t.frame.ss &&& 3 = 3
  resumes : ∀ state, t.resume = some state → state.isUserValid = true

private theorem UserReturnTransfer.fromUser {t : UserReturnTransfer}
    (h : ∀ state, t.resume = some state → state.isUserValid = true) : t.FromUser := by
  refine ⟨fun _ => ?_, h⟩
  obtain ⟨hcs, -, hss⟩ := t.binding.launch.frame_fields
  show t.binding.launch.frame.cs &&& 3 = 3 ∧ t.binding.launch.frame.ss &&& 3 = 3
  rw [hcs, hss]
  exact ⟨rfl, rfl⟩

namespace System

/-! ### Spawns of a run -/

/-- An operation that returns, with the transfer that the CPU takes after it. -/
def Op.Returns (s : System) (label : Op × Option UserReturnTransfer) (s' : System) : Prop :=
  label.1.Enabled s ∧ label.1.perform s = .returned (s', label.2)

/-- A spawn of the run has made the process and the task of the binding, with its launch and for the address space
of its image. -/
def SpawnedIn (stackTop : U64) (history : List (Op × Option UserReturnTransfer)) (b : UserExecutionBinding) : Prop :=
  ∃ before after s₀ image priority placement,
    history = before ++ (.spawnUserReady image b.launch priority placement, none) :: after ∧
    Trace Op.Returns (boot stackTop) before s₀ ∧
    (s₀.toSystemRuntime.spawnUserReady image b.launch priority placement).2 = .ok (b.process, b.task) ∧
    b.launch.addressSpace = image.addressSpace.id ∧ b.addressSpace = image.addressSpace.id

/-- The state that a task resumes says nothing about its spawn. -/
private theorem SpawnedIn.later {stackTop : U64} {history : List (Op × Option UserReturnTransfer)}
    {b : UserExecutionBinding}
    (h : SpawnedIn stackTop history b) (label : Op × Option UserReturnTransfer) (resume : Option InterruptedState) :
    SpawnedIn stackTop (history ++ [label]) { b with resume } := by
  obtain ⟨before, after, s₀, image, priority, placement, rfl, hrest⟩ := h
  exact ⟨before, after ++ [label], s₀, image, priority, placement, by rw [List.append_assoc, List.cons_append], hrest⟩

/-! ### The bindings after an operation -/

/-- A spawn binds its launch to the task that it returns, and leaves the other bindings. -/
private theorem spawnUserReady_binding {s : SystemRuntime} {image : ProcessImage} {launch : PreparedUserLaunch}
    {priority : Priority} {placement : Option Placement} {task : TaskId} {b : UserExecutionBinding}
    (h : (s.spawnUserReady image launch priority placement).1.userspace.get task = some b) :
    s.userspace.get task = some b ∨
      b.launch = launch ∧ (s.spawnUserReady image launch priority placement).2 = .ok (b.process, b.task) ∧
        launch.addressSpace = image.addressSpace.id ∧ b.addressSpace = image.addressSpace.id := by
  generalize hr : s.spawnUserReady image launch priority placement = r at h ⊢
  unfold spawnUserReady at hr
  dsimp only at hr
  split_ifs at hr with hspace
  · subst hr
    exact .inl h
  rw [not_not] at hspace
  split at hr
  · subst hr
    exact .inl h
  split at hr
  · subst hr
    exact .inl h
  split at hr
  · subst hr
    exact .inl h
  rename_i processes spawned hspawned
  split at hr
  · subst hr
    exact .inl h
  rename_i binding hbinding
  obtain rfl : (⟨spawned.id, (s.scheduler.createUserTask priority).2, image.addressSpace.id, launch, none⟩ :
      UserExecutionBinding) = binding := by
    unfold UserExecutionBinding.new at hbinding
    split_ifs at hbinding
    exact Except.ok.inj hbinding
  rcases s.userspace.insert_cases
      ⟨spawned.id, (s.scheduler.createUserTask priority).2, image.addressSpace.id, launch, none⟩
    with ⟨e, hinsert⟩ | ⟨r', hinsert, -, hget⟩
  · rw [hinsert] at hr
    subst hr
    exact .inl h
  rw [hinsert] at hr
  dsimp only at hr hget
  split at hr
  · -- the task could not be made ready, and its binding is removed again
    obtain ⟨r'', hremove, hget'⟩ := UserExecutionRegistry.remove_ok (by rw [hget, Function.update_self])
    subst hr
    dsimp only at h
    rw [hremove] at h
    rw [hget', hget, Function.update_idem] at h
    by_cases htask : task = (s.scheduler.createUserTask priority).2
    · rw [htask, Function.update_self] at h
      cases h
    · rw [Function.update_of_ne htask] at h
      exact .inl h
  · subst hr
    dsimp only at h
    rw [hget] at h
    by_cases htask : task = (s.scheduler.createUserTask priority).2
    · rw [htask, Function.update_self] at h
      cases h
      exact .inr ⟨rfl, rfl, hspace, rfl⟩
    · rw [Function.update_of_ne htask] at h
      exact .inl h

/-- The bindings of a handover: those of before it, up to the states that they resume. -/
private theorem binding_of_update {get : TaskId → Option UserExecutionBinding} {current next task : TaskId}
    {given : Option UserExecutionBinding} {b plan : UserExecutionBinding} (hnext : get next = some plan)
    (hgiven : ∀ b', given = some b' → ∃ b₀ resume, get current = some b₀ ∧ b' = { b₀ with resume })
    (h : Function.update (Function.update get current given) next (some { plan with resume := none }) task = some b) :
    ∃ task₀ b₀ resume, get task₀ = some b₀ ∧ b = { b₀ with resume } := by
  by_cases htask : task = next
  · rw [htask, Function.update_self] at h
    exact ⟨next, plan, none, hnext, (Option.some.inj h).symm⟩
  rw [Function.update_of_ne htask] at h
  by_cases hcurrent : task = current
  · rw [hcurrent, Function.update_self] at h
    obtain ⟨b₀, resume, hb₀, rfl⟩ := hgiven b h
    exact ⟨current, b₀, resume, hb₀, rfl⟩
  · rw [Function.update_of_ne hcurrent] at h
    exact ⟨task, b, b.resume, h, rfl⟩

/-- A binding after an operation is one of before it, up to the state that it resumes, or the one of a spawn. -/
private theorem Op.Returns.binding {s s' : System} {label : Op × Option UserReturnTransfer}
    (h : Op.Returns s label s') (hs : s.Coherent) {task : TaskId} {b : UserExecutionBinding}
    (hb : s'.userspace.get task = some b) :
    (∃ task₀ b₀ resume, s.userspace.get task₀ = some b₀ ∧ b = { b₀ with resume }) ∨
      ∃ image priority placement, label = (.spawnUserReady image b.launch priority placement, none) ∧
        (s.toSystemRuntime.spawnUserReady image b.launch priority placement).2 = .ok (b.process, b.task) ∧
        b.launch.addressSpace = image.addressSpace.id ∧ b.addressSpace = image.addressSpace.id := by
  obtain ⟨op, transfer⟩ := label
  obtain ⟨henabled, hperform⟩ := h
  dsimp only at henabled hperform
  have hkeep : s'.userspace = s.userspace →
      ∃ task₀ b₀ resume, s.userspace.get task₀ = some b₀ ∧ b = { b₀ with resume } := by
    intro heq
    rw [heq] at hb
    exact ⟨task, b, b.resume, hb, rfl⟩
  cases op with
  | spawnUserReady image launch priority placement =>
    obtain ⟨rfl, rfl⟩ := Prod.mk.inj (Panics.returned.inj hperform)
    rcases spawnUserReady_binding hb with hold | ⟨rfl, hresult, hroot, haddress⟩
    · exact .inl ⟨task, b, b.resume, hold, rfl⟩
    · exact .inr ⟨image, priority, placement, rfl, hresult, hroot, haddress⟩
  | spawnKernel priority placement =>
    obtain ⟨rfl, rfl⟩ := Prod.mk.inj (Panics.returned.inj hperform)
    refine .inl (hkeep ?_)
    obtain ⟨r, task, ⟨e, hspawn, hgiven⟩ | ⟨hspawn, hspawned⟩⟩ := spawnKernel_cases hs henabled priority placement
    · rw [hspawn]
      exact hgiven.userspace
    · rw [hspawn]
      exact hspawned.userspace
  | reap process =>
    obtain ⟨rfl, rfl⟩ := Prod.mk.inj (Panics.returned.inj hperform)
    refine .inl (hkeep ?_)
    rcases s.toSystemRuntime.reap_cases process with ⟨e, hreap⟩ | ⟨r, reaped, hreap, hreaped⟩
    · rw [hreap]
    · rw [hreap]
      show r.userspace = _
      rw [hreaped.others]
  | exit code =>
    obtain ⟨rfl, rfl⟩ := Prod.mk.inj (Panics.returned.inj hperform)
    refine .inl (hkeep ?_)
    rcases exit_cases s.toSystemRuntime code with ⟨e, -, hexit⟩ | ⟨user, hchecked, hexit⟩
    · rw [hexit]
    · rw [hexit]
  | yieldNow =>
    obtain ⟨rfl, rfl⟩ := Prod.mk.inj (Panics.returned.inj hperform)
    refine .inl (hkeep ?_)
    rcases yieldNow_cases s.toSystemRuntime with ⟨e, hyield⟩ | ⟨user, -, hyield⟩
    · rw [hyield]
    · rw [hyield]
  | startUser process =>
    refine .inl (hkeep ?_)
    rcases startUser_transacts hs henabled process with ⟨e, hexec⟩ | ⟨launch, s₁, hruns, user, -, hlaunch, heffect⟩
    · rw [Op.perform, hexec, Panics.bind_returned] at hperform
      cases hperform
      rfl
    · rw [Op.perform, hruns, Panics.bind_returned] at hperform
      cases hperform
      exact heffect.userspace
  | commitPendingExit =>
    left
    rcases commitPendingExit_transacts hs with
      ⟨e, hexec⟩ | ⟨t, s₁, hruns, process, current, code, plan, hpending, -, -, hover, heffect⟩
    · rw [Op.perform, hexec, Panics.bind_returned] at hperform
      cases hperform
      exact hkeep rfl
    · rw [Op.perform, hruns, Panics.bind_returned] at hperform
      cases hperform
      rw [heffect.userspace] at hb
      refine binding_of_update hover.nextUser_eq (fun b' hb' => ?_) hb
      cases hb'
  | commitUserspaceYieldWithSnapshot interrupted =>
    left
    rcases commitUserspaceYieldWithSnapshot_transacts hs interrupted with
      ⟨e, hexec⟩ | ⟨t, s₁, hruns, ⟨-, rfl⟩ | ⟨process, current, plan, -, -, -, hover, heffect⟩⟩
    · rw [Op.perform, hexec, Panics.bind_returned] at hperform
      cases hperform
      exact hkeep rfl
    · rw [Op.perform, hruns, Panics.bind_returned] at hperform
      cases hperform
      exact hkeep rfl
    · rw [Op.perform, hruns, Panics.bind_returned] at hperform
      cases hperform
      rw [heffect.userspace] at hb
      refine binding_of_update hover.nextUser_eq (fun b' hb' => ?_) hb
      exact ⟨hover.user, _, hover.user_eq, (Option.some.inj hb').symm⟩

/-- A transfer goes to a task that was bound, and its process becomes the current one. -/
private theorem Op.Returns.transfer {s s' : System} {op : Op} {t : UserReturnTransfer}
    (h : Op.Returns s (op, some t) s') (hs : s.Coherent) : ∃ task b, s.userspace.get task = some b ∧ t = .new b ∧
    s'.currentProcess = some t.process := by
  obtain ⟨-, hperform⟩ := h
  dsimp only at hperform
  cases op with
  | commitPendingExit =>
    rcases commitPendingExit_transacts hs with
      ⟨e, hexec⟩ | ⟨t₁, s₁, hruns, process, current, code, plan, hpending, -, rfl, hover, heffect⟩
    · rw [Op.perform, hexec, Panics.bind_returned] at hperform
      cases hperform
    · rw [Op.perform, hruns, Panics.bind_returned] at hperform
      cases hperform
      exact ⟨plan.task, plan.binding, hover.nextUser_eq,
        rfl, by rw [heffect.currentProcess, ← hover.nextUser_process]; rfl⟩
  | commitUserspaceYieldWithSnapshot interrupted =>
    rcases commitUserspaceYieldWithSnapshot_transacts hs interrupted with
      ⟨e, hexec⟩ | ⟨t₁, s₁, hruns, ⟨rfl, rfl⟩ | ⟨process, current, plan, rfl, -, -, hover, heffect⟩⟩
    · rw [Op.perform, hexec, Panics.bind_returned] at hperform
      cases hperform
    · rw [Op.perform, hruns, Panics.bind_returned] at hperform
      cases hperform
    · rw [Op.perform, hruns, Panics.bind_returned] at hperform
      cases hperform
      exact ⟨plan.task, plan.binding, hover.nextUser_eq,
        rfl, by rw [heffect.currentProcess, ← hover.nextUser_process]; rfl⟩
  | startUser process =>
    cases hexec : (System.startUser process).exec s with
    | panicked =>
      rw [Op.perform, hexec] at hperform
      cases hperform
    | returned r =>
      rw [Op.perform, hexec] at hperform
      cases hperform
  | _ => cases hperform

/-! ### Whole runs -/

/-- What holds after every run. -/
structure Confined (stackTop : U64) (history : List (Op × Option UserReturnTransfer)) (s : System) : Prop where
  coherent : s.Coherent
  spawned : ∀ task b, s.userspace.get task = some b → SpawnedIn stackTop history b

private theorem confined_of_run {stackTop : U64} {history : List (Op × Option UserReturnTransfer)} {s : System}
    (h : Trace Op.Returns (boot stackTop) history s) : Confined stackTop history s := by
  induction h with
  | nil =>
    refine ⟨(boot_coherent stackTop).1, fun task b hb => ?_⟩
    cases hb
  | @snoc history label s s' hrun hstep ih =>
    refine ⟨(label.1.effect_of_perform ih.coherent hstep.1 hstep.2).coherent ih.coherent, fun task b hb => ?_⟩
    rcases hstep.binding ih.coherent hb with
      ⟨task₀, b₀, resume, hb₀, rfl⟩ | ⟨image, priority, placement, rfl, hspawn⟩
    · exact (ih.spawned task₀ b₀ hb₀).later label resume
    · exact ⟨history, [], s, image, priority, placement, rfl, hrun, hspawn⟩

/-- Operations that can be performed one after another prolong a run. -/
private theorem trace_performAll {stackTop : U64} {history : List (Op × Option UserReturnTransfer)} {s s' : System}
    {ops : List Op}
    {events : List (ResumeEvent TaskId InterruptedState)} (h : Trace Op.Returns (boot stackTop) history s)
    (hp : s.performAll ops = some (events, s')) : ∃ history', Trace Op.Returns (boot stackTop) history' s' := by
  induction ops generalizing history s events with
  | nil =>
    cases hp
    exact ⟨history, h⟩
  | cons op ops ih =>
    unfold System.performAll at hp
    split_ifs at hp with henabled
    split at hp
    · cases hp
    · rename_i s₁ transfer hperform
      obtain ⟨⟨events', s''⟩, hrest, hpair⟩ := Option.map_eq_some_iff.mp hp
      cases hpair
      have hstep : Op.Returns s (op, transfer) s₁ := ⟨henabled, hperform⟩
      exact ih (h.snoc hstep) hrest

/-- The operation hands the CPU to a userspace task. -/
def Op.transfers (s : System) (op : Op) : Bool :=
  match op.perform s with
  | .returned (_, some _) => true
  | _ => false

private theorem Op.returns_of_transfers {s : System} {op : Op} (henabled : op.Enabled s) (h : op.transfers s = true) :
    ∃ t s', Op.Returns s (op, some t) s' := by
  unfold Op.transfers at h
  split at h
  · rename_i s' t hperform
    exact ⟨t, s', henabled, hperform⟩
  · cases h

/-- After every run, whatever enters user mode is what a spawn of the run has made.  The launch that `start_user`
returns is the one of the spawn of its process.  A transfer has the launch, the process, the task and the address
space of one spawn, it is accepted with a frame of ring 3 or a snapshot of user mode, and its process is then the
current one. -/
theorem user_entries_confined {stackTop : U64} {history : List (Op × Option UserReturnTransfer)} {s : System}
    (h : Trace Op.Returns (boot stackTop) history s) :
    (∀ process launch s', s.currentProcess = none → (startUser process).exec s = .returned (.ok launch, s') →
      ∃ b, SpawnedIn stackTop history b ∧ b.process = process ∧ b.launch = launch ∧
        s'.currentProcess = some process) ∧
    ∀ op t s', Op.Returns s (op, some t) s' →
      SpawnedIn stackTop history t.binding ∧ t.process = t.binding.process ∧ t.task = t.binding.task ∧
        executeUserTransfer t = .returned t ∧ t.FromUser ∧ s'.currentProcess = some t.process := by
  have hconfined := confined_of_run h
  refine ⟨fun process launch s' hidle hexec => ?_, fun op t s' hreturns => ?_⟩
  · rcases startUser_transacts hconfined.coherent hidle process with
      ⟨e, hfails⟩ | ⟨launch₁, s₁, hruns, user, rfl, hlaunch, heffect⟩
    · rw [hfails] at hexec
      cases hexec
    · rw [hruns] at hexec
      cases hexec
      exact ⟨user, hconfined.spawned user.task user hlaunch.user_eq, hlaunch.user_process, rfl,
        heffect.currentProcess⟩
  · obtain ⟨task, b, hb, rfl, hcurrent⟩ := hreturns.transfer hconfined.coherent
    have hresume := hconfined.coherent.resume task b hb
    exact ⟨hconfined.spawned task b hb, rfl, rfl, hconfined.coherent.transfer_accepted hb,
      UserReturnTransfer.fromUser hresume, hcurrent⟩

/-- Two processes are spawned and the first one is started; its yield transfers to the second one. -/
theorem user_entries_confined_two : ∃ history s op t s', Trace Op.Returns (boot 0x9000) history s ∧
    Op.Returns s (op, some t) s' ∧ SpawnedIn 0x9000 history t.binding ∧ t.FromUser := by
  obtain ⟨⟨events, s⟩, hp, htransfers⟩ := (Option.any_eq_true (fun r : _ × System =>
    Op.transfers r.2 (.commitUserspaceYieldWithSnapshot none)) ((boot 0x9000).performAll
      [.spawnSample 1 (by decide), .spawnSample 2 (by decide), .startUser ⟨0, 1⟩])).mp (by decide +kernel)
  obtain ⟨history, htrace⟩ := trace_performAll .nil hp
  have henabled : Op.Enabled s (.commitUserspaceYieldWithSnapshot none) := trivial
  obtain ⟨t, s', hreturns⟩ := Op.returns_of_transfers henabled htransfers
  obtain ⟨hspawned, -, -, -, hfrom, -⟩ := (user_entries_confined htrace).2 _ t s' hreturns
  exact ⟨history, s, _, t, s', htrace, hreturns, hspawned, hfrom⟩

end System

end X11Os
