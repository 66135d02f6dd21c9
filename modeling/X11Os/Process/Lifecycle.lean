import Mathlib.Data.Set.Insert
import X11Os.Process.Manager
import X11Os.Scheduler.Discipline

/-!
# The life of user processes

What the system keeps about user processes, without slots, handles, stacks or page tables: which tasks are live, the
ready queue and the owner of the CPU, which tasks have an execution, which process and which address space a userspace
task belongs to, and the processes with the task each is bound to.  `Move` lists the ways in which these change
together; `Agrees` says how they fit together, and every move keeps it.  A move is labelled with the states that tasks
leave and take up.
-/

namespace X11Os

/-- A userspace task: its process, its address space and the state it resumes from. -/
structure UserEntry (P A R : Type) where
  process : P
  space : A
  resume : Option R

/-- A process: its state, and the task and the address space it is bound to. -/
structure ProcessEntry (T A : Type) where
  state : ProcessState
  binding : Option (T × A)

@[ext] structure Lifecycle (T P A R : Type) where
  task : T → Option (TaskKind × TaskState)
  queue : List T
  current : Option T
  issued : Set T
  executing : Set T
  user : T → Option (UserEntry P A R)
  process : P → Option (ProcessEntry T A)
  currentProcess : Option P

/-- A task loses the CPU, and its state may be captured; a task gets the CPU, to resume from a state or to start. -/
inductive ResumeEvent (T R : Type) where
  | switchedOut (task : T) (snapshot : Option R)
  | transferred (task : T) (resume : Option R)
deriving DecidableEq, Repr

namespace Lifecycle

variable {T P A R : Type}

/-- What the scheduler sees. -/
def discipline (d : Lifecycle T P A R) : Discipline T :=
  { state := fun t => (d.task t).map Prod.snd, queue := d.queue, current := d.current }

/-- The state of a process and the state of its task. -/
inductive InStep : ProcessState → TaskState → Prop where
  | ready : InStep .ready .ready
  | running : InStep .running .running

structure Agrees (d : Lifecycle T P A R) : Prop where
  sound : d.discipline.Sound
  owner : ∀ t, d.current = some t → d.task t = some (.userspace, .running)
  issued : ∀ t, d.task t ≠ none → t ∈ d.issued
  executing : ∀ t, t ∈ d.executing ↔ d.task t ≠ none
  user : ∀ t u, d.user t = some u → ∃ st pst, d.task t = some (.userspace, st) ∧ InStep pst st ∧
    d.process u.process = some ⟨pst, some (t, u.space)⟩
  bound : ∀ t st, d.task t = some (.userspace, st) → d.user t ≠ none
  process : ∀ p e, d.process p = some e → ∃ t a, e.binding = some (t, a) ∧ t ∈ d.issued ∧
    ((e.state = .exited ∧ d.task t = none) ∨ ∃ u, d.user t = some u ∧ u.process = p)
  currentProcess : ∀ p, d.currentProcess = some p ↔ ∃ t u, d.current = some t ∧ d.user t = some u ∧ u.process = p

variable [DecidableEq T] [DecidableEq P]

/-- The task at the head of the queue gets the CPU; `resume` is what remains stored for it. -/
def dispatch (d : Lifecycle T P A R) (t : T) (u : UserEntry P A R) (resume : Option R) (rest : List T) :
    Lifecycle T P A R :=
  { d with
    task := Function.update d.task t (some (.userspace, .running))
    queue := rest
    current := some t
    user := Function.update d.user t (some { u with resume })
    process := Function.update d.process u.process (some ⟨.running, some (t, u.space)⟩)
    currentProcess := some u.process }

/-- The owner of the CPU exits. -/
def retire (d : Lifecycle T P A R) (t : T) (u : UserEntry P A R) : Lifecycle T P A R :=
  { d with
    task := Function.update d.task t none
    current := none
    executing := d.executing \ {t}
    user := Function.update d.user t none
    process := Function.update d.process u.process (some ⟨.exited, some (t, u.space)⟩)
    currentProcess := none }

/-- The owner of the CPU goes to the end of the queue. -/
def suspend (d : Lifecycle T P A R) (t : T) (u : UserEntry P A R) (resume : Option R) : Lifecycle T P A R :=
  { d with
    task := Function.update d.task t (some (.userspace, .ready))
    queue := d.queue ++ [t]
    current := none
    user := Function.update d.user t (some { u with resume })
    process := Function.update d.process u.process (some ⟨.ready, some (t, u.space)⟩)
    currentProcess := none }

inductive Move : Lifecycle T P A R → List (ResumeEvent T R) → Lifecycle T P A R → Prop where
  | claim {d : Lifecycle T P A R} {t : T} (h : t ∉ d.issued) : Move d [] { d with issued := insert t d.issued }
  | addKernel {d : Lifecycle T P A R} {t : T} (h : t ∉ d.issued) :
      Move d [] { d with
        task := Function.update d.task t (some (.kernel, .ready))
        queue := d.queue ++ [t]
        issued := insert t d.issued
        executing := insert t d.executing }
  | addUser {d : Lifecycle T P A R} {t : T} {p : P} {a : A} (h : t ∉ d.issued) (hp : d.process p = none) :
      Move d [] { d with
        task := Function.update d.task t (some (.userspace, .ready))
        queue := d.queue ++ [t]
        issued := insert t d.issued
        executing := insert t d.executing
        user := Function.update d.user t (some ⟨p, a, none⟩)
        process := Function.update d.process p (some ⟨.ready, some (t, a)⟩) }
  | start {d : Lifecycle T P A R} {t : T} {u : UserEntry P A R} {rest : List T} (hidle : d.current = none)
      (hq : d.queue = t :: rest) (hu : d.user t = some u) : Move d [] (d.dispatch t u u.resume rest)
  | exitTo {d : Lifecycle T P A R} {t t' : T} {u u' : UserEntry P A R} {rest : List T} (hcur : d.current = some t)
      (hu : d.user t = some u) (hq : d.queue = t' :: rest) (hu' : d.user t' = some u') :
      Move d [.transferred t' u'.resume] ((d.retire t u).dispatch t' u' none rest)
  | yieldTo {d : Lifecycle T P A R} {t t' : T} {u u' : UserEntry P A R} {rest : List T} (snapshot : Option R)
      (hcur : d.current = some t) (hu : d.user t = some u) (hq : d.queue = t' :: rest) (hu' : d.user t' = some u') :
      Move d [.switchedOut t snapshot, .transferred t' u'.resume]
        ((d.suspend t u (snapshot.or u.resume)).dispatch t' u' none (rest ++ [t]))
  | reap {d : Lifecycle T P A R} {p : P} {e : ProcessEntry T A} (he : d.process p = some e)
    (hexited : e.state = .exited) :
      Move d [] { d with process := Function.update d.process p none }

/-- A move, or nothing happens. -/
def Step (d : Lifecycle T P A R) (events : List (ResumeEvent T R)) (d' : Lifecycle T P A R) : Prop :=
  Move d events d' ∨ d' = d ∧ events = []

/-- No task has been created and no process registered. -/
def initial : Lifecycle T P A R := ⟨fun _ => none, [], none, ∅, ∅, fun _ => none, fun _ => none, none⟩

/-- The runs from the start, with the states that tasks have left and taken up. -/
inductive Reach : List (ResumeEvent T R) → Lifecycle T P A R → Prop where
  | initial : Reach [] initial
  | step {trace events : List (ResumeEvent T R)} {d d' : Lifecycle T P A R} (h : Reach trace d)
    (hstep : Step d events d') :
      Reach (trace ++ events) d'

/-! ### Every move keeps the agreement -/

namespace Agrees

section Facts

omit [DecidableEq T] [DecidableEq P]

variable {d : Lifecycle T P A R}

private theorem absent_of_fresh (hd : d.Agrees) {t : T} (h : t ∉ d.issued) : d.task t = none ∧ d.user t = none := by
  have htask : d.task t = none := by
    by_contra hne
    exact h (hd.issued t hne)
  refine ⟨htask, ?_⟩
  cases hu : d.user t with
  | none => rfl
  | some u =>
    obtain ⟨st, pst, ht, -⟩ := hd.user t u hu
    rw [htask] at ht
    cases ht

/-- Two userspace tasks of one process are the same task. -/
theorem user_inj (hd : d.Agrees) {t t' : T} {u u' : UserEntry P A R} (h : d.user t = some u)
    (h' : d.user t' = some u') (hp : u.process = u'.process) : t = t' := by
  obtain ⟨st, pst, -, -, hprocess⟩ := hd.user t u h
  obtain ⟨st', pst', -, -, hprocess'⟩ := hd.user t' u' h'
  rw [hp, hprocess'] at hprocess
  simp_all

end Facts

variable {d : Lifecycle T P A R}

section Discipline

omit [DecidableEq P]

private theorem discipline_state (t : T) (x : Option (TaskKind × TaskState)) :
    (fun k => (Function.update d.task t x k).map Prod.snd) =
      Function.update d.discipline.state t (x.map Prod.snd) := by
  funext k
  by_cases hk : k = t <;> simp [hk, discipline]

private theorem sound_add (hd : d.Agrees) {t : T} (h : t ∉ d.issued) (kind : TaskKind) :
    Discipline.Sound
      ⟨fun k => (Function.update d.task t (some (kind, .ready)) k).map Prod.snd, d.queue ++ [t], d.current⟩ := by
  rw [discipline_state]
  exact hd.sound.enqueue (by simp [discipline, (hd.absent_of_fresh h).1])

private theorem sound_dispatch (hd : d.Agrees) {t : T} {rest : List T} (hidle : d.current = none)
    (hq : d.queue = t :: rest) (kind : TaskKind) :
    Discipline.Sound ⟨fun k => (Function.update d.task t (some (kind, .running)) k).map Prod.snd, rest, some t⟩ := by
  rw [discipline_state]
  refine (Discipline.Move.dispatch hq (hd.sound.idle_of_owner fun k hk => ?_)).sound hd.sound
  rw [show d.discipline.current = none from hidle] at hk
  cases hk

private theorem sound_retire (hd : d.Agrees) {t : T} (hcur : d.current = some t) :
    Discipline.Sound ⟨fun k => (Function.update d.task t none k).map Prod.snd, d.queue, none⟩ := by
  rw [discipline_state]
  refine (Discipline.Move.exit ?_).sound hd.sound
  simp [discipline, hd.owner t hcur]

private theorem sound_suspend (hd : d.Agrees) {t : T} (hcur : d.current = some t) (kind : TaskKind) :
    Discipline.Sound
      ⟨fun k => (Function.update d.task t (some (kind, .ready)) k).map Prod.snd, d.queue ++ [t], none⟩ := by
  have hrunning : d.discipline.state t = some .running := by simp [discipline, hd.owner t hcur]
  have hready := (Discipline.Move.enqueue hrunning rfl).sound hd.sound
  rw [discipline_state]
  refine (Discipline.Move.rest (hready.idle_of_owner fun k hk => ?_)).sound hready
  -- the owner of the CPU is the task that has just been queued
  rw [show d.discipline.current = some t from hcur, Option.some.injEq] at hk
  simp [hk]

end Discipline

omit [DecidableEq P] in
private theorem addKernel (hd : d.Agrees) {t : T} (h : t ∉ d.issued) :
    Agrees { d with
      task := Function.update d.task t (some (.kernel, .ready))
      queue := d.queue ++ [t]
      issued := insert t d.issued
      executing := insert t d.executing } := by
  obtain ⟨htask, huser⟩ := hd.absent_of_fresh h
  constructor
  case sound => exact hd.sound_add h .kernel
  case owner =>
    intro k hk
    have hrunning := hd.owner k hk
    grind
  case issued =>
    intro k hk
    have hissued := hd.issued k
    grind
  case executing =>
    intro k
    have hexecuting := hd.executing k
    grind
  case user =>
    intro k u hu
    have hold := hd.user k u hu
    grind
  case bound =>
    intro k st hk
    have hbound := hd.bound k st
    grind
  case process =>
    intro p e he
    have hold := hd.process p e he
    grind
  case currentProcess => exact hd.currentProcess

private theorem addUser (hd : d.Agrees) {t : T} {p : P} (a : A) (h : t ∉ d.issued) (hp : d.process p = none) :
    Agrees { d with
      task := Function.update d.task t (some (.userspace, .ready))
      queue := d.queue ++ [t]
      issued := insert t d.issued
      executing := insert t d.executing
      user := Function.update d.user t (some ⟨p, a, none⟩)
      process := Function.update d.process p (some ⟨.ready, some (t, a)⟩) } := by
  obtain ⟨htask, huser⟩ := hd.absent_of_fresh h
  constructor
  case sound => exact hd.sound_add h .userspace
  case owner =>
    intro k hk
    have hrunning := hd.owner k hk
    grind
  case issued =>
    intro k hk
    have hissued := hd.issued k
    grind
  case executing =>
    intro k
    have hexecuting := hd.executing k
    grind
  case user =>
    intro k u hu
    have hold := hd.user k u
    grind [InStep.ready]
  case bound =>
    intro k st hk
    have hbound := hd.bound k st
    grind
  case process =>
    intro q e he
    have hold := hd.process q e
    grind
  case currentProcess =>
    intro q
    have hcurrent := hd.currentProcess q
    have hrunning := hd.owner
    grind

/-- A userspace task and its process change their states together; who owns the CPU is decided by the caller. -/
private theorem restate (hd : d.Agrees) {t : T} {u : UserEntry P A R} (hu : d.user t = some u) {pst : ProcessState}
    {st : TaskState} (hstep : InStep pst st) (resume : Option R) {queue : List T} {current : Option T}
    {currentProcess : Option P}
    (hsound : Discipline.Sound
      ⟨fun k => (Function.update d.task t (some (.userspace, st)) k).map Prod.snd, queue, current⟩)
    (howner : ∀ k, current = some k → k = t ∧ st = .running)
    (hcurrent : ∀ p, currentProcess = some p ↔ current = some t ∧ u.process = p) :
    Agrees { d with
      task := Function.update d.task t (some (.userspace, st))
      queue
      current
      user := Function.update d.user t (some { u with resume })
      process := Function.update d.process u.process (some ⟨pst, some (t, u.space)⟩)
      currentProcess } := by
  obtain ⟨st₀, pst₀, htask, -, hprocess⟩ := hd.user t u hu
  have hissued : t ∈ d.issued := hd.issued t (by simp [htask])
  constructor
  case sound => exact hsound
  case owner =>
    intro k hk
    obtain ⟨rfl, rfl⟩ := howner k hk
    simp
  case issued =>
    intro k hk
    have hold := hd.issued k
    grind
  case executing =>
    intro k
    have hold := hd.executing k
    grind
  case user =>
    intro k v hv
    have hold := hd.user k v
    have hother : d.user k = some v → v.process = u.process → k = t := fun h => hd.user_inj h hu
    grind
  case bound =>
    intro k st' hk
    have hold := hd.bound k st'
    grind
  case process =>
    intro q e he
    have hold := hd.process q e
    grind
  case currentProcess =>
    intro q
    have hq := hcurrent q
    grind

private theorem retire (hd : d.Agrees) {t : T} {u : UserEntry P A R} (hcur : d.current = some t)
    (hu : d.user t = some u) : (d.retire t u).Agrees := by
  unfold Lifecycle.retire
  have hissued : t ∈ d.issued := hd.issued t (by simp [hd.owner t hcur])
  constructor
  case sound => exact hd.sound_retire hcur
  case owner => simp
  case issued =>
    intro k hk
    have hold := hd.issued k
    grind
  case executing =>
    intro k
    have hold := hd.executing k
    grind
  case user =>
    intro k v hv
    have hold := hd.user k v
    have hother : d.user k = some v → v.process = u.process → k = t := fun h => hd.user_inj h hu
    grind
  case bound =>
    intro k st hk
    have hold := hd.bound k st
    grind
  case process =>
    intro q e he
    have hold := hd.process q e
    grind
  case currentProcess => simp

omit [DecidableEq T] in
private theorem reap (hd : d.Agrees) {p : P} {e : ProcessEntry T A} (he : d.process p = some e)
    (hexited : e.state = .exited) : Agrees { d with process := Function.update d.process p none } := by
  refine ⟨hd.sound, hd.owner, hd.issued, hd.executing, ?_, hd.bound, ?_, hd.currentProcess⟩
  · intro t u hu
    obtain ⟨st, pst, htask, hstep, hprocess⟩ := hd.user t u hu
    -- the process of a userspace task has not exited
    have hne : u.process ≠ p := by
      rintro rfl
      rw [he, Option.some.injEq] at hprocess
      rw [hprocess] at hexited
      rw [show pst = .exited from hexited] at hstep
      cases hstep
    exact ⟨st, pst, htask, hstep, (Function.update_of_ne hne ..).trans hprocess⟩
  · intro q e' he'
    have hold := hd.process q e'
    grind

private theorem dispatch (hd : d.Agrees) {t : T} {u : UserEntry P A R} {rest : List T} (hidle : d.current = none)
    (hq : d.queue = t :: rest) (hu : d.user t = some u) (resume : Option R) : (d.dispatch t u resume rest).Agrees :=
  hd.restate hu .running resume (hd.sound_dispatch hidle hq .userspace) (by simp) (by simp)

private theorem suspend (hd : d.Agrees) {t : T} {u : UserEntry P A R} (hcur : d.current = some t)
    (hu : d.user t = some u) (resume : Option R) : (d.suspend t u resume).Agrees :=
  hd.restate hu .ready resume (hd.sound_suspend hcur .userspace) (by simp) (by simp)

omit [DecidableEq T] [DecidableEq P] in
/-- The owner of the CPU is not queued. -/
theorem head_ne_owner (hd : d.Agrees) {t t' : T} {rest : List T} (hcur : d.current = some t)
    (hq : d.queue = t' :: rest) : t' ≠ t := by
  rintro rfl
  have hready : d.discipline.state t' = some .ready := (hd.sound.mem_queue t').mp (by simp [discipline, hq])
  simp [discipline, hd.owner t' hcur] at hready

end Agrees

theorem Move.agrees {d d' : Lifecycle T P A R} {events : List (ResumeEvent T R)} (h : Move d events d')
    (hd : d.Agrees) : d'.Agrees := by
  cases h with
  | claim h => exact ⟨hd.sound, hd.owner, fun k hk => .inr (hd.issued k hk), hd.executing, hd.user, hd.bound,
      fun p e he => by grind [hd.process p e he], hd.currentProcess⟩
  | addKernel h => exact hd.addKernel h
  | addUser h hp => exact hd.addUser _ h hp
  | start hidle hq hu => exact hd.dispatch hidle hq hu _
  | exitTo hcur hu hq hu' =>
    refine (hd.retire hcur hu).dispatch rfl hq ?_ none
    exact (Function.update_of_ne (hd.head_ne_owner hcur hq) ..).trans hu'
  | yieldTo snapshot hcur hu hq hu' =>
    refine (hd.suspend hcur hu _).dispatch rfl ?_ ?_ none
    · show _ ++ _ = _
      rw [hq, List.cons_append]
    · exact (Function.update_of_ne (hd.head_ne_owner hcur hq) ..).trans hu'
  | reap he hexited => exact hd.reap he hexited

omit [DecidableEq T] [DecidableEq P] in
theorem Agrees.initial : (initial : Lifecycle T P A R).Agrees := by
  refine ⟨⟨?_, ?_, ?_, ?_⟩, ?_, ?_, ?_, ?_, ?_, ?_, ?_⟩ <;> simp [Lifecycle.initial, discipline]

/-- A state is stored only for a task that is waiting for another one. -/
def Stored (d : Lifecycle T P A R) : Prop :=
  ∀ t u, d.user t = some u → u.resume ≠ none → ∃ c, d.current = some c ∧ c ≠ t

omit [DecidableEq T] [DecidableEq P] in
theorem Stored.owner {d : Lifecycle T P A R} (hd : d.Stored) {t : T} {u : UserEntry P A R} (hcur : d.current = some t)
    (hu : d.user t = some u) : u.resume = none := by
  by_contra hresume
  obtain ⟨c, hc, hne⟩ := hd t u hu hresume
  exact hne (Option.some.inj (hc.symm.trans hcur))

private theorem Stored.dispatch {d : Lifecycle T P A R} {t : T} {u : UserEntry P A R} {rest : List T} :
    (d.dispatch t u none rest).Stored := by
  intro k v hv hresume
  refine ⟨t, rfl, ?_⟩
  rintro rfl
  have hself : (d.dispatch t u none rest).user t = some { u with resume := none } := Function.update_self ..
  rw [hself, Option.some.injEq] at hv
  exact hresume (by rw [← hv])

theorem Move.stored {d d' : Lifecycle T P A R} {events : List (ResumeEvent T R)} (h : Move d events d')
    (hd : d.Stored) : d'.Stored := by
  cases h with
  | claim => exact hd
  | addKernel => exact hd
  | addUser =>
    intro k v hv
    have hold := hd k v
    grind
  | @start t u rest hidle hq hu =>
    have hnone : u.resume = none := by
      by_contra hresume
      obtain ⟨c, hc, -⟩ := hd t u hu hresume
      rw [hidle] at hc
      cases hc
    rw [hnone]
    exact .dispatch
  | exitTo => exact .dispatch
  | yieldTo => exact .dispatch
  | reap => exact hd

end Lifecycle

end X11Os
