import X11Os.Lib.Word
import Mathlib.Logic.Function.Basic

/-!
# The serial port and its callers

`serial.rs` initialises the port on the first use, behind an atomic state.  Here any number of callers run `init` and
`write_byte` at the same time, in any interleaving of their atomic operations and their port accesses; what the line
status register reads is free.  `write_bytes` is a sequence of `write_byte`.

In every interleaving the port is programmed once, by one caller and in full before the first byte; every caller's
bytes come out once and in its order; and the last arm of the match in `init` is not reached (`serial_port_protocol`).
-/

namespace X11Os

open Word

namespace Serial

def com1 : U16 := 0x3F8
def uninitialized : U8 := 0
def initializing : U8 := 1
def ready : U8 := 2

/-- The port writes of `init`. -/
def initSequence : List (U16 × U8) :=
  [(com1 + 1, 0x00), (com1 + 3, 0x80), (com1, 0x03), (com1 + 1, 0x00), (com1 + 3, 0x03), (com1 + 2, 0xC7),
    (com1 + 4, 0x0B)]

inductive Call where
  | init
  | writeByte (byte : U8)
deriving DecidableEq, Repr

def writeBytes (bytes : List U8) : List Call := bytes.map .writeByte

/-- The bytes that calls write. -/
def bytesOf : List Call → List U8
  | [] => []
  | .init :: calls => bytesOf calls
  | .writeByte byte :: calls => byte :: bytesOf calls

/-- The place of a caller in its first call. -/
inductive Place where
  | start
  | exchange
  | spin
  | program (left : List (U16 × U8))
  | unreachable
  | poll
  | send
deriving DecidableEq, Repr

structure Caller where
  place : Place
  calls : List Call
deriving DecidableEq, Repr

/-- `init` returns: the call is over, or `write_byte` goes on to the line status register. -/
def Caller.returned (c : Caller) : Caller :=
  match c.calls with
  | .init :: rest => ⟨.start, rest⟩
  | calls => ⟨.poll, calls⟩

structure Port (ι : Type) where
  state : U8
  callers : ι → Caller
  outputs : List (ι × U16 × U8)

namespace Port

variable {ι : Type} [DecidableEq ι]

def new (programs : ι → List Call) : Port ι := ⟨uninitialized, fun i => ⟨.start, programs i⟩, []⟩

def set (s : Port ι) (i : ι) (c : Caller) : Port ι := { s with callers := Function.update s.callers i c }

def move (s : Port ι) (i : ι) (place : Place) : Port ι := s.set i { s.callers i with place }

def outb (s : Port ι) (i : ι) (port : U16) (value : U8) : Port ι :=
  { s with outputs := s.outputs ++ [(i, port, value)] }

/-- The next atomic operation or port access of a caller; `lineStatus` is what it reads, should it read it. -/
def step (s : Port ι) (i : ι) (lineStatus : U8) : Port ι :=
  match (s.callers i).place with
  | .start =>
    match (s.callers i).calls with
    | [] => s
    | .init :: _ => s.move i .exchange
    | .writeByte _ :: _ => s.move i (if s.state = ready then .poll else .exchange)
  | .exchange =>
    if s.state = uninitialized then { s.move i (.program initSequence) with state := initializing }
    else if s.state = ready then s.set i (s.callers i).returned
    else if s.state = initializing then s.move i .spin
    else s.move i .unreachable
  | .spin => if s.state = initializing then s else s.set i (s.callers i).returned
  | .program [] => { s.set i (s.callers i).returned with state := ready }
  | .program ((port, value) :: left) => (s.outb i port value).move i (.program left)
  | .unreachable => s
  | .poll => if lineStatus &&& 0x20 = 0 then s else s.move i .send
  | .send =>
    match (s.callers i).calls with
    | .writeByte byte :: rest => (s.outb i com1 byte).set i ⟨.start, rest⟩
    | _ => s

/-- An interleaving: who is next, and what it reads. -/
def run (s : Port ι) (schedule : List (ι × U8)) : Port ι := schedule.foldl (fun s next => s.step next.1 next.2) s

/-- The bytes that a caller has sent after the port had been programmed. -/
def sentBy (s : Port ι) (i : ι) : List U8 :=
  ((s.outputs.drop initSequence.length).filter fun output => output.1 = i).map fun output => output.2.2

/-! ### What a step does -/

@[simp] theorem set_state (s : Port ι) (i : ι) (c : Caller) : (s.set i c).state = s.state := rfl

@[simp] theorem set_outputs (s : Port ι) (i : ι) (c : Caller) : (s.set i c).outputs = s.outputs := rfl

@[simp] theorem set_callers_self (s : Port ι) (i : ι) (c : Caller) : (s.set i c).callers i = c := by
  simp [set]

private theorem set_callers_of_ne (s : Port ι) {i j : ι} (h : j ≠ i) (c : Caller) :
    (s.set i c).callers j = s.callers j := by
  simp [set, h]

/-- The steps of a caller, by its place. -/
inductive Moves (s : Port ι) (i : ι) : Port ι → Prop
  | stays : Moves s i s
  | enters (hplace : (s.callers i).place = .start) (hcalls : (s.callers i).calls ≠ []) :
    Moves s i (s.move i .exchange)
  | finds (hplace : (s.callers i).place = .start) (hstate : s.state = ready) {byte : U8} {rest : List Call}
      (hcalls : (s.callers i).calls = .writeByte byte :: rest) : Moves s i (s.move i .poll)
  | wins (hplace : (s.callers i).place = .exchange) (hstate : s.state = uninitialized) :
      Moves s i { s.move i (.program initSequence) with state := initializing }
  | waits (hplace : (s.callers i).place = .exchange) (hstate : s.state = initializing) : Moves s i (s.move i .spin)
  | fails (hplace : (s.callers i).place = .exchange)
      (hstate : s.state ≠ uninitialized ∧ s.state ≠ ready ∧ s.state ≠ initializing) :
      Moves s i (s.move i .unreachable)
  | returns (hplace : (s.callers i).place = .exchange ∧ s.state = ready ∨
      (s.callers i).place = .spin ∧ s.state ≠ initializing) : Moves s i (s.set i (s.callers i).returned)
  | finishes (hplace : (s.callers i).place = .program []) :
      Moves s i { s.set i (s.callers i).returned with state := ready }
  | programs {port : U16} {value : U8} {left : List (U16 × U8)}
      (hplace : (s.callers i).place = .program ((port, value) :: left)) :
      Moves s i ((s.outb i port value).move i (.program left))
  | looks (hplace : (s.callers i).place = .poll) : Moves s i (s.move i .send)
  | sends (hplace : (s.callers i).place = .send) {byte : U8} {rest : List Call}
      (hcalls : (s.callers i).calls = .writeByte byte :: rest) : Moves s i ((s.outb i com1 byte).set i ⟨.start, rest⟩)

private theorem step_moves (s : Port ι) (i : ι) (lineStatus : U8) : s.Moves i (s.step i lineStatus) := by
  unfold step
  cases hplace : (s.callers i).place with
  | start =>
    dsimp only
    cases hcalls : (s.callers i).calls with
    | nil => exact .stays
    | cons call rest =>
      have hne : (s.callers i).calls ≠ [] := by simp [hcalls]
      cases call with
      | init => exact .enters hplace hne
      | writeByte byte =>
        dsimp only
        split_ifs with hready
        · exact .finds hplace hready hcalls
        · exact .enters hplace hne
  | exchange =>
    dsimp only
    split_ifs with huninitialized hready hinitializing
    · exact .wins hplace huninitialized
    · exact .returns (.inl ⟨hplace, hready⟩)
    · exact .waits hplace hinitializing
    · exact .fails hplace ⟨huninitialized, hready, hinitializing⟩
  | spin =>
    dsimp only
    split_ifs with hinitializing
    · exact .stays
    · exact .returns (.inr ⟨hplace, hinitializing⟩)
  | program left =>
    cases left with
    | nil => exact .finishes hplace
    | cons output left => exact .programs hplace
  | unreachable => exact .stays
  | poll =>
    dsimp only
    split_ifs
    · exact .stays
    · exact .looks hplace
  | send =>
    dsimp only
    split
    · rename_i byte rest hcalls
      exact .sends hplace hcalls
    · exact .stays

/-! ### The protocol -/

/-- A caller past the start of a call has one, and it is a byte once the line status register is read. -/
def Called (c : Caller) : Prop :=
  (c.place ≠ .start → c.calls ≠ []) ∧
  (c.place = .poll ∨ c.place = .send → ∃ byte rest, c.calls = .writeByte byte :: rest)

/-- The port is not initialised, or one caller programs it while the others wait, or it is programmed and
callers send. -/
inductive Phase (s : Port ι) : Prop
  | fresh (hstate : s.state = uninitialized) (houtputs : s.outputs = [])
      (hcallers : ∀ i, (s.callers i).place = .start ∨ (s.callers i).place = .exchange)
  | programmed (owner : ι) (left : List (U16 × U8)) (hstate : s.state = initializing)
      (howner : (s.callers owner).place = .program left)
      (houtputs : s.outputs ++ left.map (Prod.mk owner) = initSequence.map (Prod.mk owner))
      (hcallers : ∀ i, i ≠ owner → (s.callers i).place = .start ∨ (s.callers i).place = .exchange ∨
        (s.callers i).place = .spin)
  | opened (owner : ι) (sent : List (ι × U16 × U8)) (hstate : s.state = ready)
      (houtputs : s.outputs = initSequence.map (Prod.mk owner) ++ sent) (hsent : ∀ output ∈ sent, output.2.1 = com1)
      (hcallers : ∀ i, (s.callers i).place ≠ .unreachable ∧ ∀ left, (s.callers i).place ≠ .program left)

/-- What holds in every interleaving of the programs. -/
structure Sound (programs : ι → List Call) (s : Port ι) : Prop where
  phase : s.Phase
  called : ∀ i, Called (s.callers i)
  delivered : ∀ i, s.sentBy i ++ bytesOf (s.callers i).calls = bytesOf (programs i)

private theorem returned_place (c : Caller) : c.returned.place = .start ∨ c.returned.place = .poll := by
  unfold Caller.returned
  split
  · exact .inl rfl
  · exact .inr rfl

private theorem bytesOf_returned (c : Caller) : bytesOf c.returned.calls = bytesOf c.calls := by
  unfold Caller.returned
  split
  · rename_i hcalls
    rw [hcalls]
    rfl
  · rfl

private theorem called_returned {c : Caller} (h : c.calls ≠ []) : Called c.returned := by
  unfold Caller.returned
  split
  · exact ⟨fun hplace => absurd rfl hplace, fun hplace => by simp at hplace⟩
  · rename_i hinit
    refine ⟨fun _ => h, fun _ => ?_⟩
    cases hcalls : c.calls with
    | nil => exact absurd hcalls h
    | cons call rest =>
      cases call with
      | init => exact absurd hcalls (hinit rest)
      | writeByte byte => exact ⟨byte, rest, rfl⟩

private theorem Phase.length_programming {s : Port ι} (h : s.Phase) {i : ι} {output : U16 × U8}
    {left : List (U16 × U8)}
    (hplace : (s.callers i).place = .program (output :: left)) : s.outputs.length + 1 ≤ initSequence.length := by
  cases h with
  | fresh hstate houtputs hcallers => simpa [hplace] using hcallers i
  | programmed owner rest hstate howner houtputs hcallers =>
    have hi : i = owner := by
      by_contra hi
      simpa [hplace] using hcallers i hi
    subst hi
    obtain rfl : rest = output :: left := by simpa [hplace] using howner.symm
    have hlength := congrArg List.length houtputs
    simp only [List.length_append, List.length_map, List.length_cons] at hlength
    omega
  | opened owner sent hstate houtputs hsent hcallers => exact absurd hplace ((hcallers i).2 _)

omit [DecidableEq ι] in
private theorem Phase.length_sending {s : Port ι} (h : s.Phase) {i : ι} (hplace : (s.callers i).place = .send) :
    initSequence.length ≤ s.outputs.length := by
  cases h with
  | fresh hstate houtputs hcallers => simpa [hplace] using hcallers i
  | programmed owner rest hstate howner houtputs hcallers =>
    have hi : i ≠ owner := by
      intro hi
      subst hi
      rw [hplace] at howner
      cases howner
    simpa [hplace] using hcallers i hi
  | opened owner sent hstate houtputs hsent hcallers =>
    rw [houtputs, List.length_append, List.length_map]
    exact Nat.le_add_right _ _

private theorem Phase.reachable {s : Port ι} (h : s.Phase) (i : ι) : (s.callers i).place ≠ .unreachable := by
  cases h with
  | fresh hstate houtputs hcallers => rcases hcallers i with hplace | hplace <;> simp [hplace]
  | programmed owner left hstate howner houtputs hcallers =>
    by_cases hi : i = owner
    · simp [hi, howner]
    · rcases hcallers i hi with hplace | hplace | hplace <;> simp [hplace]
  | opened owner sent hstate houtputs hsent hcallers => exact (hcallers i).1

omit [DecidableEq ι] in
private theorem Phase.place_of_open {s : Port ι} (h : s.Phase) (hstate : s.state = ready) (i : ι) :
    (s.callers i).place ≠ .unreachable ∧ ∀ left, (s.callers i).place ≠ .program left := by
  cases h with
  | fresh hfresh houtputs hcallers => exact absurd (hfresh.symm.trans hstate) (by decide)
  | programmed owner left hinitializing howner houtputs hcallers =>
    exact absurd (hinitializing.symm.trans hstate) (by decide)
  | opened owner sent hopen houtputs hsent hcallers => exact hcallers i

omit [DecidableEq ι] in
/-- The outputs are a part of the sequence from its start, by one caller, and then bytes. -/
private theorem Phase.outputs_split {s : Port ι} (h : s.Phase) : ∃ programming sent, s.outputs = programming ++ sent ∧
    programming.map Prod.snd <+: initSequence ∧ (∀ output ∈ programming, ∀ other ∈ programming, output.1 = other.1) ∧
    (sent ≠ [] → programming.length = initSequence.length) ∧ ∀ output ∈ sent, output.2.1 = com1 := by
  have hsnd : ∀ (owner : ι) (l : List (U16 × U8)), (l.map (Prod.mk owner)).map Prod.snd = l := by
    intro owner l
    rw [List.map_map]
    exact List.map_id' l
  have hfst : ∀ (owner : ι) (l : List (U16 × U8)), ∀ output ∈ l.map (Prod.mk owner), output.1 = owner := by
    intro owner l output houtput
    obtain ⟨-, -, rfl⟩ := List.mem_map.mp houtput
    rfl
  cases h with
  | fresh hstate houtputs hcallers => exact ⟨[], [], houtputs, by simp, by simp, by simp, by simp⟩
  | programmed owner left hstate howner houtputs hcallers =>
    refine ⟨s.outputs, [], (List.append_nil _).symm,
      ⟨left, ?_⟩, fun output houtput other hother => ?_, by simp, by simp⟩
    · have hmapped := congrArg (List.map Prod.snd) houtputs
      rw [List.map_append, hsnd, hsnd] at hmapped
      exact hmapped
    · have hmem : ∀ output ∈ s.outputs, output ∈ initSequence.map (Prod.mk owner) := by
        intro output houtput
        rw [← houtputs]
        exact List.mem_append_left _ houtput
      rw [hfst owner _ output (hmem output houtput), hfst owner _ other (hmem other hother)]
  | opened owner sent hstate houtputs hsent hcallers =>
    refine ⟨_, sent, houtputs, ?_, fun output houtput other hother => ?_, fun _ => List.length_map _, hsent⟩
    · refine ⟨[], ?_⟩
      rw [List.append_nil, hsnd]
    · rw [hfst owner _ output houtput, hfst owner _ other hother]

namespace Moves

variable {s s' : Port ι} {i : ι}

/-- A caller moves alone. -/
private theorem callers_of_ne (h : s.Moves i s') {j : ι} (hj : j ≠ i) : s'.callers j = s.callers j := by
  cases h <;> simp [move, outb, set, hj]

private theorem called (h : s.Moves i s') (hcalled : ∀ j, Called (s.callers j)) (j : ι) : Called (s'.callers j) := by
  by_cases hj : j = i
  · subst hj
    have hself := hcalled j
    cases h with
    | stays => exact hself
    | enters hplace hcalls => simp [Called, move, hcalls]
    | finds hplace hstate hcalls => simp [Called, move, hcalls]
    | wins hplace hstate => simp [Called, move, hself.1 (by simp [hplace])]
    | waits hplace hstate => simp [Called, move, hself.1 (by simp [hplace])]
    | fails hplace hstate => simp [Called, move, hself.1 (by simp [hplace])]
    | returns hplace =>
      rw [set_callers_self]
      apply called_returned
      apply hself.1
      rcases hplace with hplace | hplace
      · simp [hplace.1]
      · simp [hplace.1]
    | finishes hplace =>
      show Called ((s.set j (s.callers j).returned).callers j)
      rw [set_callers_self]
      exact called_returned (hself.1 (by simp [hplace]))
    | programs hplace => simp [Called, move, outb, hself.1 (by simp [hplace])]
    | looks hplace =>
      obtain ⟨byte, rest, hcalls⟩ := hself.2 (.inl hplace)
      simp [Called, move, hcalls]
    | sends hplace hcalls => simp [Called, outb]
  · rw [h.callers_of_ne hj]
    exact hcalled j

/-- The phases follow one another. -/
private theorem phase (h : s.Moves i s') (hphase : s.Phase) : s'.Phase := by
  have hne : uninitialized ≠ ready ∧ uninitialized ≠ initializing ∧ initializing ≠ ready := by decide
  have hothers := fun {j : ι} (hj : j ≠ i) => h.callers_of_ne hj
  cases hphase with
  | fresh hstate houtputs hcallers =>
    have hself := hcallers i
    cases h with
    | stays => exact .fresh hstate houtputs hcallers
    | enters hplace hcalls =>
      refine .fresh hstate houtputs fun j => ?_
      by_cases hj : j = i
      · subst hj
        simp [move]
      · rw [hothers hj]
        exact hcallers j
    | finds hplace hready hcalls => exact absurd (hstate.symm.trans hready) hne.1
    | wins hplace huninitialized =>
      refine .programmed i initSequence rfl (by simp [move]) (by simp [move, houtputs]) fun j hj => ?_
      rw [hothers hj]
      rcases hcallers j with hj | hj
      · exact .inl hj
      · exact .inr (.inl hj)
    | waits hplace hinitializing => exact absurd (hstate.symm.trans hinitializing) hne.2.1
    | fails hplace hother => exact absurd hstate hother.1
    | returns hplace =>
      rcases hplace with ⟨-, hready⟩ | ⟨hspin, -⟩
      · exact absurd (hstate.symm.trans hready) hne.1
      · simp [hspin] at hself
    | finishes hplace => simp [hplace] at hself
    | programs hplace => simp [hplace] at hself
    | looks hplace => simp [hplace] at hself
    | sends hplace hcalls => simp [hplace] at hself
  | programmed owner left hstate howner houtputs hcallers =>
    -- only the owner programs, and the others can at most begin to wait
    have hwaiting : ∀ place : Place, (place = .exchange ∨ place = .spin) → i ≠ owner → (s.move i place).Phase := by
      intro place hplace hi
      refine .programmed owner left hstate ?_ houtputs fun j hj => ?_
      · rw [move, set_callers_of_ne s hi.symm]
        exact howner
      · by_cases hji : j = i
        · subst hji
          rcases hplace with rfl | rfl
          · simp [move]
          · simp [move]
        · rw [move, set_callers_of_ne s hji]
          exact hcallers j hj
    have hother : ∀ {place : Place}, (s.callers i).place = place → (∀ left, place ≠ .program left) → i ≠ owner := by
      intro place hplace hnot hi
      subst hi
      exact hnot left (hplace.symm.trans howner)
    have hidle : i ≠ owner → (s.callers i).place = .start ∨ (s.callers i).place = .exchange ∨
      (s.callers i).place = .spin :=
      hcallers i
    cases h with
    | stays => exact .programmed owner left hstate howner houtputs hcallers
    | enters hplace hcalls => exact hwaiting _ (.inl rfl) (hother hplace (by simp))
    | finds hplace hready hcalls => exact absurd (hstate.symm.trans hready) hne.2.2
    | wins hplace huninitialized => exact absurd (huninitialized.symm.trans hstate) hne.2.1
    | waits hplace hinitializing => exact hwaiting _ (.inr rfl) (hother hplace (by simp))
    | fails hplace hnone => exact absurd hstate hnone.2.2
    | returns hplace =>
      rcases hplace with ⟨-, hready⟩ | ⟨-, hnot⟩
      · exact absurd (hstate.symm.trans hready) hne.2.2
      · exact absurd hstate hnot
    | finishes hplace =>
      have hi : i = owner := by
        by_contra hi
        simpa [hplace] using hidle hi
      subst hi
      obtain rfl : left = [] := by simpa [hplace] using howner.symm
      refine .opened i [] rfl ?_ (by simp) fun j => ?_
      · simpa using houtputs
      · by_cases hj : j = i
        · subst hj
          show ((s.set j (s.callers j).returned).callers j).place ≠ _ ∧ _
          rcases returned_place (s.callers j) with hplace | hplace
          · simp [hplace]
          · simp [hplace]
        · rw [hothers hj]
          rcases hcallers j hj with hplace | hplace | hplace
          · simp [hplace]
          · simp [hplace]
          · simp [hplace]
    | programs hplace =>
      rename_i port value rest
      have hi : i = owner := by
        by_contra hi
        simpa [hplace] using hidle hi
      subst hi
      obtain rfl : left = (port, value) :: rest := by simpa [hplace] using howner.symm
      refine .programmed i rest hstate (by simp [move]) ?_ fun j hj => ?_
      · simpa [move, outb] using houtputs
      · rw [hothers hj]
        exact hcallers j hj
    | looks hplace => simpa [hplace] using hidle (hother hplace (by simp))
    | sends hplace hcalls => simpa [hplace] using hidle (hother hplace (by simp))
  | opened owner sent hstate houtputs hsent hcallers =>
    have hself := hcallers i
    have hmoved : ∀ c : Caller, c.place ≠ .unreachable → (∀ left, c.place ≠ .program left) → ∀ j,
        ((s.set i c).callers j).place ≠ .unreachable ∧ ∀ left, ((s.set i c).callers j).place ≠ .program left := by
      intro c hreach hprogram j
      by_cases hj : j = i
      · subst hj
        rw [set_callers_self]
        exact ⟨hreach, hprogram⟩
      · rw [set_callers_of_ne s hj]
        exact hcallers j
    cases h with
    | stays => exact .opened owner sent hstate houtputs hsent hcallers
    | enters hplace hcalls => exact .opened owner sent hstate houtputs hsent (hmoved _ (by simp) (by simp))
    | finds hplace hready hcalls => exact .opened owner sent hstate houtputs hsent (hmoved _ (by simp) (by simp))
    | wins hplace huninitialized => exact absurd (huninitialized.symm.trans hstate) hne.1
    | waits hplace hinitializing => exact absurd (hinitializing.symm.trans hstate) hne.2.2
    | fails hplace hnone => exact absurd hstate hnone.2.1
    | returns hplace =>
      refine .opened owner sent hstate houtputs hsent (hmoved _ ?_ ?_)
      · rcases returned_place (s.callers i) with hplace | hplace
        · simp [hplace]
        · simp [hplace]
      · rcases returned_place (s.callers i) with hplace | hplace
        · simp [hplace]
        · simp [hplace]
    | finishes hplace => exact absurd hplace (hself.2 _)
    | programs hplace => exact absurd hplace (hself.2 _)
    | looks hplace => exact .opened owner sent hstate houtputs hsent (hmoved _ (by simp) (by simp))
    | sends hplace hcalls =>
      rename_i byte rest
      refine .opened owner (sent ++ [(i, com1, byte)]) hstate ?_ ?_ (hmoved _ (by simp) (by simp))
      · simp [outb, houtputs]
      · intro output houtput
        rcases List.mem_append.mp houtput with hold | hnew
        · exact hsent output hold
        · rw [List.mem_singleton.mp hnew]

/-- What a caller has sent, and what it still has to send, stay together. -/
private theorem delivered (h : s.Moves i s') (hphase : s.Phase) (j : ι) :
    s'.sentBy j ++ bytesOf (s'.callers j).calls = s.sentBy j ++ bytesOf (s.callers j).calls := by
  have hmove : ∀ place, ((s.move i place).callers j).calls = (s.callers j).calls := by
    intro place
    by_cases hj : j = i
    · subst hj
      simp [move]
    · rw [move, set_callers_of_ne s hj]
  have hreturned : bytesOf ((s.set i (s.callers i).returned).callers j).calls = bytesOf (s.callers j).calls := by
    by_cases hj : j = i
    · subst hj
      rw [set_callers_self, bytesOf_returned]
    · rw [set_callers_of_ne s hj]
  cases h with
  | stays => rfl
  | enters | finds | waits | fails | looks => exact congrArg (fun calls => s.sentBy j ++ bytesOf calls) (hmove _)
  | wins => exact congrArg (fun calls => s.sentBy j ++ bytesOf calls) (hmove _)
  | returns | finishes => exact congrArg (s.sentBy j ++ ·) hreturned
  | programs hplace =>
    rename_i port value left
    have hlength : s.outputs.length + 1 ≤ initSequence.length := hphase.length_programming hplace
    have hsent : ((s.outb i port value).move i (.program left)).sentBy j = s.sentBy j := by
      have hnew : (s.outputs ++ [(i, port, value)]).drop initSequence.length = [] :=
        List.drop_eq_nil_of_le (by rw [List.length_append, List.length_singleton]; exact hlength)
      have hold : s.outputs.drop initSequence.length = [] := List.drop_eq_nil_of_le (Nat.le_of_succ_le hlength)
      simp [sentBy, move, outb, hnew, hold]
    rw [hsent]
    exact congrArg (fun calls => s.sentBy j ++ bytesOf calls) (hmove (.program left))
  | sends hplace hcalls =>
    rename_i byte rest
    have hlength : initSequence.length ≤ s.outputs.length := hphase.length_sending hplace
    by_cases hj : j = i
    · subst hj
      simp [sentBy, outb, List.drop_append_of_le_length hlength, hcalls, bytesOf]
    · rw [set_callers_of_ne _ hj]
      simp [sentBy, outb, List.drop_append_of_le_length hlength, Ne.symm hj]

end Moves

/-! ### Whole interleavings -/

variable {programs : ι → List Call} {s : Port ι}

private theorem sound_new (programs : ι → List Call) : (new programs).Sound programs :=
  ⟨.fresh rfl rfl fun _ => .inl rfl, fun _ => ⟨fun h => absurd rfl h, fun h => by simp [new] at h⟩, fun _ => rfl⟩

private theorem Sound.step (h : s.Sound programs) (i : ι) (lineStatus : U8) :
    (s.step i lineStatus).Sound programs := by
  have hmoves := s.step_moves i lineStatus
  refine ⟨hmoves.phase h.phase, hmoves.called h.called, fun j => ?_⟩
  rw [hmoves.delivered h.phase j, h.delivered j]

private theorem Sound.run (h : s.Sound programs) (schedule : List (ι × U8)) : (s.run schedule).Sound programs := by
  induction schedule generalizing s with
  | nil => exact h
  | cons next schedule ih => exact ih (h.step next.1 next.2)

private theorem run_append (s : Port ι) (schedule more : List (ι × U8)) :
    s.run (schedule ++ more) = (s.run schedule).run more :=
  List.foldl_append

/-! ### No caller is left waiting -/

/-- Some interleaving goes on to a state in which the port is open. -/
def CanOpen (s : Port ι) : Prop := ∃ more, (s.run more).state = ready

/-- Some interleaving goes on, with an open port, to the end of the first call of a caller. -/
def Completes (s : Port ι) (i : ι) (rest : List Call) : Prop :=
  ∃ more, (s.run more).callers i = ⟨.start, rest⟩ ∧ (s.run more).state = ready

private theorem CanOpen.of_step {i : ι} (h : (s.step i 0x20).CanOpen) : s.CanOpen := by
  obtain ⟨more, hmore⟩ := h
  exact ⟨(i, 0x20) :: more, hmore⟩

private theorem Completes.of_step {i : ι} {rest : List Call} (h : (s.step i 0x20).Completes i rest) :
    s.Completes i rest := by
  obtain ⟨more, hmore⟩ := h
  exact ⟨(i, 0x20) :: more, hmore⟩

private theorem canOpen_of_program {owner : ι} {left : List (U16 × U8)}
    (h : (s.callers owner).place = .program left) :
    s.CanOpen := by
  induction left generalizing s with
  | nil => exact ⟨[(owner, 0x20)], by simp [run, Port.step, h]⟩
  | cons output left ih =>
    have hnext : ((s.step owner 0x20).callers owner).place = .program left := by
      simp [Port.step, h, move, outb]
    exact .of_step (ih hnext)

private theorem canOpen_of_exchange {i : ι} (hplace : (s.callers i).place = .exchange)
    (hstate : s.state = uninitialized) :
    s.CanOpen := by
  have hnext : ((s.step i 0x20).callers i).place = .program initSequence := by
    simp [Port.step, hplace, hstate, move]
  exact .of_step (canOpen_of_program hnext)

private theorem Sound.canOpen (h : s.Sound programs) {i : ι} (hcalls : (s.callers i).calls ≠ []) : s.CanOpen := by
  cases h.phase with
  | fresh hstate houtputs hcallers =>
    have hready : s.state ≠ ready := by
      rw [hstate]
      decide
    rcases hcallers i with hplace | hplace
    · apply CanOpen.of_step (i := i)
      have hstep : s.step i 0x20 = s.move i .exchange := by
        unfold Port.step
        rw [hplace]
        cases hcase : (s.callers i).calls with
        | nil => exact absurd hcase hcalls
        | cons call rest =>
          cases call with
          | init => rfl
          | writeByte byte => simp [hready]
      rw [hstep]
      exact canOpen_of_exchange (i := i) (by simp [move]) hstate
    · exact canOpen_of_exchange hplace hstate
  | programmed owner left hstate howner houtputs hcallers => exact canOpen_of_program howner
  | opened owner sent hstate houtputs hsent hcallers => exact ⟨[], hstate⟩

section Open

variable {i : ι} {call : Call} {rest : List Call} (hstate : s.state = ready)
include hstate

private theorem completes_of_send {byte : U8} (hself : s.callers i = ⟨.send, .writeByte byte :: rest⟩) :
    s.Completes i rest := by
  refine ⟨[(i, 0x20)], ?_, ?_⟩
  · simp [run, Port.step, hself]
  · simp [run, Port.step, hself, outb, hstate]

private theorem completes_of_poll {byte : U8} (hself : s.callers i = ⟨.poll, .writeByte byte :: rest⟩) :
    s.Completes i rest := by
  have hnext : (s.step i 0x20).callers i = ⟨.send, .writeByte byte :: rest⟩ := by
    simp [Port.step, hself, move]
  have hopen : (s.step i 0x20).state = ready := by
    simp [Port.step, hself, move, hstate]
  exact .of_step (completes_of_send hopen hnext)

/-- `init` finds the port open. -/
private theorem completes_of_init {place : Place} (hplace : place = .exchange ∨ place = .spin)
    (hself : s.callers i = ⟨place, call :: rest⟩) : s.Completes i rest := by
  have hne : ready ≠ uninitialized ∧ ready ≠ initializing := by decide
  have hstep : s.step i 0x20 = s.set i (s.callers i).returned := by
    rcases hplace with rfl | rfl
    · simp [Port.step, hself, hstate, hne.1]
    · simp [Port.step, hself, hstate, hne.2]
  cases call with
  | init =>
    refine ⟨[(i, 0x20)], ?_⟩
    show (s.step i 0x20).callers i = _ ∧ (s.step i 0x20).state = ready
    rw [hstep, set_callers_self, hself]
    exact ⟨rfl, hstate⟩
  | writeByte byte =>
    apply Completes.of_step
    have hnext : (s.set i (s.callers i).returned).callers i = ⟨.poll, .writeByte byte :: rest⟩ := by
      rw [set_callers_self, hself]
      rfl
    rw [hstep]
    exact completes_of_poll hstate hnext

private theorem completes_of_start (hself : s.callers i = ⟨.start, call :: rest⟩) : s.Completes i rest := by
  apply Completes.of_step
  cases call with
  | init =>
    have hnext : (s.step i 0x20).callers i = ⟨.exchange, .init :: rest⟩ := by
      simp [Port.step, hself, move]
    have hopen : (s.step i 0x20).state = ready := by
      simp [Port.step, hself, move, hstate]
    exact completes_of_init hopen (.inl rfl) hnext
  | writeByte byte =>
    have hnext : (s.step i 0x20).callers i = ⟨.poll, .writeByte byte :: rest⟩ := by
      simp [Port.step, hself, move, hstate]
    have hopen : (s.step i 0x20).state = ready := by
      simp [Port.step, hself, move, hstate]
    exact completes_of_poll hopen hnext

end Open

private theorem Sound.completes (h : s.Sound programs) (hstate : s.state = ready) {i : ι} {call : Call}
    {rest : List Call} (hcalls : (s.callers i).calls = call :: rest) : s.Completes i rest := by
  have hself : s.callers i = ⟨(s.callers i).place, call :: rest⟩ := by rw [← hcalls]
  have hcalled := (h.called i).2
  cases hplace : (s.callers i).place with
  | start => exact completes_of_start hstate (hplace ▸ hself)
  | exchange => exact completes_of_init hstate (.inl rfl) (hplace ▸ hself)
  | spin => exact completes_of_init hstate (.inr rfl) (hplace ▸ hself)
  | program left => exact absurd hplace ((h.phase.place_of_open hstate i).2 left)
  | unreachable => exact absurd hplace (h.phase.place_of_open hstate i).1
  | poll =>
    obtain ⟨byte, rest', hbyte⟩ := hcalled (.inl hplace)
    rw [hcalls] at hbyte
    cases hbyte
    exact completes_of_poll hstate (hplace ▸ hself)
  | send =>
    obtain ⟨byte, rest', hbyte⟩ := hcalled (.inr hplace)
    rw [hcalls] at hbyte
    cases hbyte
    exact completes_of_send hstate (hplace ▸ hself)

/-- A caller can always be brought to the end of its calls. -/
private theorem Sound.finishes (h : s.Sound programs) (i : ι) : ∃ more, ((s.run more).callers i).calls = [] := by
  suffices hopen : ∀ (calls : List Call) (s : Port ι), s.Sound programs → s.state = ready →
    (s.callers i).calls = calls →
      ∃ more, ((s.run more).callers i).calls = [] by
    by_cases hcalls : (s.callers i).calls = []
    · exact ⟨[], hcalls⟩
    · obtain ⟨schedule, hready⟩ := h.canOpen hcalls
      obtain ⟨more, hmore⟩ := hopen _ _ (h.run schedule) hready rfl
      exact ⟨schedule ++ more, by rw [run_append]; exact hmore⟩
  intro calls
  induction calls with
  | nil => exact fun s _ _ hcalls => ⟨[], hcalls⟩
  | cons call rest ih =>
    intro s h hstate hcalls
    obtain ⟨schedule, hdone, hready⟩ := h.completes hstate hcalls
    obtain ⟨more, hmore⟩ := ih _ (h.run schedule) hready (by rw [hdone])
    exact ⟨schedule ++ more, by rw [run_append]; exact hmore⟩

end Port

open Port in
/-- In every interleaving of any callers: no caller reaches the last arm of the match in `init`; the outputs program
the port, from the start of the sequence and all by one caller, and bytes come after the whole sequence only; every
caller's bytes are sent once and in its order; and a caller that waits can be brought to its end. -/
theorem serial_port_protocol {ι : Type} [DecidableEq ι] (programs : ι → List Call) (schedule : List (ι × U8)) :
    let s := (Port.new programs).run schedule
    (∀ i, (s.callers i).place ≠ .unreachable) ∧
      (∃ programming sent, s.outputs = programming ++ sent ∧ programming.map Prod.snd <+: initSequence ∧
        (∀ output ∈ programming, ∀ other ∈ programming, output.1 = other.1) ∧
        (sent ≠ [] → programming.length = initSequence.length) ∧ ∀ output ∈ sent, output.2.1 = com1) ∧
      (∀ i, s.sentBy i ++ bytesOf (s.callers i).calls = bytesOf (programs i)) ∧
      ∀ i, ∃ more, ((s.run more).callers i).calls = [] := by
  intro s
  have h : s.Sound programs := (sound_new programs).run schedule
  exact ⟨h.phase.reachable, h.phase.outputs_split, h.delivered, h.finishes⟩

end Serial

end X11Os
