import X11Os.Memory.User

/-!
# Syscall dispatch

The shared ABI numbers (`abi/src/lib.rs`) and the architecture-independent dispatcher (`syscall.rs`).  The memory
view, the copy backend, the sink and the process control are parameters, as they are type parameters of the source.
-/

namespace X11Os

open Word

/-! ### The ABI -/

inductive Syscall where
  | write
  | exit
  | yield
deriving DecidableEq, Repr

def Syscall.fromNumber (number : U64) : Option Syscall :=
  if number = 0 then some .write
  else if number = 1 then some .exit
  else if number = 2 then some .yield
  else none

theorem Syscall.fromNumber_eq_write {number : U64} : fromNumber number = some .write ↔ number = 0 := by
  unfold fromNumber
  split_ifs <;> simp_all

theorem Syscall.fromNumber_eq_exit {number : U64} : fromNumber number = some .exit ↔ number = 1 := by
  unfold fromNumber
  split_ifs <;> simp_all

theorem Syscall.fromNumber_eq_yield {number : U64} : fromNumber number = some .yield ↔ number = 2 := by
  unfold fromNumber
  split_ifs <;> simp_all

/-- The error numbers of the ABI; a syscall returns the negated number. -/
inductive AbiSyscallError where
  | unknownSyscall
  | notImplemented
  | invalidArguments
  | invalidUserRange
  | invalidUserMemory
  | writeFailed
deriving DecidableEq, Repr

namespace AbiSyscallError

def number : AbiSyscallError → U64
  | unknownSyscall => 1
  | notImplemented => 2
  | invalidArguments => 3
  | invalidUserRange => 4
  | invalidUserMemory => 5
  | writeFailed => 6

def returnValue (e : AbiSyscallError) : U64 := 0 - e.number

end AbiSyscallError

/-! ### Requests and results -/

structure SyscallRequest where
  number : U64
  arg0 : U64
  arg1 : U64
  arg2 : U64
deriving DecidableEq, Repr

namespace SyscallRequest

def exit (code : U64) : SyscallRequest := ⟨1, code, 0, 0⟩

def syscall (r : SyscallRequest) : Option Syscall := Syscall.fromNumber r.number

def userSlice (r : SyscallRequest) : UserSlice := ⟨r.arg0, r.arg1⟩

end SyscallRequest

inductive SyscallError where
  | unknownNumber
  | notImplemented
  | invalidArguments
  | invalidUserRange (error : UserRangeError)
  | invalidUserMemory (error : UserReadError)
  | writeFailed
deriving DecidableEq, Repr

namespace SyscallError

def abiError : SyscallError → AbiSyscallError
  | unknownNumber => .unknownSyscall
  | notImplemented => .notImplemented
  | invalidArguments => .invalidArguments
  | invalidUserRange _ => .invalidUserRange
  | invalidUserMemory _ => .invalidUserMemory
  | writeFailed => .writeFailed

def abiReturnValue (e : SyscallError) : U64 := e.abiError.returnValue

end SyscallError

inductive SyscallReturnAction where
  | return
  | reschedule
  | terminate
deriving DecidableEq, Repr

abbrev SyscallResult := Except SyscallError U64

structure SyscallDispatch where
  result : SyscallResult
  action : SyscallReturnAction

namespace SyscallDispatch

def returned (result : SyscallResult) : SyscallDispatch := ⟨result, .return⟩

def reschedule (value : U64) : SyscallDispatch := ⟨.ok value, .reschedule⟩

def terminate (value : U64) : SyscallDispatch := ⟨.ok value, .terminate⟩

end SyscallDispatch

/-! ### The parts a dispatch works with -/

/-- A sink decides on each write from the writes it has accepted so far; those are all that is known of its state. -/
structure WriteSink where
  write : List (List U8) → List U8 → Except SyscallError Unit

/-- The process-control operations of the lifecycle syscalls, over the state of their owner. -/
structure ProcessSyscallControl (σ : Type) where
  exit : σ → U64 → σ × Except SyscallError Unit
  yieldNow : σ → σ × Except SyscallError Unit

/-! ### Write -/

/-- The size of the bounce buffer of `sys_write_with_memory`. -/
def bufferLen : U64 := 256

/-- The loop of `sys_write_with_memory`, with the writes that the sink has accepted.  `fuel` is the number of chunks
that are left. -/
def writeLoop (view : UserMemoryView) (backend : UserCopyBackend) (sink : WriteSink) (slice : UserSlice) :
    Nat → U64 → List (List U8) → Panics SyscallResult × List (List U8)
  | 0, _, received => (.returned (.ok slice.len), received)
  | fuel + 1, offset, received =>
    if offset < slice.len then
      let remaining := slice.len - offset
      let chunkLen := if remaining ≤ bufferLen then remaining else bufferLen
      match checkedAdd slice.ptr offset with
      | none => (.returned (.error (.invalidUserRange .addressOverflow)), received)
      | some chunkPtr =>
        match copyFromUser view backend ⟨chunkPtr, chunkLen⟩ chunkLen.toNat with
        | .panicked => (.panicked, received)
        | .returned (.error error) => (.returned (.error (.invalidUserMemory error)), received)
        | .returned (.ok bytes) =>
          match sink.write received bytes with
          | .error error => (.returned (.error error), received)
          | .ok () =>
            match checkedAdd offset chunkLen with
            | none => (.returned (.error .invalidArguments), received ++ [bytes])
            | some offset => writeLoop view backend sink slice fuel offset (received ++ [bytes])
    else (.returned (.ok slice.len), received)

def UserSlice.chunkCount (slice : UserSlice) : Nat := (slice.len.toNat + 255) / 256

def sysWriteWithMemory (slice : UserSlice) (view : UserMemoryView) (backend : UserCopyBackend) (sink : WriteSink)
    (received : List (List U8)) : Panics SyscallResult × List (List U8) :=
  match validateSlice slice with
  | .error error => (.returned (.error (.invalidUserRange error)), received)
  | .ok _ =>
    if slice.isEmpty then (.returned (.ok 0), received)
    else writeLoop view backend sink slice slice.chunkCount 0 received

/-! ### Dispatch -/

/-- What a dispatch returns and the states it leaves to the sink and to the control. -/
structure DispatchResult (σ : Type) where
  dispatch : Panics SyscallDispatch
  received : List (List U8)
  control : σ

def dispatchWithMemoryAndControlAction {σ : Type} (request : SyscallRequest) (view : UserMemoryView)
    (backend : UserCopyBackend) (sink : WriteSink) (control : ProcessSyscallControl σ)
    (received : List (List U8)) (owner : σ) : DispatchResult σ :=
  match request.syscall with
  | none => ⟨.returned (.returned (.error .unknownNumber)), received, owner⟩
  | some .write =>
    if request.arg2 ≠ 0 then ⟨.returned (.returned (.error .invalidArguments)), received, owner⟩
    else
      let (result, received) := sysWriteWithMemory request.userSlice view backend sink received
      ⟨result.bind fun result => .returned (.returned result), received, owner⟩
  | some .exit =>
    match control.exit owner request.arg0 with
    | (owner, .ok ()) => ⟨.returned (.terminate 0), received, owner⟩
    | (owner, .error error) => ⟨.returned (.returned (.error error)), received, owner⟩
  | some .yield =>
    match control.yieldNow owner with
    | (owner, .ok ()) => ⟨.returned (.reschedule 0), received, owner⟩
    | (owner, .error error) => ⟨.returned (.returned (.error error)), received, owner⟩

end X11Os
