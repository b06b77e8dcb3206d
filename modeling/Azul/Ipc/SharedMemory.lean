import Azul.Foundation.SharedObjects
import Azul.Foundation.System

/-!
# Shared memory of `linux` and `darwin`

The class `SharedMemory` owns a descriptor and a mapping, each with a disposer. Its constructor and
its destructor are sequences of calls of the operating system, which processes interleave; one step
is one call. A constructor that throws runs the disposers that are set already, and so does the
destructor, last the one of the descriptor, which removes the name if the object is the owner. A
process may end at any time.
-/

namespace Azul.Ipc.SharedMemory

open Azul.Foundation

/-- What a constructor throws. -/
inductive Failure
  | shmUnlink (error : Errno)
  | shmOpen (error : Errno)
  | ftruncate (error : Errno)
  | mmap (error : Errno)
  /-- `ResourceMissingError`. -/
  | resourceMissing
  deriving DecidableEq

/-- The text of an exception. -/
def Failure.what : Failure → String
  | .shmUnlink error =>
    "shm_unlink of previously generated shared memory failed, error: " ++ toString error.number
  | .shmOpen error => "shm_open failed, error: " ++ toString error.number
  | .ftruncate error => "ftruncate failed, error: " ++ toString error.number
  | .mmap error => "mmap failed, error: " ++ toString error.number
  | .resourceMissing => ""

/-- The next call of a constructor or destructor. -/
inductive Stage
  /-- `shm_unlink`, before an owner opens its object. -/
  | unlinkStale
  /-- `shm_open`. -/
  | shmOpen
  /-- `shm_unlink`, after `EEXIST`. -/
  | unlinkExisting
  /-- `shm_open`, after that. -/
  | reopen
  /-- `fstat`. -/
  | fstat (fd : Nat)
  /-- `ftruncate`. -/
  | ftruncate (fd : Nat)
  /-- `mmap`. -/
  | mmap (fd : Nat)
  /-- The object is constructed. -/
  | live (fd address : Nat)
  /-- `munmap`, in the disposer of the mapping. -/
  | munmap (fd address : Nat)
  /-- `close`, in the disposer of the descriptor, with what is being thrown. -/
  | close (fd : Nat) (thrown : Option Failure)
  /-- `shm_unlink`, in the disposer of the descriptor of an owner. -/
  | shmUnlink (thrown : Option Failure)
  /-- The object is destroyed, or its constructor has thrown. -/
  | ended (thrown : Option Failure)
  /-- The process has ended. -/
  | crashed
  deriving DecidableEq

/-- An object of the class, by the arguments of its constructor. -/
structure Instance where
  process : Nat
  name : String
  size : UInt64
  isOwner : Bool
  stage : Stage
  deriving DecidableEq

namespace Instance

variable (system : SharedObjects String) (i : Instance)

/-- The last call of the constructor. -/
def mmap (fd : Nat) (reply : Answer) : Option (SharedObjects String × Stage) :=
  (system.mmap i.process fd i.size.toNat reply).map fun (system, result) =>
    (system, match result with
      | .ok address => .live fd address
      | .error error => .close fd (some (.mmap error)))

/-- `ftruncate`, whose length is the size as a signed number. -/
def ftruncate (fd : Nat) (reply : Answer) : SharedObjects String × Stage :=
  let (system, result) := system.ftruncate i.process fd i.size.toInt64.toInt reply
  (system, match result with
    | .ok () => .mmap fd
    | .error error => .close fd (some (.ftruncate error)))

/-- The disposer of the descriptor, after `close`. -/
def closed (thrown : Option Failure) : Stage :=
  if i.isOwner then .shmUnlink thrown else .ended thrown

end Instance

/-- `c_str`, which a call of the operating system reads up to the first null character. -/
def cStr (name : String) : String :=
  String.ofList (name.toList.takeWhile fun c => c.toNat != 0)

/-- One call, on `linux`. -/
def Linux.run (system : SharedObjects String) (i : Instance) (reply : Answer) :
    Option (SharedObjects String × Stage) :=
  let name := cStr i.name
  let allocate (fd : Nat) : Stage := if i.isOwner then .ftruncate fd else .mmap fd
  match i.stage with
  | .shmOpen =>
    (system.shmOpen i.process name i.isOwner i.isOwner reply).map fun (system, result) =>
      (system, match result with
        | .ok fd => allocate fd
        | .error .alreadyExists => .unlinkExisting
        | .error error => .ended (some (.shmOpen error)))
  | .unlinkExisting =>
    let (system, result) := system.shmUnlink name reply
    some (system, match result with
      | .ok () => .reopen
      | .error error => .ended (some (.shmUnlink error)))
  | .reopen =>
    (system.shmOpen i.process name i.isOwner i.isOwner reply).map fun (system, result) =>
      (system, match result with
        | .ok fd => allocate fd
        | .error error => .ended (some (.shmOpen error)))
  | .ftruncate fd => some (i.ftruncate system fd reply)
  | .mmap fd => i.mmap system fd reply
  | .munmap fd address => some (system.munmap i.process address, .close fd none)
  | .close fd thrown => some (system.close i.process fd, i.closed thrown)
  | .shmUnlink thrown => some ((system.shmUnlink name reply).1, .ended thrown)
  | .unlinkStale | .fstat _ | .live _ _ | .ended _ | .crashed => none

/-- One call, on `darwin`, which hashes the name. -/
def Darwin.run (key : String → String) (system : SharedObjects String) (i : Instance)
    (reply : Answer) : Option (SharedObjects String × Stage) :=
  let name := key i.name
  let allocate (fd : Nat) : Stage := if i.isOwner then .fstat fd else .mmap fd
  match i.stage with
  | .unlinkStale => some ((system.shmUnlink name reply).1, .shmOpen)
  | .shmOpen =>
    (system.shmOpen i.process name i.isOwner false reply).map fun (system, result) =>
      (system, match result with
        | .ok fd => allocate fd
        | .error .noEntry => .ended (some .resourceMissing)
        | .error .alreadyExists => .unlinkExisting
        | .error error => .ended (some (.shmOpen error)))
  | .unlinkExisting =>
    let (system, result) := system.shmUnlink name reply
    some (system, match result with
      | .ok () => .reopen
      | .error error => .ended (some (.shmUnlink error)))
  | .reopen =>
    (system.shmOpen i.process name i.isOwner false reply).map fun (system, result) =>
      (system, match result with
        | .ok fd => allocate fd
        | .error error => .ended (some (.shmOpen error)))
  | .fstat fd =>
    some (system, match system.fstat i.process fd reply with
      | .ok 0 => .ftruncate fd
      | _ => .mmap fd)
  | .ftruncate fd => some (i.ftruncate system fd reply)
  | .mmap fd => i.mmap system fd reply
  | .munmap fd address => some (system.munmap i.process address, .close fd none)
  | .close fd thrown => some (system.close i.process fd, i.closed thrown)
  | .shmUnlink thrown => some ((system.shmUnlink name reply).1, .ended thrown)
  | .live _ _ | .ended _ | .crashed => none

/-- The two versions of the class, the one of `darwin` with its encoding of names. -/
inductive Platform
  | linux
  | darwin (key : String → String)

namespace Platform

/-- The name of an object for the operating system. -/
def key : Platform → String → String
  | linux => cStr
  | darwin key => key

/-- Whether an owner insists on a new object. -/
def exclusive : Platform → Bool
  | linux => true
  | darwin _ => false

/-- The first call of a constructor. -/
def first (isOwner : Bool) : Platform → Stage
  | linux => .shmOpen
  | darwin _ => if isOwner then .unlinkStale else .shmOpen

/-- One call. -/
def run : Platform → SharedObjects String → Instance → Answer →
    Option (SharedObjects String × Stage)
  | linux => Linux.run
  | darwin key => Darwin.run key

end Platform

/-- The operating system, and all objects of the class that were ever constructed. -/
structure State where
  system : SharedObjects String
  instances : List Instance

/-- What happens next. -/
inductive Event
  /-- A constructor is entered. -/
  | construct (process : Nat) (name : String) (size : UInt64) (isOwner : Bool)
  /-- A constructor or destructor makes its next call. -/
  | run (index : Nat) (reply : Answer)
  /-- A destructor is entered. -/
  | destroy (index : Nat)
  /-- A process ends. -/
  | exit (process : Nat)

/-- Where the end of its process leaves an object. -/
def Stage.exit : Stage → Stage
  | .ended thrown => .ended thrown
  | _ => .crashed

/-- A process has ended. -/
def Instance.exit (process : Nat) (i : Instance) : Instance :=
  if i.process = process then { i with stage := i.stage.exit } else i

namespace State

variable (platform : Platform) (σ : State)

/-- Put an object at another stage. -/
def goes (index : Nat) (i : Instance) (stage : Stage) (system : SharedObjects String) : State where
  system := system
  instances := σ.instances.set index { i with stage := stage }

/-- One step. -/
def step : Event → Option State
  | .construct process name size isOwner =>
    some { σ with
      instances := σ.instances ++ [{
        process := process
        name := name
        size := size
        isOwner := isOwner
        stage := platform.first isOwner }] }
  | .run index reply =>
    (σ.instances[index]?).bind fun i =>
      (platform.run σ.system i reply).map fun (system, stage) => σ.goes index i stage system
  | .destroy index =>
    (σ.instances[index]?).bind fun i =>
      match i.stage with
      | .live fd address => some (σ.goes index i (.munmap fd address) σ.system)
      | _ => none
  | .exit process =>
    some { system := σ.system.exit process, instances := σ.instances.map (Instance.exit process) }

end State

/-- All processes that use the class, from an empty system. -/
def system (platform : Platform) : System State Event where
  initial σ := σ.system = .new ∧ σ.instances = []
  step := State.step platform

end Azul.Ipc.SharedMemory
