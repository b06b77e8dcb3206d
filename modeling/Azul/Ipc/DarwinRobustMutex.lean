import Azul.Foundation.System

/-!
# The robust mutex of `darwin`

A thread takes a mutex of its process first, which checks for errors, and the lock of a file second,
which all processes open and which the operating system gives back when its holder exits. One step
is one call of the operating system.
-/

namespace Azul.Ipc.Darwin.RobustMutex

open Azul.Foundation

/-- A thread of a process. -/
structure Thread where
  process : Nat
  index : Nat
  deriving DecidableEq

/-- The file that an object of a process has opened, `file_`. -/
structure File where
  process : Nat
  object : Nat
  deriving DecidableEq

/-! ## The operating system -/

/-- Error numbers of `errno.h`. -/
def EPERM : Int := 1
def EBADF : Int := 9
def EDEADLK : Int := 11
def EBUSY : Int := 16
def EWOULDBLOCK : Int := 35

/-- What the threads compete for. -/
structure Resources where
  /-- The owners of the processes' `_mutex`. -/
  mutexes : Nat → Option Thread
  /-- The opened file that holds the lock. -/
  fileLock : Option File

/-- The operations of `flock` that the code asks for: `LOCK_EX`, `LOCK_EX | LOCK_NB`, `LOCK_UN`. -/
inductive FlockOperation
  | exclusive
  | exclusiveNonBlocking
  | unlock
  deriving DecidableEq

namespace Resources

variable (resources : Resources)

/-- The mutex of a process comes to be owned, or free. -/
def setMutex (process : Nat) (owner : Option Thread) : Resources :=
  { resources with mutexes := Function.update resources.mutexes process owner }

/-- No other file holds the lock. -/
def Grants (file : File) : Prop :=
  ∀ holder ∈ resources.fileLock, holder = file

instance (file : File) : Decidable (resources.Grants file) := by
  unfold Grants
  infer_instance

/-- `pthread_mutex_lock`; `none` means that the thread is blocked. -/
def pthreadMutexLock (thread : Thread) : Option (Int × Resources) :=
  match resources.mutexes thread.process with
  | none => some (0, resources.setMutex thread.process (some thread))
  | some owner => if owner = thread then some (EDEADLK, resources) else none

/-- `pthread_mutex_trylock`. -/
def pthreadMutexTrylock (thread : Thread) : Int × Resources :=
  match resources.mutexes thread.process with
  | none => (0, resources.setMutex thread.process (some thread))
  | some _ => (EBUSY, resources)

/-- `pthread_mutex_unlock`. -/
def pthreadMutexUnlock (thread : Thread) : Int × Resources :=
  if resources.mutexes thread.process = some thread then
    (0, resources.setMutex thread.process none)
  else
    (EPERM, resources)

/-- `flock`, which fails with `-1` and leaves the reason in `errno`. -/
def flock (file : File) (operation : FlockOperation) (fails : Bool) : Option (Int × Resources) :=
  if fails then
    some (-1, resources)
  else
    match operation with
    | .exclusive =>
      if resources.Grants file then some (0, { resources with fileLock := some file }) else none
    | .exclusiveNonBlocking =>
      if resources.Grants file then
        some (0, { resources with fileLock := some file })
      else
        some (-1, resources)
    | .unlock =>
      if resources.fileLock = some file then
        some (0, { resources with fileLock := none })
      else
        some (0, resources)

end Resources

/-! ## The code -/

/-- What a call returns or throws. -/
inductive Result
  | done
  | acquired (value : Bool)
  | thrown (message : String)
  deriving DecidableEq

/-- The methods of the mutex. -/
inductive Call
  | lock
  | tryLock
  | unlock
  deriving DecidableEq

/-- Where a thread is in the code of the mutex. -/
inductive Phase
  /-- Outside, with what its last call ended with. -/
  | outside (last : Option Result)
  /-- `pthread_mutex_lock`. -/
  | lockingMutex (object : Nat)
  /-- `flock(file_, LOCK_EX)`. -/
  | lockingFile (object : Nat)
  /-- `pthread_mutex_trylock`. -/
  | tryingMutex (object : Nat)
  /-- `flock(file_, LOCK_EX | LOCK_NB)`. -/
  | tryingFile (object : Nat)
  /-- `flock(file_, LOCK_UN)`. -/
  | unlockingFile (object : Nat)
  /-- `pthread_mutex_unlock`. -/
  | unlockingMutex (object : Nat)
  | exited
  deriving DecidableEq

/-- Where a call starts. -/
def Call.start (object : Nat) : Call → Phase
  | .lock => .lockingMutex object
  | .tryLock => .tryingMutex object
  | .unlock => .unlockingFile object

/-- All objects of one name, and the threads that use them. -/
structure State where
  resources : Resources
  threads : Thread → Phase
  /-- Through which object a thread has acquired the mutex, by a `lock` that returned or a
  `try_lock` that returned `true`, until its `unlock` takes effect. No step reads it. -/
  acquired : Thread → Option Nat

namespace State

variable (state : State)

/-- A thread goes on to another phase. -/
def goes (thread : Thread) (phase : Phase) : State :=
  { state with threads := Function.update state.threads thread phase }

/-- The call of a thread ends. -/
def ends (thread : Thread) (result : Result) : State :=
  state.goes thread (.outside (some result))

/-- A thread acquires the mutex, or begins to give it back. -/
def setAcquired (thread : Thread) (object : Option Nat) : State :=
  { state with acquired := Function.update state.acquired thread object }

/-- The next step of a thread inside a call. `flock` may fail; `none` means that the thread is
blocked, or has no such step. -/
def advance (thread : Thread) (fails : Bool) : Option State :=
  match state.threads thread with
  | .outside _ | .exited => none
  | .lockingMutex object =>
    match state.resources.pthreadMutexLock thread with
    | none => none
    | some (result, resources) =>
      let next := { state with resources := resources }
      if result = EDEADLK then
        some (next.ends thread
          (.thrown "pthread_mutex_lock failed (EDEADLK), check your implementation"))
      else
        some (next.goes thread (.lockingFile object))
  | .lockingFile object =>
    match state.resources.flock ⟨thread.process, object⟩ .exclusive fails with
    | none => none
    | some (result, resources) =>
      let next := { state with resources := resources }
      if result ≠ 0 then
        some (next.ends thread (.thrown ("flock failed with error " ++ toString result)))
      else if result = EBADF then
        some (next.ends thread (.thrown "fd is not an open file descriptor"))
      else
        some ((next.setAcquired thread (some object)).ends thread .done)
  | .tryingMutex object =>
    let (mutexResult, resources) := state.resources.pthreadMutexTrylock thread
    let next := { state with resources := resources }
    if mutexResult = EBUSY then
      some (next.ends thread (.acquired false))
    else
      some (next.goes thread (.tryingFile object))
  | .tryingFile object =>
    match state.resources.flock ⟨thread.process, object⟩ .exclusiveNonBlocking fails with
    | none => none
    | some (result, resources) =>
      let next := { state with resources := resources }
      if result = EWOULDBLOCK then
        some (next.ends thread (.acquired false))
      else if result ≠ 0 then
        some (next.ends thread (.thrown ("flock failed with error " ++ toString result)))
      else
        some ((next.setAcquired thread (some object)).ends thread (.acquired true))
  | .unlockingFile object =>
    match state.resources.flock ⟨thread.process, object⟩ .unlock fails with
    | none => none
    | some (result, resources) =>
      let next := { state with resources := resources }
      if result ≠ 0 then
        some (next.ends thread (.thrown ("flock failed with error " ++ toString result)))
      else
        some ((next.setAcquired thread none).goes thread (.unlockingMutex object))
  | .unlockingMutex _ =>
    let (result, resources) := state.resources.pthreadMutexUnlock thread
    let next := { state with resources := resources }
    if result = EPERM then
      some (next.ends thread
        (.thrown "pthread_mutex_unlock failed, lock not owned by this thread"))
    else
      some (next.ends thread .done)

/-- The threads of a process are gone, and the operating system closes its files. -/
def exits (process : Nat) : State where
  resources := { state.resources with
    fileLock := state.resources.fileLock.filter (·.process ≠ process) }
  threads thread := if thread.process = process then .exited else state.threads thread
  acquired thread := if thread.process = process then none else state.acquired thread

end State

/-- What happens next. -/
inductive Event
  /-- A thread calls a method of an object of its process, which may be one without `_impl`. -/
  | call (thread : Thread) (impl : Option Nat) (call : Call)
  | advance (thread : Thread) (fails : Bool)
  | exits (process : Nat)
  deriving DecidableEq

/-- A thread may call a method. -/
def Phase.Outside : Phase → Prop
  | .outside _ => True
  | _ => False

instance (phase : Phase) : Decidable phase.Outside := by
  unfold Phase.Outside
  split <;> infer_instance

/-- The state after an event. -/
def State.step (state : State) : Event → Option State
  | .call thread impl call =>
    if (state.threads thread).Outside then
      match impl with
      | none => some (state.ends thread (.thrown "Not initialized."))
      | some object => some (state.goes thread (call.start object))
    else
      none
  | .advance thread fails => state.advance thread fails
  | .exits process => some (state.exits process)

/-- The objects of one name in all processes, and any threads. -/
def robustMutex : System State Event where
  initial state :=
    (∀ process, state.resources.mutexes process = none) ∧ state.resources.fileLock = none ∧
    (∀ thread, state.threads thread = .outside none) ∧ ∀ thread, state.acquired thread = none
  step := State.step

end Azul.Ipc.Darwin.RobustMutex
