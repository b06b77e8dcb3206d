import Azul.Foundation.System

/-!
# The robust mutex of `linux`

The mutex is one of the operating system, in memory that all processes share. It checks for errors,
and it is robust: the thread that locks it after its owner has died is told so by `EOWNERDEAD`, and
then owns the mutex in an inconsistent state, which it has to leave before it unlocks. One step is
one call of the operating system, and a thread may die before any of them.
-/

namespace Azul.Ipc.Linux.RobustMutex

open Azul.Foundation

/-- The threads of all processes. -/
abbrev Thread := Nat

/-! ## The operating system -/

/-- Error numbers of `errno.h`. -/
def EPERM : Int := 1
def EBUSY : Int := 16
def EINVAL : Int := 22
def EDEADLK : Int := 35
def EOWNERDEAD : Int := 130
def ENOTRECOVERABLE : Int := 131

/-- A `pthread_mutex_t` that is robust and checks for errors. -/
inductive Mutex
  | free
  | owned (owner : Thread) (consistent : Bool)
  | ownerDead
  | unrecoverable
  deriving DecidableEq

namespace Mutex

variable (mutex : Mutex) (thread : Thread)

/-- `pthread_mutex_lock`; `none` means that the thread is blocked. -/
def pthreadMutexLock : Option (Int × Mutex) :=
  match mutex with
  | free => some (0, owned thread true)
  | owned owner _ => if owner = thread then some (EDEADLK, mutex) else none
  | ownerDead => some (EOWNERDEAD, owned thread false)
  | unrecoverable => some (ENOTRECOVERABLE, mutex)

/-- `pthread_mutex_trylock`, which may report to the owner that it would block itself. -/
def pthreadMutexTrylock (reports : Bool) : Int × Mutex :=
  match mutex with
  | free => (0, owned thread true)
  | owned owner _ => if owner = thread ∧ reports = true then (EDEADLK, mutex) else (EBUSY, mutex)
  | ownerDead => (EOWNERDEAD, owned thread false)
  | unrecoverable => (ENOTRECOVERABLE, mutex)

/-- `pthread_mutex_consistent`. -/
def pthreadMutexConsistent : Int × Mutex :=
  if mutex = owned thread false then (0, owned thread true) else (EINVAL, mutex)

/-- `pthread_mutex_unlock`. -/
def pthreadMutexUnlock : Int × Mutex :=
  match mutex with
  | owned owner consistent =>
    if owner = thread then
      (0, if consistent then free else unrecoverable)
    else
      (EPERM, mutex)
  | free | ownerDead | unrecoverable => (EPERM, mutex)

/-- What the death of a thread leaves. -/
def abandoned : Mutex :=
  match mutex with
  | owned owner _ => if owner = thread then ownerDead else mutex
  | free | ownerDead | unrecoverable => mutex

end Mutex

/-! ## The code -/

/-- What a call returns or throws. -/
inductive Result
  | done
  | acquired (value : Bool)
  | thrown (message : String)
  deriving DecidableEq

/-- The methods of the mutex. -/
inductive Call
  | lock
  | tryLock
  | unlock
  deriving DecidableEq

/-- Where a thread is in the code of the mutex. -/
inductive Phase
  /-- Outside, with what its last call ended with. -/
  | outside (last : Option Result)
  /-- `pthread_mutex_lock`. -/
  | locking
  /-- `pthread_mutex_consistent`. -/
  | recovering
  /-- `pthread_mutex_trylock`. -/
  | trying
  /-- `pthread_mutex_unlock`. -/
  | unlocking
  | dead
  deriving DecidableEq

/-- Where a call starts. -/
def Call.start : Call → Phase
  | .lock => .locking
  | .tryLock => .trying
  | .unlock => .unlocking

/-- The mutex, and the threads that use it. -/
structure State where
  mutex : Mutex
  threads : Thread → Phase

namespace State

variable (state : State)

/-- A thread goes on to another phase. -/
def goes (thread : Thread) (phase : Phase) : State :=
  { state with threads := Function.update state.threads thread phase }

/-- The call of a thread ends. -/
def ends (thread : Thread) (result : Result) : State :=
  state.goes thread (.outside (some result))

/-- The next step of a thread inside a call; `none` means that the thread is blocked, or has no such
step. -/
def advance (thread : Thread) (reports : Bool) : Option State :=
  match state.threads thread with
  | .outside _ | .dead => none
  | .locking =>
    match state.mutex.pthreadMutexLock thread with
    | none => none
    | some (result, mutex) =>
      let next := { state with mutex := mutex }
      if result = EDEADLK then
        some (next.ends thread (.thrown "pthread_mutex_lock called on already locked mutex"))
      else if result = EOWNERDEAD then
        some (next.goes thread .recovering)
      else if result ≠ 0 then
        some (next.ends thread
          (.thrown ("pthread_mutex_lock failed with error code: " ++ toString result)))
      else
        some (next.ends thread .done)
  | .recovering =>
    -- the result is not looked at
    let (_, mutex) := state.mutex.pthreadMutexConsistent thread
    some ({ state with mutex := mutex }.ends thread .done)
  | .trying =>
    let (result, mutex) := state.mutex.pthreadMutexTrylock thread reports
    let next := { state with mutex := mutex }
    if result = EDEADLK then
      some (next.ends thread (.thrown "pthread_mutex_trylock called on already locked mutex"))
    else if result ≠ 0 ∧ result ≠ EBUSY then
      some (next.ends thread
        (.thrown ("pthread_mutex_trylock failed with error code: " ++ toString result)))
    else
      some (next.ends thread (.acquired (result = 0)))
  | .unlocking =>
    let (result, mutex) := state.mutex.pthreadMutexUnlock thread
    let next := { state with mutex := mutex }
    if result = EPERM then
      some (next.ends thread (.thrown "pthread_mutex_unlock called from other thread"))
    else if result ≠ 0 then
      some (next.ends thread
        (.thrown ("pthread_mutex_unlock failed with error code: " ++ toString result)))
    else
      some (next.ends thread .done)

end State

/-- What happens next. -/
inductive Event
  /-- A thread calls a method of an object, which may be one without `_impl`. -/
  | call (thread : Thread) (initialized : Bool) (call : Call)
  | advance (thread : Thread) (reports : Bool)
  | dies (thread : Thread)
  deriving DecidableEq

/-- A thread may call a method. -/
def Phase.Outside : Phase → Prop
  | .outside _ => True
  | _ => False

instance (phase : Phase) : Decidable phase.Outside := by
  unfold Phase.Outside
  split <;> infer_instance

/-- The state after an event. -/
def State.step (state : State) : Event → Option State
  | .call thread initialized call =>
    if (state.threads thread).Outside then
      if initialized then
        some (state.goes thread call.start)
      else
        some (state.ends thread (.thrown "Not initialized."))
    else
      none
  | .advance thread reports => state.advance thread reports
  | .dies thread =>
    some ({ state with mutex := state.mutex.abandoned thread }.goes thread .dead)

/-- The mutex of one name, and any threads. -/
def robustMutex : System State Event where
  initial state := state.mutex = .free ∧ ∀ thread, state.threads thread = .outside none
  step := State.step

end Azul.Ipc.Linux.RobustMutex
