import Azul.Ipc.LinuxRobustMutex

/-!
# The condition variable of `linux`

The condition variable is one of the operating system, too, and its waits release the caller's
mutex and take it again inside the operating system. Their second half meets what a `lock` meets: a
free mutex, one whose owner has died, or one that cannot be recovered. A wait may end at any time,
so notifications are not part of the model, and a thread may die before any step.
-/

namespace Azul.Ipc.Linux.ConditionVariable

open Azul.Foundation
open Azul.Ipc.Linux.RobustMutex (Mutex Thread EPERM EINVAL)

/-- A further error number of `errno.h`. -/
def ETIMEDOUT : Int := 110

/-- A `timespec`. -/
structure Timespec where
  tvSec : Int
  tvNsec : Int
  deriving DecidableEq

/-- The operating system accepts a time. -/
def Timespec.Valid (time : Timespec) : Prop :=
  0 ≤ time.tvNsec ∧ time.tvNsec < 1000000000
  deriving Decidable

/-- The deadline of a wait for some milliseconds that begins now. -/
def getAbsoluteTime (now : Timespec) (timeout : Int) : Timespec :=
  let additionalSeconds := timeout.tdiv 1000
  let timeout := timeout - additionalSeconds * 1000
  let time : Timespec :=
    { tvSec := now.tvSec + additionalSeconds, tvNsec := now.tvNsec + timeout * 1000000 }
  if time.tvNsec > 1000000000 then
    { tvSec := time.tvSec + 1, tvNsec := time.tvNsec - 1000000000 }
  else
    time

/-- What a wait returns or throws. -/
inductive Outcome
  /-- `Wait` returns. -/
  | waited
  /-- `WaitFor` returns `std::cv_status::no_timeout` or `std::cv_status::timeout`. -/
  | status (timeout : Bool)
  | thrown (message : String)
  deriving DecidableEq

/-- How `Wait` ends after `pthread_cond_wait`. -/
def wait (result : Int) : Outcome :=
  if result = EINVAL then
    .thrown ("pthread_cond_wait failed, error: " ++ toString result)
  else
    .waited

/-- How `WaitFor` ends after `pthread_cond_timedwait`. -/
def waitFor (result : Int) : Outcome :=
  if result = 0 then
    .status false
  else if result = ETIMEDOUT then
    .status true
  else
    .thrown ("pthread_cond_timedwait failed, error: " ++ toString result)

/-- A call of `Wait`, or of `WaitFor` for a number of milliseconds. -/
inductive Call
  | wait
  | waitFor (timeout : Int)
  deriving DecidableEq

/-- The operating system accepts the deadline of a call, if it has one. -/
def Call.Accepted (now : Timespec) : Call → Prop
  | .wait => True
  | .waitFor timeout => (getAbsoluteTime now timeout).Valid

instance (now : Timespec) : (call : Call) → Decidable (call.Accepted now)
  | .wait => inferInstanceAs (Decidable True)
  | .waitFor timeout => inferInstanceAs (Decidable (getAbsoluteTime now timeout).Valid)

/-- How a call ends after its wait. -/
def Call.ends : Call → Int → Outcome
  | .wait => ConditionVariable.wait
  | .waitFor _ => ConditionVariable.waitFor

/-- Where a thread is in the code of the condition variable. -/
inductive Phase
  /-- Outside, with what its last call ended with. -/
  | outside (last : Option Outcome)
  /-- Before it waits. -/
  | calling (call : Call)
  /-- Inside `pthread_cond_wait` or `pthread_cond_timedwait`, without the mutex. -/
  | blocked (call : Call)
  /-- Still inside, about to take the mutex. -/
  | woken (call : Call) (timeout : Bool)
  deriving DecidableEq

/-- A thread may call a method. -/
def Phase.Outside : Phase → Prop
  | .outside _ => True
  | _ => False

instance (phase : Phase) : Decidable phase.Outside := by
  unfold Phase.Outside
  split <;> infer_instance

/-- The mutex of one name, and the threads that use it and wait with it. -/
structure State where
  robust : RobustMutex.State
  waits : Thread → Phase

namespace State

variable (state : State)

/-- A thread goes on to another phase. -/
def goes (thread : Thread) (phase : Phase) : State :=
  { state with waits := Function.update state.waits thread phase }

/-- The mutex changes. -/
def setMutex (mutex : Mutex) : State :=
  { state with robust := { state.robust with mutex := mutex } }

/-- The call of a thread ends. -/
def ends (thread : Thread) (outcome : Outcome) : State :=
  state.goes thread (.outside (some outcome))

/-- A wait checks its deadline and its caller, and releases the mutex. -/
def begins (thread : Thread) (now : Timespec) : Option State :=
  match state.waits thread with
  | .calling call =>
    if ¬ call.Accepted now then
      some (state.ends thread (call.ends EINVAL))
    else
      let (result, mutex) := state.robust.mutex.pthreadMutexUnlock thread
      if result ≠ 0 then
        some (state.ends thread (call.ends result))
      else
        some ((state.setMutex mutex).goes thread (.blocked call))
  | .outside _ | .blocked _ | .woken _ _ => none

/-- A wait has been notified, its time is over, or it wakes up for no reason. -/
def wakes (thread : Thread) (timeout : Bool) : Option State :=
  match state.waits thread with
  | .blocked call =>
    if timeout = true ∧ call = .wait then
      none
    else
      some (state.goes thread (.woken call timeout))
  | .outside _ | .calling _ | .woken _ _ => none

/-- A wait takes the mutex again and ends; `none` means that the thread is blocked, or has no such
step. After a timeout it may report that in place of what it was told of the mutex. -/
def relocks (thread : Thread) (reportsTimeout : Bool) : Option State :=
  match state.waits thread with
  | .woken call timeout =>
    match state.robust.mutex.pthreadMutexLock thread with
    | none => none
    | some (result, mutex) =>
      let result :=
        if timeout = true ∧ (result = 0 ∨ reportsTimeout = true) then ETIMEDOUT else result
      some ((state.setMutex mutex).ends thread (call.ends result))
  | .outside _ | .calling _ | .blocked _ => none

end State

/-- What happens next. -/
inductive Event
  /-- A thread calls a method of the mutex or goes on in one, or a thread dies. -/
  | mutex (event : RobustMutex.Event)
  /-- A thread waits on an object, which may be one without `_impl`. -/
  | call (thread : Thread) (initialized : Bool) (call : Call)
  | begins (thread : Thread) (now : Timespec)
  | wakes (thread : Thread) (timeout : Bool)
  | relocks (thread : Thread) (reportsTimeout : Bool)
  deriving DecidableEq

/-- The state after an event. -/
def State.step (state : State) : Event → Option State
  | .mutex event =>
    match event with
    | .dies thread =>
      (state.robust.step event).map fun robust =>
        { state with robust := robust }.goes thread (.outside none)
    | .call thread _ _ | .advance thread _ =>
      if (state.waits thread).Outside then
        (state.robust.step event).map fun robust => { state with robust := robust }
      else
        none
  | .call thread initialized call =>
    if (state.waits thread).Outside ∧ (state.robust.threads thread).Outside then
      if initialized then
        some (state.goes thread (.calling call))
      else
        some (state.ends thread (.thrown "Not initialized."))
    else
      none
  | .begins thread now => state.begins thread now
  | .wakes thread timeout => state.wakes thread timeout
  | .relocks thread reportsTimeout => state.relocks thread reportsTimeout

/-- The mutex and the condition variable of one name, and any threads. -/
def conditionVariable : System State Event where
  initial state := RobustMutex.robustMutex.initial state.robust ∧
    ∀ thread, state.waits thread = .outside none
  step := State.step

end Azul.Ipc.Linux.ConditionVariable
