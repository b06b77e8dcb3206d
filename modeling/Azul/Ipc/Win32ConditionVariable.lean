import Azul.Foundation.System
import Azul.Ipc.QueueRefinement

/-!
# The condition variable of `win32`

A waiter enqueues its thread id in the shared queue and waits for a semaphore named after it; a
notifier dequeues an id and releases the semaphore. Both do so under `_threadQueueMutex`, but the
wait itself, and thus every way in which it ends, is outside of it. One step is one call of the
operating system or one group of statements on the shared queue, which only the holder of the mutex
accesses.

A named semaphore exists as long as some object holds a handle of it. Creating one may fail;
opening an existing one does not. Handles are only closed when their process exits, which happens
outside of calls.
-/

namespace Azul.Ipc

open Azul.Foundation Operation

/-- `std::thread::id`. -/
abbrev ThreadId := Nat

/-- The `ConditionVariable` objects of one name, in any process. -/
abbrev ObjectId := Nat

/-- The mutexes that callers wait with. -/
abbrev MutexId := Nat

/-- `_threadQueue`, over `_threadQueueSTORAGE_SIZE` bytes. -/
def threadQueue (itemSize : Word32) : Queue where
  size := (128 * 1024 - 4 * 3) / itemSize

/-- The storage is small enough for positions not to wrap around. -/
theorem threadQueue_room (itemSize : Word32) : 3 * (threadQueue itemSize).size.toNat ≤ 2 ^ 32 := by
  show 3 * ((128 * 1024 - 4 * 3 : Word32) / itemSize).toNat ≤ 2 ^ 32
  rw [BitVec.toNat_udiv]
  have fewer := Nat.div_le_self (128 * 1024 - 4 * 3 : Word32).toNat itemSize.toNat
  have bytes : (128 * 1024 - 4 * 3 : Word32).toNat = 131060 := by decide
  omega

/-- What a call returns or throws. -/
inductive Outcome
  | returned
  | noTimeout
  | timeout
  | thrown (message : String)
  deriving DecidableEq

namespace Win32

/-- What `WaitForSingleObject` returns for a semaphore. -/
inductive WaitResult
  | object0
  | timeout
  | failed
  deriving DecidableEq

/-- A call of `Wait`, or of `WaitFor` if it is timed. -/
structure WaitCall where
  object : ObjectId
  mutex : MutexId
  timed : Bool
  deriving DecidableEq

/-- A call of `NotifyOne`, or of `NotifyAll`. -/
structure NotifyCall where
  object : ObjectId
  all : Bool
  deriving DecidableEq

/-- Where a thread is in the code of the condition variable. -/
inductive Phase
  | outside
  /-- The constructor of `lock` in `Wait` and `WaitFor`. -/
  | lockingWait (call : WaitCall)
  /-- `GetSemaphore(current_thread_id)`. -/
  | gettingOwn (call : WaitCall)
  /-- `_threadQueue.PushBack(current_thread_id)`. -/
  | pushing (call : WaitCall)
  /-- `mutex.unlock()`. -/
  | unlockingMutex (call : WaitCall)
  /-- `lock.unlock()`. -/
  | unlocking (call : WaitCall)
  /-- `WaitForSingleObject`. -/
  | waiting (call : WaitCall)
  /-- `lock.lock()`. -/
  | relocking (call : WaitCall) (result : WaitResult)
  /-- `mutex.lock()`. -/
  | relockingMutex (call : WaitCall) (result : WaitResult)
  /-- The evaluation of the result. -/
  | relocked (call : WaitCall) (result : WaitResult)
  /-- The constructor of `lock` in `NotifyOne` and `NotifyAll`. -/
  | lockingNotify (call : NotifyCall)
  /-- The condition on `Count`, `Front` and `Pop`. -/
  | notifying (call : NotifyCall)
  /-- `GetSemaphore(id)`. -/
  | getting (call : NotifyCall) (id : ThreadId)
  /-- `ReleaseSemaphore`. -/
  | releasing (call : NotifyCall) (id : ThreadId)
  /-- The destructor of `lock`. -/
  | unwinding (outcome : Outcome)
  deriving DecidableEq

/-- All objects of one name, and the threads that use them. -/
structure State where
  /-- The region of `_threadQueue`. -/
  memory : Memory ThreadId
  /-- The holder of `_threadQueueMutex`. -/
  queueMutex : Option ThreadId
  /-- The holders of the callers' mutexes. -/
  mutexes : MutexId → Option ThreadId
  /-- The counts of the named semaphores. -/
  counts : ThreadId → Nat
  /-- The objects whose `_semaphores` has a handle of the semaphore of a thread. -/
  handles : ThreadId → List ObjectId
  threads : ThreadId → Phase

namespace State

variable (state : State)

/-- A thread goes on to another phase. -/
def goes (thread : ThreadId) (phase : Phase) : State :=
  { state with threads := Function.update state.threads thread phase }

/-- `GetSemaphore`: a known handle is reset, otherwise the semaphore is opened or created. -/
def getSemaphore (object : ObjectId) (id : ThreadId) (creates : Bool) : Except String State :=
  if object ∈ state.handles id then
    .ok { state with counts := Function.update state.counts id (state.counts id - 1) }
  else if state.handles id ≠ [] then
    .ok { state with handles := Function.update state.handles id (object :: state.handles id) }
  else if creates then
    .ok { state with
      counts := Function.update state.counts id 0
      handles := Function.update state.handles id [object] }
  else
    .error "CreateSemaphoreA failed, error: "

/-- `ReleaseSemaphore`, which fails at the maximum count. -/
def releaseSemaphore (id : ThreadId) : State :=
  { state with counts := Function.update state.counts id (min (state.counts id + 1) 1) }

/-- The next step of a thread inside a call. The environment says whether a semaphore can be
created and how a wait ends; `none` means that the thread is blocked, or has no such step. -/
def advance (queue : Queue) (thread : ThreadId) (creates : Bool) (ends : WaitResult) :
    Option State :=
  match state.threads thread with
  | .outside => none
  | .lockingWait call =>
    if state.queueMutex = none then
      some ({ state with queueMutex := some thread }.goes thread (.gettingOwn call))
    else
      none
  | .gettingOwn call =>
    match state.getSemaphore call.object thread creates with
    | .ok next => some (next.goes thread (.pushing call))
    | .error message => some (state.goes thread (.unwinding (.thrown message)))
  | .pushing call =>
    match (queue.pushBack thread).perform (Run.new state.memory) with
    | (.ok _, run) =>
      some ({ state with memory := run.memory }.goes thread (.unlockingMutex call))
    | (.error message, _) => some (state.goes thread (.unwinding (.thrown message)))
  | .unlockingMutex call =>
    some ({ state with mutexes := Function.update state.mutexes call.mutex none }.goes thread
      (.unlocking call))
  | .unlocking call => some ({ state with queueMutex := none }.goes thread (.waiting call))
  | .waiting call =>
    match ends with
    | .object0 =>
      if 0 < state.counts thread then
        some ({ state with
          counts := Function.update state.counts thread (state.counts thread - 1) }.goes thread
            (.relocking call .object0))
      else
        none
    | .timeout =>
      if call.timed = true ∧ state.counts thread = 0 then
        some (state.goes thread (.relocking call .timeout))
      else
        none
    | .failed => some (state.goes thread (.relocking call .failed))
  | .relocking call result =>
    if state.queueMutex = none then
      some ({ state with queueMutex := some thread }.goes thread (.relockingMutex call result))
    else
      none
  | .relockingMutex call result =>
    if state.mutexes call.mutex = none then
      some ({ state with mutexes := Function.update state.mutexes call.mutex (some thread) }.goes
        thread (.relocked call result))
    else
      none
  | .relocked call result =>
    match result with
    | .object0 =>
      some (state.goes thread (.unwinding (if call.timed then .noTimeout else .returned)))
    | .timeout => some (state.goes thread (.unwinding .timeout))
    | .failed =>
      match (queue.remove thread).perform (Run.new state.memory) with
      | (.ok _, run) => some ({ state with memory := run.memory }.goes thread
          (.unwinding (.thrown "WaitForSingleObject failed, error: ")))
      | (.error message, _) => some (state.goes thread (.unwinding (.thrown message)))
  | .lockingNotify call =>
    if state.queueMutex = none then
      some ({ state with queueMutex := some thread }.goes thread (.notifying call))
    else
      none
  | .notifying call =>
    if 0 < state.memory.count then
      match (do
          let id ← Queue.front
          queue.pop
          return id : Operation ThreadId ThreadId).perform (Run.new state.memory) with
      | (.ok id, run) => some ({ state with memory := run.memory }.goes thread (.getting call id))
      | (.error message, _) => some (state.goes thread (.unwinding (.thrown message)))
    else
      some (state.goes thread (.unwinding .returned))
  | .getting call id =>
    match state.getSemaphore call.object id creates with
    | .ok next => some (next.goes thread (.releasing call id))
    | .error message => some (state.goes thread (.unwinding (.thrown message)))
  | .releasing call id =>
    some ((state.releaseSemaphore id).goes thread
      (if call.all then .notifying call else .unwinding .returned))
  | .unwinding _ => some ({ state with queueMutex := none }.goes thread .outside)

end State

/-- The object through which a thread is in a call. -/
def Phase.object : Phase → Option ObjectId
  | .outside | .unwinding _ => none
  | .lockingWait call | .gettingOwn call | .pushing call | .unlockingMutex call | .unlocking call
  | .waiting call | .relocking call _ | .relockingMutex call _ | .relocked call _ =>
    some call.object
  | .lockingNotify call | .notifying call | .getting call _ | .releasing call _ => some call.object

/-- What happens next. -/
inductive Event
  /-- A thread locks or unlocks a mutex of the callers outside of the condition variable. -/
  | lockMutex (thread : ThreadId) (mutex : MutexId)
  | unlockMutex (thread : ThreadId) (mutex : MutexId)
  /-- A thread calls the condition variable, waits with the mutex held. -/
  | wait (thread : ThreadId) (call : WaitCall)
  | notify (thread : ThreadId) (call : NotifyCall)
  | advance (thread : ThreadId) (creates : Bool) (ends : WaitResult)
  /-- One of the handles of a process is closed as it exits. -/
  | closes (object : ObjectId) (id : ThreadId)
  deriving DecidableEq

namespace State

/-- A handle may be closed as its process exits: the thread itself is not in a call through the
object, and neither is the holder of the queue mutex. -/
def MayClose (state : State) (object : ObjectId) (id : ThreadId) : Prop :=
  object ∈ state.handles id ∧ (state.threads id).object ≠ some object ∧
    ∀ holder ∈ state.queueMutex, (state.threads holder).object ≠ some object

instance (state : State) (object : ObjectId) (id : ThreadId) :
    Decidable (state.MayClose object id) := by
  unfold MayClose
  infer_instance

/-- The state after an event. -/
def step (queue : Queue) (state : State) : Event → Option State
  | .lockMutex thread mutex =>
    if state.threads thread = .outside ∧ state.mutexes mutex = none then
      some { state with mutexes := Function.update state.mutexes mutex (some thread) }
    else
      none
  | .unlockMutex thread mutex =>
    if state.threads thread = .outside ∧ state.mutexes mutex = some thread then
      some { state with mutexes := Function.update state.mutexes mutex none }
    else
      none
  | .wait thread call =>
    if state.threads thread = .outside ∧ state.mutexes call.mutex = some thread then
      some (state.goes thread (.lockingWait call))
    else
      none
  | .notify thread call =>
    if state.threads thread = .outside then
      some (state.goes thread (.lockingNotify call))
    else
      none
  | .advance thread creates ends => state.advance queue thread creates ends
  | .closes object id =>
    if state.MayClose object id then
      some { state with
        handles := Function.update state.handles id ((state.handles id).erase object) }
    else
      none

end State

/-- The objects of one name, from the construction of the owning one on, for thread ids of
`itemSize` bytes. -/
def conditionVariable (itemSize : Word32) : System State Event where
  initial state :=
    (∃ before constructed, (Queue.construct itemSize (128 * 1024) true).perform (Run.new before) =
      (.ok (threadQueue itemSize), constructed) ∧ constructed.memory = state.memory) ∧
    state.queueMutex = none ∧ (∀ mutex, state.mutexes mutex = none) ∧
    (∀ id, state.handles id = []) ∧ ∀ thread, state.threads thread = .outside
  step := State.step (threadQueue itemSize)

end Win32

end Azul.Ipc
