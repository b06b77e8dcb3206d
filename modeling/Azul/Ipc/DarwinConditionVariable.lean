import Azul.Foundation.System
import Azul.Ipc.Win32ConditionVariable

/-!
# The condition variable of `darwin`

The algorithm of `win32` with a named pipe in place of a semaphore: a waiter creates a pipe named
after its thread, enqueues its id and reads a message from the pipe, and a notifier opens the pipe
of the thread it dequeues and writes the message. The pipe is removed when the waiter leaves.
`WaitFor` takes both mutexes after every read, also if that has read a part of the message only.
Locking a mutex throws if its `flock` fails, and then leaves the mutex of the process locked.
-/

namespace Azul.Ipc.Darwin

open Azul.Foundation Operation

/-- How `GetFiFo` ends for the owner of a pipe that does not exist. -/
inductive Creation
  | succeeds
  /-- `mkfifo` fails with `EDQUOT`. -/
  | quotaExceeded
  | mkfifoFails
  | openFails
  deriving DecidableEq

/-- How a read of a pipe ends. -/
inductive ReadResult
  | bytes (count : Nat)
  | timeout
  | pollFails
  | readFails
  deriving DecidableEq

/-- What the operating system decides. -/
structure Environment where
  creation : Creation
  opens : Bool
  read : ReadResult
  writes : Bool
  /-- `flock` does not fail. -/
  flocks : Bool
  deriving DecidableEq

/-- A call of `Wait`, or of `WaitFor` if it is timed. -/
structure WaitCall where
  mutex : MutexId
  timed : Bool
  deriving DecidableEq

/-- Where a thread is in the code of the condition variable. -/
inductive Phase
  | outside
  /-- The constructor of `lock` in `Wait` and `WaitFor`. -/
  | lockingWait (call : WaitCall)
  /-- `GetFiFo(name_, current_thread_id, true)`. -/
  | creating (call : WaitCall)
  /-- `_threadQueue.PushBack(current_thread_id)`. -/
  | pushing (call : WaitCall)
  /-- `mutex.unlock()`, with a number of bytes to read. -/
  | unlockingMutex (call : WaitCall) (toRead : Nat)
  /-- `lock.unlock()`. -/
  | unlocking (call : WaitCall) (toRead : Nat)
  /-- `Read` and `TimedRead`. -/
  | reading (call : WaitCall) (toRead : Nat)
  /-- `lock.lock()`; no result is a timeout. -/
  | relocking (call : WaitCall) (toRead : Nat) (result : Option Nat)
  /-- `mutex.lock()`. -/
  | relockingMutex (call : WaitCall) (toRead : Nat) (result : Option Nat)
  /-- The evaluation of the result. -/
  | relocked (call : WaitCall) (toRead : Nat) (result : Option Nat)
  /-- The destructor of the pipe, while the queue mutex is held. -/
  | removing (outcome : Outcome)
  /-- The destructor of the pipe after a read or `lock.lock()` has thrown. -/
  | abandoning (outcome : Outcome)
  /-- The constructor of `lock` in `NotifyOne` and `NotifyAll`. -/
  | lockingNotify (all : Bool)
  /-- The condition on `Count`, `Front` and `Pop`. -/
  | notifying (all : Bool)
  /-- `GetFiFo(name_, id, false)`. -/
  | opening (all : Bool) (id : ThreadId)
  /-- `Write`. -/
  | writing (all : Bool) (id : ThreadId)
  /-- The destructor of `lock`. A `flock` that fails there ends the program, and is left out. -/
  | unwinding (outcome : Outcome)
  deriving DecidableEq

/-- A mutex: `_threadQueueMutex`, or one of the callers. -/
abbrev LockId := Option MutexId

/-- The objects of one name, and the threads that use them. -/
structure State where
  /-- The region of `_threadQueue`. -/
  memory : Memory ThreadId
  /-- The holder of `_threadQueueMutex`. -/
  queueMutex : Option ThreadId
  /-- The holders of the callers' mutexes. -/
  mutexes : MutexId → Option ThreadId
  /-- The processes of the threads. -/
  process : ThreadId → Nat
  /-- The threads that have left the mutex of their process locked, by a lock that has thrown. -/
  left : LockId × Nat → Option ThreadId
  /-- The pipes that exist, with the number of bytes in them. -/
  fifos : ThreadId → Option Nat
  threads : ThreadId → Phase

/-- `sizeof(FIFO_SYNC_MESSAGE)`. -/
def messageSize : Nat := 4

namespace State

variable (state : State)

/-- A thread goes on to another phase. -/
def goes (thread : ThreadId) (phase : Phase) : State :=
  { state with threads := Function.update state.threads thread phase }

/-- A pipe comes to hold a number of bytes, or is removed. -/
def setFifo (id : ThreadId) (bytes : Option Nat) : State :=
  { state with fifos := Function.update state.fifos id bytes }

/-- `GetFiFo` of the owner. A pipe that cannot be opened after its creation is left behind. -/
def createFifo (id : ThreadId) (creation : Creation) : Except String Unit × State :=
  if state.fifos id = none then
    match creation with
    | .succeeds => (.ok (), state.setFifo id (some 0))
    | .quotaExceeded =>
      (.error ("Too many inodes opened, " ++
        "try to increase the max. number if you are on macOS."), state)
    | .mkfifoFails => (.error "Failed to create fifo: ", state)
    | .openFails => (.error "open of fifo failed: ", state.setFifo id (some 0))
  else
    (.error "Failed to create fifo: ", state)

/-- The holder of a mutex. -/
def owner : LockId → Option ThreadId
  | none => state.queueMutex
  | some mutex => state.mutexes mutex

/-- The thread that has locked the mutex of a process. -/
def localOwner (mutex : LockId) (process : Nat) : Option ThreadId :=
  (state.left (mutex, process)).or ((state.owner mutex).filter (state.process · == process))

/-- A thread comes to hold a mutex. -/
def takes (thread : ThreadId) : LockId → State
  | none => { state with queueMutex := some thread }
  | some mutex => { state with mutexes := Function.update state.mutexes mutex (some thread) }

/-- A thread leaves the mutex of its process locked. -/
def leaves (thread : ThreadId) (mutex : LockId) : State :=
  { state with
    left := Function.update state.left (mutex, state.process thread) (some thread) }

/-- `RobustMutex::lock`, the mutex of the process first and `flock` second, which may fail before
the lock is granted; `none` means that the thread is blocked. -/
def lock (thread : ThreadId) (mutex : LockId) (environment : Environment) :
    Option (Except String Unit × State) :=
  match state.localOwner mutex (state.process thread) with
  | some owner =>
    if owner = thread then
      some (.error "pthread_mutex_lock failed (EDEADLK), check your implementation", state)
    else
      none
  | none =>
    if environment.flocks = false then
      some (.error "flock failed with error -1", state.leaves thread mutex)
    else if state.owner mutex = none then
      some (.ok (), state.takes thread mutex)
    else
      none

/-- The next step of a thread inside a call; `none` means that the thread is blocked, or has no such
step. An `unlock` throws if its `flock` fails, and changes nothing then. -/
def advance (queue : Queue) (thread : ThreadId) (environment : Environment) : Option State :=
  match state.threads thread with
  | .outside => none
  | .lockingWait call =>
    match state.lock thread none environment with
    | none => none
    | some (.ok _, next) => some (next.goes thread (.creating call))
    | some (.error _, next) => some (next.goes thread .outside)
  | .creating call =>
    match state.createFifo thread environment.creation with
    | (.ok _, next) => some (next.goes thread (.pushing call))
    | (.error message, next) => some (next.goes thread (.unwinding (.thrown message)))
  | .pushing call =>
    match (queue.pushBack thread).perform (Run.new state.memory) with
    | (.ok _, run) =>
      some ({ state with memory := run.memory }.goes thread (.unlockingMutex call messageSize))
    | (.error message, _) => some (state.goes thread (.removing (.thrown message)))
  | .unlockingMutex call toRead =>
    if environment.flocks then
      some ({ state with mutexes := Function.update state.mutexes call.mutex none }.goes thread
        (.unlocking call toRead))
    else
      some (state.goes thread (.removing (.thrown "flock failed with error -1")))
  | .unlocking call toRead =>
    if environment.flocks then
      some ({ state with queueMutex := none }.goes thread (.reading call toRead))
    else
      some (state.goes thread (.removing (.thrown "flock failed with error -1")))
  | .reading call toRead =>
    match environment.read with
    | .bytes count =>
      if 0 < count ∧ count ≤ min ((state.fifos thread).getD 0) toRead then
        let next := state.setFifo thread ((state.fifos thread).map (· - count))
        if call.timed then
          some (next.goes thread (.relocking call toRead (some count)))
        else if 0 < toRead - count then
          some (next.goes thread (.reading call (toRead - count)))
        else
          some (next.goes thread (.relocking call 0 (some 0)))
      else
        none
    | .timeout =>
      if call.timed = true ∧ (state.fifos thread).getD 0 = 0 then
        some (state.goes thread (.relocking call toRead none))
      else
        none
    | .pollFails =>
      some (state.goes thread (.abandoning (.thrown "Unexpected error while polling: ")))
    | .readFails =>
      some (state.goes thread (.abandoning (.thrown "Unexpected error while reading from fifo: ")))
  | .relocking call toRead result =>
    match state.lock thread none environment with
    | none => none
    | some (.ok _, next) => some (next.goes thread (.relockingMutex call toRead result))
    | some (.error message, next) => some (next.goes thread (.abandoning (.thrown message)))
  | .relockingMutex call toRead result =>
    match state.lock thread (some call.mutex) environment with
    | none => none
    | some (.ok _, next) => some (next.goes thread (.relocked call toRead result))
    | some (.error message, next) => some (next.goes thread (.removing (.thrown message)))
  | .relocked call toRead result =>
    match result with
    | none => some (state.goes thread (.removing .timeout))
    | some count =>
      if 0 < toRead - count then
        some (state.goes thread (.unlockingMutex call (toRead - count)))
      else
        some (state.goes thread (.removing (if call.timed then .noTimeout else .returned)))
  | .removing outcome => some ((state.setFifo thread none).goes thread (.unwinding outcome))
  | .abandoning _ => some ((state.setFifo thread none).goes thread .outside)
  | .lockingNotify all =>
    match state.lock thread none environment with
    | none => none
    | some (.ok _, next) => some (next.goes thread (.notifying all))
    | some (.error _, next) => some (next.goes thread .outside)
  | .notifying all =>
    if 0 < state.memory.count then
      match (do
          let id ← Queue.front
          queue.pop
          return id : Operation ThreadId ThreadId).perform (Run.new state.memory) with
      | (.ok id, run) => some ({ state with memory := run.memory }.goes thread (.opening all id))
      | (.error message, _) => some (state.goes thread (.unwinding (.thrown message)))
    else
      some (state.goes thread (.unwinding .returned))
  | .opening all id =>
    if (state.fifos id).isSome = true ∧ environment.opens = true then
      some (state.goes thread (.writing all id))
    else
      some (state.goes thread (.unwinding (.thrown "open of fifo failed: ")))
  | .writing all id =>
    let next := if environment.writes then
      state.setFifo id ((state.fifos id).map (· + messageSize)) else state
    some (next.goes thread (if all then .notifying all else .unwinding .returned))
  | .unwinding _ => some ({ state with queueMutex := none }.goes thread .outside)

end State

/-- What happens next. -/
inductive Event
  /-- A thread locks or unlocks a mutex of the callers outside of the condition variable. -/
  | lockMutex (thread : ThreadId) (mutex : MutexId)
  | unlockMutex (thread : ThreadId) (mutex : MutexId)
  /-- A thread calls the condition variable, waits with the mutex held. -/
  | wait (thread : ThreadId) (call : WaitCall)
  | notify (thread : ThreadId) (all : Bool)
  | advance (thread : ThreadId) (environment : Environment)
  deriving DecidableEq

/-- The state after an event. -/
def State.step (queue : Queue) (state : State) : Event → Option State
  | .lockMutex thread mutex =>
    if state.threads thread = .outside ∧ state.mutexes mutex = none ∧
        state.left (some mutex, state.process thread) = none then
      some { state with mutexes := Function.update state.mutexes mutex (some thread) }
    else
      none
  | .unlockMutex thread mutex =>
    if state.threads thread = .outside ∧ state.mutexes mutex = some thread then
      some { state with mutexes := Function.update state.mutexes mutex none }
    else
      none
  | .wait thread call =>
    if state.threads thread = .outside ∧ state.mutexes call.mutex = some thread then
      some (state.goes thread (.lockingWait call))
    else
      none
  | .notify thread all =>
    if state.threads thread = .outside then
      some (state.goes thread (.lockingNotify all))
    else
      none
  | .advance thread environment => state.advance queue thread environment

/-- The objects of one name, from the construction of the owning one on, for thread ids of
`itemSize` bytes. -/
def conditionVariable (itemSize : Word32) : System State Event where
  initial state :=
    (∃ before constructed, (Queue.construct itemSize (128 * 1024) true).perform (Run.new before) =
      (.ok (threadQueue itemSize), constructed) ∧ constructed.memory = state.memory) ∧
    state.queueMutex = none ∧ (∀ mutex, state.mutexes mutex = none) ∧
    (∀ lock, state.left lock = none) ∧ ∀ thread, state.threads thread = .outside
  step := State.step (threadQueue itemSize)

end Azul.Ipc.Darwin
