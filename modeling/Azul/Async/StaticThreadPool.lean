import Azul.Async.RuntimeReachable

/-!
# The thread pool

`StaticThreadPool` and `Task` as a component above the futures runtime: its code is the runtime's
external code, and everything that it does to futures goes through the runtime's calls. One step is
one statement that the rest of the program can observe: an acquisition or release of `_mutex`, one
look of `NextTask` at an element of `_tasks`, the start and the end of a callable, one notification,
one `join`, one task that is destroyed.

The worker threads are the first ones, all other threads belong to the program. The program may
call the library and `Execute` from its own threads and from inside any callable, and destroys the
pool once. A wait on `_condition` may end at any time, by a notification, by its timeout or
spuriously. A `std::shared_ptr` to a task is held by the list or by the local of one worker; the
local of `Execute` is gone before the list can lose the task, as both happen under `_mutex`.
-/

namespace Azul.Async

open Foundation

/-- A `Task`, named by the state of its promise. -/
structure Task where
  /-- `_promise`. -/
  promise : StateId
  /-- `_dependency`, if it is valid. -/
  dependency : Option StateId
  /-- History: the futures that `Execute` was called with. -/
  dependencies : List StateId
  deriving DecidableEq, Repr

/-- What a thread still has to execute of the pool's member functions, by the statement it is at. -/
inductive PoolCode
  /-- `Execute` is about to lock. -/
  | execute (isVoid : Bool) (dependencies : List StateId)
  /-- `Execute` evaluates `WhenAll(dependencies...)`. -/
  | whenAll (isVoid : Bool) (dependencies : List StateId)
  /-- `Execute` constructs the task. -/
  | makeTask (isVoid : Bool) (dependencies : List StateId) (dependency : StateId)
  /-- The temporary `std::function` that the task was constructed from is destroyed, and with it its
  own copy of what the callable captured; `_tasks.emplace_back(newTask)` and the notification. -/
  | emplaceBack (task : Task)
  /-- `Execute` returns the future and unlocks. -/
  | getFuture (promise : StateId)
  /-- `ThreadLoop` is about to lock. -/
  | threadLoop
  /-- The condition of the loop. -/
  | loop
  /-- `NextTask` is about to look at an element. -/
  | nextTask (index : Nat)
  /-- A task was taken; `lock.unlock()`. -/
  | unlock (task : Task)
  /-- `task->operator()()` is about to call the callable. -/
  | call (task : Task)
  /-- The callable is running. -/
  | func (task : Task)
  /-- `lock.lock()`. -/
  | relock (task : Task)
  /-- The loop of notifications, one for each continuation of the task: another task that waits for
  it, or what the program has attached by `Then`. -/
  | notify (task : Task) (index : Nat)
  /-- The local `task` goes out of scope. -/
  | release (task : Task)
  /-- `if (!task && !_shutdownInitiated)`. -/
  | noTask
  /-- Inside `_condition.wait_for`. -/
  | waitFor
  /-- `ShutdownNotifyThreads` is about to lock. -/
  | shutdownNotifyThreads
  /-- `ShutdownJoinThreads` is about to join a thread. -/
  | shutdownJoinThreads (index : Nat)
  /-- `_tasks.clear()`, about to look at the first remaining element. -/
  | shutdownDestroyRemainingTasks
  deriving DecidableEq, Repr

/-- The data members of a pool; the last five fields are history that no step reads but to admit
the calls of the program. -/
structure Pool (V ε : Type) where
  /-- The thread that holds `_mutex`. -/
  mutex : Option Nat
  /-- The threads that `_condition` has not woken. -/
  sleeping : Finset Nat
  /-- `_tasks`. -/
  tasks : List Task
  /-- `_shutdownInitiated`. -/
  shutdownInitiated : Bool
  /-- The destructor was entered. -/
  destroying : Bool
  /-- The destructor has returned. -/
  destroyed : Bool
  /-- All tasks whose promise was constructed. -/
  made : List Task
  /-- How often the callable of a task was invoked. -/
  invocations : StateId → Nat
  /-- What the callable of a task returned or threw. -/
  results : StateId → Option (Result V ε)

variable {V ε : Type}

/-- `TaskBase::IsReady`. -/
def Task.isReady (task : Task) (h : Heap V ε) : Bool :=
  match task.dependency with
  | none => true
  | some dependency => (h.cell dependency).isReady

namespace Pool

/-- A pool after its constructor. -/
def new : Pool V ε where
  mutex := none
  sleeping := ∅
  tasks := []
  shutdownInitiated := false
  destroying := false
  destroyed := false
  made := []
  invocations _ := 0
  results _ := none

variable (pool : Pool V ε)

/-- Acquire `_mutex`. -/
def lock (thread : Nat) : Option (Pool V ε) :=
  if pool.mutex = none then some { pool with mutex := some thread } else none

/-- Release `_mutex`. -/
def unlock : Pool V ε := { pool with mutex := none }

/-- `_condition.notify_one()`: some waiting thread is woken, if there is one. -/
def notifyOne (woken : Nat) : Option (Pool V ε) :=
  if pool.sleeping = ∅ ∨ woken ∈ pool.sleeping then
    some { pool with sleeping := pool.sleeping.erase woken }
  else none

/-- Execute one statement: the pool after it, the code that replaces the statement, and the call of
the library that runs before that code. A callable is the program's to end. -/
def run (h : Heap V ε) (finished : Nat → Bool) (workers thread woken : Nat) :
    PoolCode → Option (Pool V ε × List PoolCode × Option (Api V ε))
  | .execute isVoid dependencies =>
    (pool.lock thread).map fun pool => (pool, [.whenAll isVoid dependencies], none)
  | .whenAll isVoid dependencies =>
    some (pool, [.makeTask isVoid dependencies h.next], some (.whenAll dependencies))
  | .makeTask isVoid dependencies dependency =>
    let task : Task :=
      { promise := h.next, dependency := some dependency, dependencies := dependencies }
    some ({ pool with made := pool.made ++ [task] }, [.emplaceBack task], some (.newPromise isVoid))
  | .emplaceBack task =>
    (pool.notifyOne woken).map fun pool =>
      ({ pool with tasks := pool.tasks ++ [task] }, [.getFuture task.promise], none)
  | .getFuture _ => some (pool.unlock, [], none)
  | .threadLoop => (pool.lock thread).map fun pool => (pool, [.loop], none)
  | .loop =>
    if pool.shutdownInitiated then some (pool.unlock, [], none)
    else some (pool, [.nextTask 0], none)
  | .nextTask index =>
    match pool.tasks[index]? with
    | none => some (pool, [.noTask], none)
    | some task =>
      if task.isReady h then
        some ({ pool with tasks := pool.tasks.eraseIdx index }, [.unlock task], none)
      else some (pool, [.nextTask (index + 1)], none)
  | .unlock task => some (pool.unlock, [.call task], none)
  | .call task =>
    some ({ pool with
        invocations :=
          Function.update pool.invocations task.promise (pool.invocations task.promise + 1) },
      [.func task], none)
  | .func _ => none
  | .relock task => (pool.lock thread).map fun pool => (pool, [.notify task 0], none)
  | .notify task index =>
    if index < min (h.cell task.promise).numberOfContinuations workers then
      (pool.notifyOne woken).map fun pool => (pool, [.notify task (index + 1)], none)
    else some (pool, [.release task], none)
  | .release task => some (pool, [.loop], some (.destroyPromise task.promise))
  | .noTask =>
    if pool.shutdownInitiated then some (pool, [.loop], none)
    else some ({ pool.unlock with sleeping := insert thread pool.sleeping }, [.waitFor], none)
  | .waitFor =>
    if thread ∈ pool.sleeping then
      some ({ pool with sleeping := pool.sleeping.erase thread }, [.waitFor], none)
    else (pool.lock thread).map fun pool => (pool, [.loop], none)
  | .shutdownNotifyThreads =>
    (pool.lock thread).map fun pool =>
      ({ pool.unlock with shutdownInitiated := true, sleeping := ∅ }, [.shutdownJoinThreads 0],
        none)
  | .shutdownJoinThreads index =>
    if index < workers then
      if finished index then some (pool, [.shutdownJoinThreads (index + 1)], none) else none
    else some (pool, [.shutdownDestroyRemainingTasks], none)
  | .shutdownDestroyRemainingTasks =>
    match pool.tasks with
    | [] => some ({ pool with destroyed := true }, [], none)
    | task :: rest =>
      some ({ pool with tasks := rest }, [.shutdownDestroyRemainingTasks],
        some (.destroyPromise task.promise))

end Pool

/-- The runtime and the pool. -/
structure PoolConfig (V ε : Type) where
  /-- The heap and the threads. -/
  runtime : Config V ε PoolCode
  /-- The pool. -/
  pool : Pool V ε

/-- What happens next in a program with a pool. -/
inductive PoolEvent (V ε : Type)
  /-- A thread goes on; `woken` is the thread that a notification wakes. -/
  | run (thread woken : Nat)
  /-- A callable attached by `Then` returns or throws. -/
  | ret (thread : Nat) (result : Result V ε)
  /-- The program calls the library. -/
  | call (thread : Nat) (api : Api V ε)
  /-- The program calls `Execute`. -/
  | execute (thread : Nat) (isVoid : Bool) (dependencies : List StateId)
  /-- The callable of a task returns or throws. -/
  | funcReturn (thread : Nat) (result : Result V ε)
  /-- The program destroys the pool. -/
  | destroy (thread : Nat)

/-- The promise that a call completes or destroys. -/
def Api.promise : Api V ε → Option StateId
  | .complete s _ | .destroyPromise s => some s
  | _ => none

/-- The code belongs to `Execute`. -/
def PoolCode.isExecute : PoolCode → Bool
  | .execute _ _ | .whenAll _ _ | .makeTask _ _ _ | .emplaceBack _ | .getFuture _ => true
  | _ => false

/-- The pool's code that an instruction is. -/
def Instr.code : Instr V ε PoolCode → Option PoolCode
  | .external c => some c
  | _ => none

namespace PoolConfig

variable (workers : Nat) (σ : PoolConfig V ε)

/-- The program is in control of a thread: one of its own that is between calls, or any that runs a
callable. -/
def inProgram (thread : Nat) : Bool :=
  match σ.runtime.threads[thread]? with
  | some [] => workers ≤ thread
  | some (.inCallable _ :: _) | some (.external (.func _) :: _) => true
  | _ => false

/-- A thread has returned from its function. -/
def finished (thread : Nat) : Bool :=
  match σ.runtime.threads[thread]? with
  | some [] => true
  | _ => false

/-- No thread of the program is inside `Execute`. -/
def noExecute : Prop :=
  ∀ stack ∈ σ.runtime.threads.drop workers, ∀ c ∈ stack.filterMap Instr.code, c.isExecute = false

instance : Decidable (σ.noExecute workers) :=
  inferInstanceAs (Decidable (∀ stack ∈ σ.runtime.threads.drop workers,
    ∀ c ∈ stack.filterMap Instr.code, c.isExecute = false))

/-- Put the next code of the pool on a thread, in place of the statement on top or above whatever
is there, and begin the library call that runs before it. -/
def perform (thread : Nat) (leave : Bool) (pool : Pool V ε) (code : List PoolCode)
    (api : Option (Api V ε)) : Option (PoolConfig V ε) :=
  (σ.runtime.step (.enter thread leave code)).bind fun entered =>
    (match api with
      | none => some entered
      | some api => entered.step (.call thread api)).map fun runtime =>
        { runtime := runtime, pool := pool }

/-- One step of a program with a pool. The program may not complete or destroy the promises of
tasks, which it never sees, enters `Execute` on its own threads only before the destructor, and
enters the destructor once, on a thread of its own and with no `Execute` in progress on one. -/
def step : PoolEvent V ε → Option (PoolConfig V ε)
  | .run thread woken =>
    match σ.runtime.threads[thread]? with
    | some (.external code :: _) =>
      (σ.pool.run σ.runtime.heap σ.finished workers thread woken code).bind
        fun (pool, next, api) => σ.perform thread true pool next api
    | _ => (σ.runtime.step (.run thread)).map fun runtime => { σ with runtime := runtime }
  | .ret thread result =>
    (σ.runtime.step (.ret thread result)).map fun runtime => { σ with runtime := runtime }
  | .call thread api =>
    if σ.inProgram workers thread ∧ Disciplined σ.runtime (.call thread api) ∧
        ∀ s ∈ api.promise, s ∉ σ.pool.made.map Task.promise then
      (σ.runtime.step (.call thread api)).map fun runtime => { σ with runtime := runtime }
    else none
  | .execute thread isVoid dependencies =>
    if σ.inProgram workers thread ∧ (thread < workers ∨ σ.pool.destroying = false) then
      σ.perform thread false σ.pool [.execute isVoid dependencies] none
    else none
  | .funcReturn thread result =>
    match σ.runtime.threads[thread]? with
    | some (.external (.func task) :: _) =>
      σ.perform thread true
        { σ.pool with results := Function.update σ.pool.results task.promise (some result) }
        [.relock task] (some (.complete task.promise result))
    | _ => none
  | .destroy thread =>
    if σ.inProgram workers thread ∧ workers ≤ thread ∧ σ.pool.destroying = false ∧
        σ.noExecute workers then
      σ.perform thread false { σ.pool with destroying := true } [.shutdownNotifyThreads] none
    else none

/-- The workers are about to start, the program has some number of threads. -/
def start (outside : Nat) : PoolConfig V ε where
  runtime :=
    { heap := .empty
      threads := List.replicate workers [.external .threadLoop] ++ List.replicate outside [] }
  pool := .new

end PoolConfig

/-- A program with a pool of any number of workers. -/
def poolSystem (V ε : Type) (workers : Nat) : System (PoolConfig V ε) (PoolEvent V ε) where
  initial σ := ∃ outside, σ = PoolConfig.start workers outside
  step := PoolConfig.step workers

end Azul.Async
