import Azul.Async.PoolHistory
import Azul.Compute.OpenClComputeExecutor

/-!
# Launches on a running pool

`OpenClComputeExecutor::Execute` as a component above the thread pool. Its loop submits one task per
chunk through `StaticThreadPool::Execute`, and `WaitFor` joins the futures of the chunks: it is
`WhenAll` over a vector. The callable of a chunk is the loop of its lambda, which calls the kernel;
the kernel is the program's, and may do there what the program may do in any callable, launch again
included.

`workItemsPerTask`, `i` and `taskResults` are locals of `Execute`. They advance here in the step in
which the pool makes the task of the chunk, so that it is known from its start which chunk a task
is. `ThreadCount` only reads a number that never changes; a pool without threads is a division by
zero, so nothing is launched there.
-/

namespace Azul.Compute

open Azul.Foundation Azul.Async

variable {w : Nat} {V ε : Type}

/-- One call of `Execute`. -/
structure Launch (w : Nat) where
  /-- The arguments. -/
  work : WorkSize w
  /-- The variable of the loop. -/
  i : SizeT w
  /-- The lambdas submitted so far. -/
  tasks : List (Task w)
  /-- `taskResults`. -/
  taskResults : List StateId
  /-- The state of the future that `WaitFor` returns. -/
  future : Option StateId

namespace Launch

/-- `Execute` is about to test the condition of its loop for the first time. -/
def new (work : WorkSize w) : Launch w :=
  { work := work, i := 0, tasks := [], taskResults := [], future := none }

/-- `workItemsPerTask`. -/
def workItemsPerTask (threadCount : SizeT w) (launch : Launch w) : SizeT w :=
  stdMax (launch.work.workItems / threadCount) 1

/-- The lambda of this turn of the loop. -/
def task (threadCount : SizeT w) (launch : Launch w) : Task w :=
  launch.work.task launch.i
    (stdMin (launch.workItemsPerTask threadCount) (launch.work.workItems - launch.i))

/-- The lambda was submitted; its future is in `taskResults`, and the loop goes on. -/
def submitted (threadCount : SizeT w) (launch : Launch w) (promise : StateId) : Launch w :=
  { launch with
    i := launch.i + launch.workItemsPerTask threadCount
    tasks := launch.tasks ++ [launch.task threadCount]
    taskResults := launch.taskResults ++ [promise] }

end Launch

/-- The lambda of a chunk as the callable of its task. -/
structure Chunk (w : Nat) where
  /-- The launch, by its position. -/
  launch : Nat
  /-- The lambda. -/
  task : Task w
  /-- The variable of its loop. -/
  j : SizeT w
  /-- The kernel is running, with this `global_index`. -/
  kernel : Option (GlobalIndex w)
  /-- The `global_index` of all calls of the kernel so far. -/
  invoked : List (GlobalIndex w)
  /-- The `global_index` of the calls that returned normally. -/
  returned : List (GlobalIndex w)

namespace Chunk

/-- A lambda that was not called. -/
def new (launch : Nat) (task : Task w) : Chunk w :=
  { launch := launch, task := task, j := task.start, kernel := none, invoked := [], returned := [] }

/-- The condition of the loop. -/
def continues (chunk : Chunk w) : Prop := chunk.j < chunk.task.start + chunk.task.count

instance (chunk : Chunk w) : Decidable chunk.continues :=
  inferInstanceAs (Decidable (_ < _))

/-- The kernel is called. -/
def call (chunk : Chunk w) (globalIndex : GlobalIndex w) : Chunk w :=
  { chunk with kernel := some globalIndex, invoked := chunk.invoked ++ [globalIndex] }

/-- The kernel has returned normally, and the loop goes on. -/
def next (chunk : Chunk w) (globalIndex : GlobalIndex w) : Chunk w :=
  { chunk with j := chunk.j + 1, kernel := none, returned := chunk.returned ++ [globalIndex] }

/-- The kernel has thrown, out of the lambda. -/
def thrown (chunk : Chunk w) : Chunk w := { chunk with kernel := none }

end Chunk

/-- What a thread does next in `OpenClComputeExecutor::Execute`. -/
inductive Phase
  /-- Test the condition of the loop. -/
  | submit
  /-- It is in `_executor->Execute(task)`, which has not made the task yet. -/
  | execute
  /-- It is in `WaitFor`. -/
  | waitFor
  deriving DecidableEq, Repr

/-- A thread is in `OpenClComputeExecutor::Execute`. -/
structure Frame where
  /-- The launch, by its position. -/
  launch : Nat
  /-- The length of the stack when nothing is called from `Execute`. -/
  height : Nat
  phase : Phase
  deriving DecidableEq, Repr

/-- A pool and the launches on it. -/
structure LaunchConfig (w : Nat) (V ε : Type) where
  /-- The pool and the runtime. -/
  pool : PoolConfig V ε
  /-- `global_index` of every thread. -/
  globalIndex : Nat → GlobalIndex w
  /-- All launches begun so far. -/
  launches : List (Launch w)
  /-- The launch that a thread is in. -/
  frames : Nat → Option Frame
  /-- The lambdas of tasks, by the promise of the task. -/
  chunks : StateId → Option (Chunk w)

/-- What happens next in a program that launches kernels. -/
inductive LaunchEvent (w : Nat) (V ε : Type)
  /-- A step of the pool, or of the program. -/
  | pool (event : PoolEvent V ε)
  /-- The program calls `OpenClComputeExecutor::Execute`. -/
  | execute (thread : Nat) (work : WorkSize w)
  /-- A thread goes on in `OpenClComputeExecutor::Execute`. -/
  | go (thread : Nat)
  /-- A thread goes on in the lambda of a chunk. -/
  | kernel (thread : Nat)
  /-- The kernel returns or throws. -/
  | kernelReturn (thread : Nat) (thrown : Option (ExceptionPtr ε))

/-- `ThreadCount`. -/
def threadCount (w workers : Nat) : SizeT w := BitVec.ofNat w workers

namespace LaunchConfig

variable (workers : Nat) (σ : LaunchConfig w V ε)

/-- `Execute` is in control of a thread: nothing that it called is running. -/
def control (thread : Nat) : Option Frame :=
  (σ.frames thread).filter fun frame =>
    σ.pool.runtime.threads[thread]?.map List.length == some frame.height

/-- The lambda of a chunk is on top of a thread. -/
def chunkAt (thread : Nat) : Option (StateId × Chunk w) :=
  match σ.pool.runtime.threads[thread]? with
  | some (.external (.func task) :: _) =>
    (σ.chunks task.promise).map fun chunk => (task.promise, chunk)
  | _ => none

/-- Neither `Execute` nor the lambda of a chunk is in control of a thread. -/
def isFree (thread : Nat) : Bool :=
  (σ.control thread).isNone && (σ.chunkAt thread).all fun (_, chunk) => chunk.kernel.isSome

/-- Events that are not up to the pool need a thread where neither `Execute` nor a chunk is in
control; the callable of a chunk ends only as its loop does. -/
def allows : PoolEvent V ε → Bool
  | .run _ _ => true
  | .ret thread _ => (σ.control thread).isNone
  | .call thread _ | .execute thread _ _ | .destroy thread => σ.isFree thread
  | .funcReturn thread _ => (σ.control thread).isNone && (σ.chunkAt thread).isNone

/-- A thread is about to make the task of a chunk. -/
def submitting (thread : Nat) : Option (Frame × Launch w) :=
  match σ.frames thread, σ.pool.runtime.threads[thread]? with
  | some frame, some (.external (.makeTask _ _ _) :: base) =>
    if frame.phase = .execute ∧ base.length = frame.height then
      σ.launches[frame.launch]?.map fun launch => (frame, launch)
    else none
  | _, _ => none

/-- The task of a chunk was made, with this promise. -/
def submitted (thread : Nat) (frame : Frame) (launch : Launch w) (promise : StateId) :
    LaunchConfig w V ε :=
  { σ with
    launches := σ.launches.set frame.launch (launch.submitted (threadCount w workers) promise)
    frames := Function.update σ.frames thread (some { frame with phase := .submit })
    chunks := Function.update σ.chunks promise
      (some (.new frame.launch (launch.task (threadCount w workers)))) }

/-- What an event of the pool means for the launches. -/
def recorded : PoolEvent V ε → LaunchConfig w V ε
  | .run thread _ =>
    match σ.submitting thread with
    | some (frame, launch) => σ.submitted workers thread frame launch σ.pool.runtime.heap.next
    | none => σ
  | _ => σ

/-- A step of the pool, after which the rest is as given. -/
def withPool (event : PoolEvent V ε) (rest : LaunchConfig w V ε) : Option (LaunchConfig w V ε) :=
  (σ.pool.step workers event).map fun pool => { rest with pool := pool }

/-- The next step of `Execute`. -/
def go (thread : Nat) (frame : Frame) (launch : Launch w) : Option (LaunchConfig w V ε) :=
  match frame.phase with
  | .submit =>
    if launch.i < launch.work.workItems then
      σ.withPool workers (.execute thread true [])
        { σ with
          frames := Function.update σ.frames thread (some { frame with phase := .execute }) }
    else
      σ.withPool workers (.call thread (.whenAll launch.taskResults))
        { σ with
          launches := σ.launches.set frame.launch
            { launch with future := some σ.pool.runtime.heap.next }
          frames := Function.update σ.frames thread (some { frame with phase := .waitFor }) }
  | .execute => none
  | .waitFor => some { σ with frames := Function.update σ.frames thread none }

/-- The next step of the lambda of a chunk: set the ids and call the kernel, or return. -/
def kernel (thread : Nat) (promise : StateId) (chunk : Chunk w) : Option (LaunchConfig w V ε) :=
  if chunk.continues then
    let globalIndex := chunk.task.setIds chunk.j (σ.globalIndex thread)
    some { σ with
      globalIndex := Function.update σ.globalIndex thread globalIndex
      chunks := Function.update σ.chunks promise (some (chunk.call globalIndex)) }
  else σ.withPool workers (.funcReturn thread (.ok .void)) σ

/-- The end of a call of the kernel. -/
def kernelReturn (thread : Nat) (promise : StateId) (chunk : Chunk w)
    (globalIndex : GlobalIndex w) : Option (ExceptionPtr ε) → Option (LaunchConfig w V ε)
  | none =>
    some { σ with chunks := Function.update σ.chunks promise (some (chunk.next globalIndex)) }
  | some error =>
    σ.withPool workers (.funcReturn thread (.error error))
      { σ with chunks := Function.update σ.chunks promise (some chunk.thrown) }

/-- One step of a program that launches kernels. -/
def step : LaunchEvent w V ε → Option (LaunchConfig w V ε)
  | .pool event =>
    if σ.allows event then σ.withPool workers event (σ.recorded workers event) else none
  | .execute thread work =>
    match σ.pool.runtime.threads[thread]? with
    | some stack =>
      if σ.isFree thread ∧ σ.pool.inProgram workers thread ∧ σ.frames thread = none ∧
          threadCount w workers ≠ 0 then
        some { σ with
          launches := σ.launches ++ [.new work]
          frames := Function.update σ.frames thread
            (some { launch := σ.launches.length, height := stack.length, phase := .submit }) }
      else none
    | none => none
  | .go thread =>
    (σ.control thread).bind fun frame =>
      σ.launches[frame.launch]?.bind fun launch => σ.go workers thread frame launch
  | .kernel thread =>
    match σ.control thread, σ.chunkAt thread with
    | none, some (promise, chunk) =>
      if chunk.kernel = none then σ.kernel workers thread promise chunk else none
    | _, _ => none
  | .kernelReturn thread thrown =>
    match σ.control thread, σ.chunkAt thread with
    | none, some (promise, chunk) =>
      chunk.kernel.bind fun globalIndex =>
        σ.kernelReturn workers thread promise chunk globalIndex thrown
    | _, _ => none

/-- The pool was constructed, nothing was launched. -/
def start (outside : Nat) : LaunchConfig w V ε where
  pool := .start workers outside
  globalIndex _ _ := 0
  launches := []
  frames _ := none
  chunks _ := none

end LaunchConfig

/-- A program that launches kernels on a pool. -/
def launchSystem (w : Nat) (V ε : Type) (workers : Nat) :
    System (LaunchConfig w V ε) (LaunchEvent w V ε) where
  initial σ := ∃ outside, σ = LaunchConfig.start workers outside
  step := LaunchConfig.step workers

end Azul.Compute
