import Azul.Async.RuntimeSteps

/-!
# Blocking calls

`Get`, `Wait` and `WaitFor` as a component above the runtime. One step is one time that a blocking
call holds `_mutex`: it looks at the state and returns or begins to wait, and after the wait it
looks once more or not at all. A wait on `_condition` ends by a notification, by its timeout, or
for no reason, and `wait_for` reports a timeout in any case if its deadline has passed when it
returns. The completing calls notify in the critical section in which they decide the state,
so a step of the runtime that does so wakes all threads that wait for that state.

`FutureState<void>` calls its `WaitFor` `wait_for`; otherwise the two classes agree.
-/

namespace Azul.Async

open Foundation

/-- The members of `FutureState` that block. -/
inductive BlockingCall
  | get
  | wait
  | waitFor
  deriving DecidableEq

/-- Where a thread is in one of them. -/
inductive BlockingCode
  /-- It is about to lock `_mutex`. -/
  | enter (call : BlockingCall) (s : StateId)
  /-- It is inside `_condition.wait` or `_condition.wait_for`. -/
  | blocked (call : BlockingCall) (s : StateId)
  deriving DecidableEq

/-- How the wait of a thread stands. -/
inductive Waiting
  | asleep
  /-- It was notified. -/
  | notified
  /-- It woke up for no reason. -/
  | spurious
  /-- Its time is over. -/
  | timeout
  deriving DecidableEq

/-- What a blocking call returns or throws. -/
inductive Returned (V ε : Type)
  | got (result : Result V ε)
  | waited
  | waitedFor (value : Bool)

/-- The end of a blocking call. -/
structure Return (V ε : Type) where
  s : StateId
  returned : Returned V ε
  /-- The state was decided when the call held `_mutex` for the last time. -/
  decided : Bool

/-- The runtime, and the threads that wait for it. -/
structure BlockingConfig (V ε : Type) where
  runtime : Config V ε BlockingCode
  /-- How the wait of a thread stands, if it is in one. -/
  waiting : Nat → Waiting
  /-- History: the calls that have ended. -/
  returns : List (Return V ε)

/-- What happens next. -/
inductive BlockingEvent (V ε : Type)
  /-- A step of the runtime. -/
  | runtime (event : Event V ε BlockingCode)
  /-- The program calls `Get`, `Wait` or `WaitFor`. -/
  | block (thread : Nat) (call : BlockingCall) (s : StateId)
  /-- The call locks `_mutex`. -/
  | look (thread : Nat)
  /-- A wait ends without a notification. -/
  | wake (thread : Nat) (timeout : Bool)
  /-- The thread has locked `_mutex` again, before or after the deadline of its wait. -/
  | resume (thread : Nat) (late : Bool)

variable {V ε : Type}

/-- The first look at the state; `none` when the call waits. -/
def BlockingCall.look (cell : FutureState (Value V) ε StateId) :
    BlockingCall → Option (Returned V ε)
  | .get => cell.get.map .got
  | .wait => if cell.state = .undefined then none else some .waited
  | .waitFor => if cell.state = .undefined then none else some (.waitedFor true)

/-- What follows a wait; `none` when the call waits again. -/
def BlockingCall.resume (cell : FutureState (Value V) ε StateId) (waiting : Waiting)
    (late : Bool) : BlockingCall → Option (Returned V ε)
  | .get => cell.get.map .got
  | .wait => some .waited
  | .waitFor => some (.waitedFor (waiting ≠ .timeout ∧ late = false))

/-- The state whose `_condition` an instruction notifies. -/
def Instr.notifies {X : Type} (h : Heap V ε) : Instr V ε X → Option StateId
  | .setValue s value | .resolve s value =>
    match h.setValue s value with
    | .ok (some _) => some s
    | _ => none
  | .setException s _ | .aboutToDestroyPromise s => some s
  | _ => none

namespace BlockingConfig

variable (σ : BlockingConfig V ε)

/-- The blocking call that a thread is in. -/
def top (thread : Nat) : Option BlockingCode :=
  match σ.runtime.threads[thread]? with
  | some (.external code :: _) => some code
  | _ => none

/-- A thread waits for a state. -/
def waitsFor (thread : Nat) (s : StateId) : Bool :=
  match σ.top thread with
  | some (.blocked _ t) => t == s
  | _ => false

/-- The condition that a step of the runtime notifies. -/
def notifies : Event V ε BlockingCode → Option StateId
  | .run thread =>
    match σ.runtime.threads[thread]? with
    | some (x :: _) => x.notifies σ.runtime.heap
    | _ => none
  | _ => none

/-- `notify_all`. -/
def notifyAll (notified : Option StateId) (thread : Nat) : Waiting :=
  if σ.waiting thread = .asleep ∧ notified.any (σ.waitsFor thread) = true then .notified
  else σ.waiting thread

/-- A thread in a blocking call makes no calls, and the calls have steps of their own. -/
def allows : Event V ε BlockingCode → Bool
  | .call thread _ => (σ.top thread).isNone
  | .enter _ _ _ => false
  | .run _ | .ret _ _ => true

/-- A blocking call goes on to other code of it. -/
def go (thread : Nat) (code : List BlockingCode) (waiting : Waiting)
    (returns : List (Return V ε)) : Option (BlockingConfig V ε) :=
  (σ.runtime.step (.enter thread true code)).map fun runtime =>
    { runtime := runtime
      waiting := Function.update σ.waiting thread waiting
      returns := σ.returns ++ returns }

/-- A blocking call waits, or returns. -/
def proceed (thread : Nat) (call : BlockingCall) (s : StateId) :
    Option (Returned V ε) → Option (BlockingConfig V ε)
  | none => σ.go thread [.blocked call s] .asleep []
  | some returned =>
    σ.go thread [] (σ.waiting thread)
      [{ s := s, returned := returned, decided := (σ.runtime.heap.cell s).isReady }]

/-- One step. -/
def step : BlockingEvent V ε → Option (BlockingConfig V ε)
  | .runtime event =>
    if Disciplined σ.runtime event ∧ σ.allows event = true then
      (σ.runtime.step event).map fun runtime =>
        { σ with runtime := runtime, waiting := σ.notifyAll (σ.notifies event) }
    else none
  | .block thread call s =>
    if σ.top thread = none ∧ s < σ.runtime.heap.next then
      (σ.runtime.step (.enter thread false [.enter call s])).map fun runtime =>
        { σ with runtime := runtime }
    else none
  | .look thread =>
    match σ.top thread with
    | some (.enter call s) => σ.proceed thread call s (call.look (σ.runtime.heap.cell s))
    | _ => none
  | .wake thread timeout =>
    match σ.top thread with
    | some (.blocked call _) =>
      if σ.waiting thread = .asleep ∧ (timeout = true → call = .waitFor) then
        some { σ with
          waiting :=
            Function.update σ.waiting thread (if timeout then .timeout else .spurious) }
      else none
    | _ => none
  | .resume thread late =>
    match σ.top thread with
    | some (.blocked call s) =>
      if σ.waiting thread = .asleep then none
      else σ.proceed thread call s
        (call.resume (σ.runtime.heap.cell s) (σ.waiting thread) late)
    | _ => none

/-- Some number of threads, nothing allocated, nothing pending. -/
def start (count : Nat) : BlockingConfig V ε where
  runtime := .start count
  waiting _ := .asleep
  returns := []

end BlockingConfig

/-- A program with any number of threads that complete promises and wait for futures. -/
def blockingSystem (V ε : Type) : System (BlockingConfig V ε) (BlockingEvent V ε) where
  initial σ := ∃ count, σ = .start count
  step := BlockingConfig.step

end Azul.Async
