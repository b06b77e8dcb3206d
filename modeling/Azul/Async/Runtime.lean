import Azul.Async.FutureState
import Azul.Foundation.Stacks
import Azul.Foundation.System
import Mathlib.Data.Finset.Basic
import Mathlib.Data.Finset.Insert

/-!
# The futures runtime

`Future::Then`, `Promise`, `WhenAll` and `WhenAny` as an interleaving machine. Every shared state
lives in a heap; every thread is a stack of pending instructions. One step is one critical section
under a `_mutex`, one look at the `_continuations` that a completing call walks, the start or the
end of one callable, or the release of one owner of a `std::shared_ptr`. Destructors are
instructions too: C++ runs them at scope exit, so they are scheduled when the scope is entered.

The program around the library is left open. A thread with nothing pending, inside a user callable,
or at an `external` instruction (code of some component above this one) may call the library at any
time; a component above this one restricts these events and nothing else.
-/

namespace Azul.Async

open Foundation

/-- The index of a shared state in the heap. -/
abbrev StateId := Nat

/-- A value of some `T`, or the absent value of a `Future<void>`. -/
inductive Value (V : Type)
  | void
  | val (value : V)
  deriving DecidableEq, Repr

instance {V : Type} : Inhabited (Value V) := ⟨.void⟩

/-- Whether a value is the absent one. -/
def Value.isVoid {V : Type} : Value V → Bool
  | .void => true
  | .val _ => false

/-- What a completing call hands to a state: a value or an exception. -/
abbrev Result (V ε : Type) := Except (ExceptionPtr ε) (Value V)

/-- The outcome that a result decides. -/
def Result.outcome {V ε : Type} : Result V ε → Outcome (Value V) ε
  | .ok value => .value value
  | .error error => .exception error

/-- A result fits a state: only a `FutureState<void>` is completed without a value. -/
def Result.fits {V ε : Type} (isVoid : Bool) : Result V ε → Bool
  | .ok value => value.isVoid == isVoid
  | .error _ => true

/-- The copies of the closure `continuation` that `Future::Then` makes: the local lambda, the
`std::function` argument of `FutureState::Then`, and the element of `_continuations`. -/
inductive Copy
  | lambda
  | argument
  | listed
  deriving DecidableEq, Repr

/-- The owners of the `sharedPromiseActivator` of a `WhenAll` call: its two locals, and every copy
of a closure whose callable is a copy of `func`. A closure is named by the state it derives. -/
inductive Owner
  | activatorVar
  | funcVar
  | closure (derived : StateId) (copy : Copy)
  deriving DecidableEq, Repr

/-- The callable a closure captures. -/
inductive Callable
  /-- A callable of the program. -/
  | user
  /-- `WhenAll`'s `func`: reset the captured activator of that `WhenAll` state. -/
  | release (all : StateId)
  /-- `WhenAny`'s `func`: `SetValue` on that `WhenAny` state. -/
  | fire (any : StateId)
  deriving DecidableEq, Repr

/-- Who made a shared state. -/
inductive Origin
  /-- The constructor of a `Promise`. -/
  | promise
  /-- `Future::Then`; its closure owns the state's promise and a copy of the antecedent future. -/
  | derived (antecedent : StateId) (callable : Callable)
  /-- `WhenAll`. -/
  | whenAll (inputs : List StateId)
  /-- `WhenAny`. -/
  | whenAny (inputs : List StateId)
  deriving DecidableEq, Repr

/-- What a thread still has to execute; `X` is code of a component above this one. -/
inductive Instr (V ε X : Type)
  /-- `FutureState::SetValue`, called by a promise, a `Disposer` or `WhenAny`'s `func`. -/
  | setValue (s : StateId) (value : Value V)
  /-- `promise->SetValue(result)` inside the `try` block of the closure of `s`. -/
  | resolve (s : StateId) (value : Value V)
  /-- `FutureState::SetException`. -/
  | setException (s : StateId) (error : ExceptionPtr ε)
  /-- The loop over `_continuations`, about to look at an index. -/
  | walk (s : StateId) (index : Nat)
  /-- `FutureState::AboutToDestroyPromise`. -/
  | aboutToDestroyPromise (s : StateId)
  /-- `_continuations.clear()`, about to look at the first remaining element. -/
  | clear (s : StateId)
  /-- A call of a copy of the closure that derives a state. -/
  | invoke (d : StateId) (copy : Copy)
  /-- The user callable of a closure is running. -/
  | inCallable (d : StateId)
  /-- The destructor of a copy of a closure. -/
  | destroyClosure (d : StateId) (copy : Copy)
  /-- `futures.Then(func)` inside a combinator. -/
  | thenFunc (s : StateId) (callable : Callable)
  /-- `_state->Then(continuation)` inside `Future::Then`. -/
  | registerThen (d : StateId)
  /-- An owner of an activator is reset or destroyed. -/
  | releaseActivator (all : StateId) (owner : Owner)
  /-- Code of a component above this one. -/
  | external (x : X)

/-- The shared states and what owns what; the last five fields are history that no instruction
reads. -/
structure Heap (V ε : Type) where
  /-- The number of states made so far. -/
  next : StateId
  /-- The shared states. -/
  cell : StateId → FutureState (Value V) ε StateId
  /-- Whether a state is a `FutureState<void>`. -/
  isVoid : StateId → Bool
  /-- Who made a state. -/
  origin : StateId → Option Origin
  /-- The owners of `futureStateAsPromise`: the live copies of the closure of a derived state. -/
  copies : StateId → Finset Copy
  /-- The owners of the activator of a `WhenAll` state. -/
  owners : StateId → Finset Owner
  /-- The destructor of the promise has begun. -/
  destroyed : StateId → Bool
  /-- The results handed to a state by completing calls that have begun, in order. -/
  received : StateId → List (Result V ε)
  /-- How often the closure of a derived state was called. -/
  invocations : StateId → Nat
  /-- `Then` found the antecedent undecided and stored the closure. -/
  appended : StateId → Bool
  /-- How many completing calls went on to walk the continuations. -/
  walks : StateId → Nat

namespace Heap

variable {V ε : Type}

/-- No states. -/
def empty : Heap V ε where
  next := 0
  cell _ := FutureState.new
  isVoid _ := false
  origin _ := none
  copies _ := ∅
  owners _ := ∅
  destroyed _ := false
  received _ := []
  invocations _ := 0
  appended _ := false
  walks _ := 0

/-- The outcome of a state. -/
abbrev outcome (h : Heap V ε) (s : StateId) : Option (Outcome (Value V) ε) := (h.cell s).outcome

/-- A state is decided. -/
def Decided (h : Heap V ε) (s : StateId) : Prop := h.outcome s ≠ none

instance (h : Heap V ε) (s : StateId) : Decidable (h.Decided s) :=
  inferInstanceAs (Decidable (¬ (h.cell s).outcome = none))

/-- `std::make_shared<detail::FutureState<T>>()`; the new state is `h.next`. -/
abbrev allocate (h : Heap V ε) (isVoid : Bool) (origin : Origin) : Heap V ε :=
  { h with
    next := h.next + 1
    isVoid := Function.update h.isVoid h.next isVoid
    origin := Function.update h.origin h.next (some origin) }

/-- A completing call has decided the state and goes on to walk its continuations. -/
abbrev decide (h : Heap V ε) (s : StateId) (cell : FutureState (Value V) ε StateId) : Heap V ε :=
  { h with
    cell := Function.update h.cell s cell
    walks := Function.update h.walks s (h.walks s + 1) }

/-- The critical section of `AboutToDestroyPromise`. -/
abbrev breakPromise (h : Heap V ε) (s : StateId) : Heap V ε :=
  { h with cell := Function.update h.cell s (h.cell s).breakPromise }

/-- `_continuations.clear()` has destroyed elements up to the remaining ones. -/
abbrev keepContinuations (h : Heap V ε) (s : StateId) (rest : List StateId) : Heap V ε :=
  { h with cell := Function.update h.cell s { h.cell s with continuations := rest } }

/-- Record a call of a closure. -/
abbrev countInvocation (h : Heap V ε) (d : StateId) : Heap V ε :=
  { h with invocations := Function.update h.invocations d (h.invocations d + 1) }

/-- Record a result handed to a state. -/
abbrev receive (h : Heap V ε) (s : StateId) (result : Result V ε) : Heap V ε :=
  { h with received := Function.update h.received s (h.received s ++ [result]) }

/-- A copy of a closure is gone, and with it an owner of the promise it captures. -/
abbrev dropCopy (h : Heap V ε) (d : StateId) (copy : Copy) : Heap V ε :=
  { h with copies := Function.update h.copies d ((h.copies d).erase copy) }

/-- The dropped copy was the last one. -/
def lastCopy (h : Heap V ε) (d : StateId) (copy : Copy) : Prop :=
  copy ∈ h.copies d ∧ (h.copies d).erase copy = ∅

instance (h : Heap V ε) (d : StateId) (copy : Copy) : Decidable (h.lastCopy d copy) :=
  inferInstanceAs (Decidable (copy ∈ h.copies d ∧ (h.copies d).erase copy = ∅))

/-- An owner of an activator is gone. -/
abbrev dropOwner (h : Heap V ε) (all : StateId) (owner : Owner) : Heap V ε :=
  { h with owners := Function.update h.owners all ((h.owners all).erase owner) }

/-- The dropped owner was the last one. -/
def lastOwner (h : Heap V ε) (all : StateId) (owner : Owner) : Prop :=
  owner ∈ h.owners all ∧ (h.owners all).erase owner = ∅

instance (h : Heap V ε) (all : StateId) (owner : Owner) : Decidable (h.lastOwner all owner) :=
  inferInstanceAs (Decidable (owner ∈ h.owners all ∧ (h.owners all).erase owner = ∅))

/-- A copied callable shares the activator of the original, if it captures one. -/
abbrev shareActivator (h : Heap V ε) (callable : Callable) (owners : Finset Owner) : Heap V ε :=
  { h with
    owners := fun all => if callable = .release all then owners ∪ h.owners all else h.owners all }

/-- The allocations of `Future::Then`: the derived state, its promise and the local closure, with
the copy of it that becomes the argument of `FutureState::Then`. -/
abbrev allocateThen (h : Heap V ε) (s : StateId) (callable : Callable) (isVoid : Bool) : Heap V ε :=
  shareActivator
    { h.allocate isVoid (.derived s callable) with
      copies := Function.update h.copies h.next {.lambda, .argument} }
    callable {.closure h.next .lambda, .closure h.next .argument}

/-- `FutureState::Then` has stored a copy of the closure. -/
abbrev storeClosure (h : Heap V ε) (s d : StateId) (callable : Callable)
    (cell : FutureState (Value V) ε StateId) : Heap V ε :=
  shareActivator
    { h with
      cell := Function.update h.cell s cell
      copies := Function.update h.copies d (insert .listed (h.copies d))
      appended := Function.update h.appended d true }
    callable {.closure d .listed}

/-- The critical section of `SetValue` in the class the state belongs to. -/
def setValue (h : Heap V ε) (s : StateId) (value : Value V) :
    Except (ExceptionPtr ε) (Option (FutureState (Value V) ε StateId)) :=
  if h.isVoid s then .ok ((h.cell s).setValueVoid .void)
  else ((h.cell s).setValue value).map some

end Heap

section Execution

variable {V ε X : Type}

/-- `Future::Then` after its allocations: register the closure, then leave the two scopes. -/
def Instr.thenCode (d : StateId) : List (Instr V ε X) :=
  [.registerThen d, .destroyClosure d .argument, .destroyClosure d .lambda]

/-- What destroying or calling a closure's callable releases. -/
def Heap.releaseCallable (h : Heap V ε) (d : StateId) (copy : Copy) : List (Instr V ε X) :=
  match h.origin d with
  | some (.derived _ (.release all)) => [.releaseActivator all (.closure d copy)]
  | _ => []

/-- Execute one instruction: the heap after it and the instructions it schedules. `inCallable` and
`external` instructions are the program's to continue. -/
def execute (h : Heap V ε) : Instr V ε X → Option (Heap V ε × List (Instr V ε X))
  | .setValue s value =>
    match h.setValue s value with
    | .error _ => some (h, [])
    | .ok none => some (h, [])
    | .ok (some cell) => some (h.decide s cell, [.walk s 0])
  | .resolve s value =>
    match h.setValue s value with
    | .error error => some (h, [.setException s error])
    | .ok none => some (h, [])
    | .ok (some cell) => some (h.decide s cell, [.walk s 0])
  | .setException s error => some (h.decide s ((h.cell s).setException error), [.walk s 0])
  | .walk s index =>
    match (h.cell s).continuations[index]? with
    | none => some (h, [])
    | some d => some (h, [.invoke d .listed, .walk s (index + 1)])
  | .aboutToDestroyPromise s => some (h.breakPromise s, [.clear s])
  | .clear s =>
    match (h.cell s).continuations with
    | [] => some (h, [])
    | d :: rest => some (h.keepContinuations s rest, [.destroyClosure d .listed, .clear s])
  | .invoke d copy =>
    match h.origin d with
    | some (.derived _ .user) => some (h.countInvocation d, [.inCallable d])
    | some (.derived _ (.release all)) =>
      some ((h.countInvocation d).receive d (.ok .void),
        [.releaseActivator all (.closure d copy), .resolve d .void])
    | some (.derived _ (.fire any)) =>
      some ((h.countInvocation d).receive d (.ok .void), [.setValue any .void, .resolve d .void])
    | _ => none
  | .destroyClosure d copy =>
    some (h.dropCopy d copy,
      (if h.lastCopy d copy then [.aboutToDestroyPromise d] else []) ++ h.releaseCallable d copy)
  | .thenFunc s callable => some (h.allocateThen s callable true, Instr.thenCode h.next)
  | .registerThen d =>
    match h.origin d with
    | some (.derived s callable) =>
      match (h.cell s).then d with
      | none => some (h, [.invoke d .argument])
      | some cell => some (h.storeClosure s d callable cell, [])
    | _ => none
  | .releaseActivator all owner =>
    some (h.dropOwner all owner, if h.lastOwner all owner then [.setValue all .void] else [])
  | .inCallable _ => none
  | .external _ => none

/-- A call of the library by the program. -/
inductive Api (V ε : Type)
  /-- The constructor of a `Promise`. -/
  | newPromise (isVoid : Bool)
  /-- `Promise::SetValue` or `Promise::SetException`. -/
  | complete (s : StateId) (result : Result V ε)
  /-- The destructor of a `Promise`. -/
  | destroyPromise (s : StateId)
  /-- `Future::Then` with a callable of the program. -/
  | then (s : StateId) (isVoid : Bool)
  /-- `WhenAll`. -/
  | whenAll (inputs : List StateId)
  /-- `WhenAny`. -/
  | whenAny (inputs : List StateId)

/-- Begin a call: the heap after the allocations that precede its first critical section, and its
code. Futures must be valid, promises must be promises, and values must have the promise's type. -/
def Heap.begin (h : Heap V ε) : Api V ε → Option (Heap V ε × List (Instr V ε X))
  | .newPromise isVoid => some (h.allocate isVoid .promise, [])
  | .complete s result =>
    if h.origin s = some .promise ∧ result.fits (h.isVoid s) then
      some (h.receive s result, match result with
        | .ok value => [.setValue s value]
        | .error error => [.setException s error])
    else none
  | .destroyPromise s =>
    if h.origin s = some .promise then
      some ({ h with destroyed := Function.update h.destroyed s true }, [.aboutToDestroyPromise s])
    else none
  | .then s isVoid =>
    if s < h.next then some (h.allocateThen s .user isVoid, Instr.thenCode h.next) else none
  | .whenAll inputs =>
    if ∀ s ∈ inputs, s < h.next then
      some ({ h.allocate true (.whenAll inputs) with
          owners := Function.update h.owners h.next {.activatorVar, .funcVar} },
        inputs.map (fun s => .thenFunc s (.release h.next)) ++
          [.releaseActivator h.next .funcVar, .releaseActivator h.next .activatorVar])
    else none
  | .whenAny inputs =>
    if ∀ s ∈ inputs, s < h.next then
      some (h.allocate true (.whenAny inputs),
        inputs.map fun s => .thenFunc s (.fire h.next))
    else none

/-- The heap and the threads. -/
structure Config (V ε X : Type) where
  /-- The heap. -/
  heap : Heap V ε
  /-- The stack of every thread. -/
  threads : List (List (Instr V ε X))

/-- What happens next: one thread makes one step. -/
inductive Event (V ε X : Type)
  /-- A thread executes its next instruction. -/
  | run (thread : Nat)
  /-- The user callable that a thread is running returns or throws. -/
  | ret (thread : Nat) (result : Result V ε)
  /-- Program code of a thread calls the library. -/
  | call (thread : Nat) (api : Api V ε)
  /-- Program code of a thread goes on to other program code, leaving its current piece or not. -/
  | enter (thread : Nat) (leave : Bool) (code : List X)

/-- Program code is in control of a thread: nothing is pending, or a callable or an external
component is. -/
def Instr.userLevel : List (Instr V ε X) → Bool
  | [] | .inCallable _ :: _ | .external _ :: _ => true
  | _ => false

namespace Config

/-- Replace the heap and the stack of one thread. -/
def update (σ : Config V ε X) (thread : Nat) (heap : Heap V ε) (stack : List (Instr V ε X)) :
    Config V ε X :=
  { heap := heap, threads := σ.threads.set thread stack }

/-- One step of the runtime. -/
def step (σ : Config V ε X) : Event V ε X → Option (Config V ε X)
  | .run thread =>
    match σ.threads[thread]? with
    | some (x :: rest) =>
      (execute σ.heap x).map fun (heap, new) => σ.update thread heap (new ++ rest)
    | _ => none
  | .ret thread result =>
    match σ.threads[thread]? with
    | some (.inCallable d :: rest) =>
      if result.fits (σ.heap.isVoid d) then
        some (σ.update thread (σ.heap.receive d result) ((match result with
          | .ok value => .resolve d value
          | .error error => .setException d error) :: rest))
      else none
    | _ => none
  | .call thread api =>
    match σ.threads[thread]? with
    | some stack =>
      if Instr.userLevel stack then
        (σ.heap.begin api).map fun (heap, new) => σ.update thread heap (new ++ stack)
      else none
    | none => none
  | .enter thread leave code =>
    match σ.threads[thread]?, leave with
    | some (.external _ :: rest), true =>
      some (σ.update thread σ.heap (code.map .external ++ rest))
    | some stack, false =>
      if Instr.userLevel stack then some (σ.update thread σ.heap (code.map .external ++ stack))
      else none
    | _, _ => none

/-- Some number of threads, nothing allocated, nothing pending. -/
def start (count : Nat) : Config V ε X := { heap := .empty, threads := List.replicate count [] }

/-- Everything that is still going to be executed. -/
def pending (σ : Config V ε X) : Multiset (Instr V ε X) := Stacks.pending σ.threads

end Config

end Execution

end Azul.Async
