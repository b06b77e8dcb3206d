import Azul.Async.RuntimeChange

/-!
# The runtime invariant

What holds of the heap and the pending instructions in every reachable state. Instructions are
counted rather than ordered: a copy of a closure is alive exactly when its one destructor or its
one list element is still there, a closure has been called once for every completing call that
walked past it, and every owner of an activator is released by something pending. Everything the
combinators promise follows from these counts.
-/

namespace Azul.Async

open Foundation

variable {V ε X : Type}

/-! ## Cells under update -/

namespace FutureState

variable {α ε κ : Type}

@[simp]
theorem continuations_complete (s : FutureState α ε κ) (result : Except (ExceptionPtr ε) α) :
    (s.complete result).continuations = s.continuations := by
  cases result <;> rfl

@[simp]
theorem continuations_breakPromise (s : FutureState α ε κ) :
    s.breakPromise.continuations = s.continuations := by
  unfold breakPromise
  split <;> rfl

@[simp]
theorem continuations_append (s : FutureState α ε κ) (continuation : κ) :
    (s.append continuation).continuations = s.continuations ++ [continuation] := rfl

@[simp]
theorem outcome_append (s : FutureState α ε κ) (continuation : κ) :
    (s.append continuation).outcome = s.outcome := rfl

variable {cell : StateId → FutureState α ε κ} {s t : StateId} {changed : FutureState α ε κ}

/-- The continuations after one cell changed. -/
theorem continuations_update : (Function.update cell s changed t).continuations =
    if t = s then changed.continuations else (cell t).continuations := by
  by_cases same : t = s
  · subst same
    simp
  · simp [same]

/-- A change of one cell that keeps its continuations keeps all continuations. -/
theorem continuations_update_same (same : changed.continuations = (cell s).continuations) :
    (Function.update cell s changed t).continuations = (cell t).continuations := by
  rw [continuations_update]
  split
  · subst t
    exact same
  · rfl

/-- The outcomes after one cell changed. -/
theorem outcome_update : (Function.update cell s changed t).outcome =
    if t = s then changed.outcome else (cell t).outcome := by
  by_cases same : t = s
  · subst same
    simp
  · simp [same]

/-- A change of one cell that keeps its outcome keeps all outcomes. -/
theorem outcome_update_same (same : changed.outcome = (cell s).outcome) :
    (Function.update cell s changed t).outcome = (cell t).outcome := by
  rw [outcome_update]
  split
  · subst t
    exact same
  · rfl

end FutureState

/-- A completing call leaves its result in the cell. -/
@[simp]
theorem outcome_complete (s : FutureState (Value V) ε StateId) (result : Result V ε) :
    (s.complete result).outcome = some result.outcome := by
  cases result <;> rfl

/-! ## Owners under update -/

section Owners

variable {α : Type} [DecidableEq α] {family : StateId → Finset α} {s t : StateId} {a b : α}

/-- Dropping an owner of one object removes that owner and no other. -/
theorem mem_update_erase : a ∈ Function.update family s ((family s).erase b) t ↔
    a ∈ family t ∧ ¬ (t = s ∧ a = b) := by
  by_cases same : t = s
  · subst same
    simp [and_comm]
  · simp [same]

/-- A new owner of one object joins the old ones. -/
theorem mem_update_insert : a ∈ Function.update family s (insert b (family s)) t ↔
    a ∈ family t ∨ (t = s ∧ a = b) := by
  by_cases same : t = s
  · subst same
    simp [or_comm]
  · simp [same]

/-- The owners that a copied callable adds to the activator it captures. -/
theorem mem_shared {callable : Callable} {owners old : Finset α} :
    (a ∈ if callable = .release s then owners ∪ old else old) ↔
      (callable = .release s ∧ a ∈ owners) ∨ a ∈ old := by
  by_cases same : callable = .release s <;> simp [same]

end Owners

/-! ## Kinds of instructions -/

namespace Instr

/-- The instruction is about to complete the state. -/
def decidesOn (s : StateId) : Instr V ε X → Bool
  | .setValue t _ | .resolve t _ | .setException t _ => t == s
  | _ => false

/-- The instruction is the loop of a completing call, before or at an index. -/
def walksTo (s : StateId) (index : Nat) : Instr V ε X → Bool
  | .walk t i => t == s && i ≤ index
  | _ => false

/-- The instruction belongs to the end of the promise of the state. -/
def destroys (s : StateId) : Instr V ε X → Bool
  | .aboutToDestroyPromise t | .clear t => t == s
  | _ => false

/-- The instruction is about to call a copy of a closure. -/
def isInvoke (d : StateId) (copy : Copy) : Instr V ε X → Bool
  | .invoke e c => e == d && c == copy
  | _ => false

/-- The instruction is a user callable. -/
def isInCallable (d : StateId) : Instr V ε X → Bool
  | .inCallable e => e == d
  | _ => false

/-- The instruction destroys a copy of a closure. -/
def isDestroy (d : StateId) (copy : Copy) : Instr V ε X → Bool
  | .destroyClosure e c => e == d && c == copy
  | _ => false

/-- The instruction registers a closure. -/
def isRegister (d : StateId) : Instr V ε X → Bool
  | .registerThen e => e == d
  | _ => false

/-- The instruction releases an owner of an activator. -/
def isRelease (all : StateId) (owner : Owner) : Instr V ε X → Bool
  | .releaseActivator w o => w == all && o == owner
  | _ => false

end Instr

namespace Heap

/-- Nothing has happened to a state that is not allocated. -/
structure Blank (h : Heap V ε) (s : StateId) : Prop where
  origin : h.origin s = none
  cell : h.cell s = FutureState.new
  copies : h.copies s = ∅
  owners : h.owners s = ∅
  destroyed : h.destroyed s = false
  received : h.received s = []
  invocations : h.invocations s = 0
  appended : h.appended s = false
  walks : h.walks s = 0

/-- A callable belongs to a combinator that reads the antecedent. -/
def CallableOk (h : Heap V ε) (s : StateId) : Callable → Prop
  | .user => True
  | .release all => ∃ inputs, h.origin all = some (.whenAll inputs) ∧ s ∈ inputs
  | .fire any => ∃ inputs, h.origin any = some (.whenAny inputs) ∧ s ∈ inputs

/-- States are made from states that were there before. -/
def OriginOk (h : Heap V ε) (s : StateId) : Origin → Prop
  | .promise => True
  | .derived antecedent callable => antecedent < s ∧ h.CallableOk antecedent callable ∧
      (callable ≠ .user → h.isVoid s = true)
  | .whenAll inputs | .whenAny inputs => h.isVoid s = true ∧ ∀ input ∈ inputs, input < s

/-- The state is derived by `Then` from an antecedent. -/
def Derived (h : Heap V ε) (d : StateId) : Prop :=
  ∃ antecedent callable, h.origin d = some (.derived antecedent callable)

/-- A `Promise` or the closure of `Then` holds the right to complete the state. -/
def Promised (h : Heap V ε) (s : StateId) : Prop := h.origin s = some .promise ∨ h.Derived s

/-- The last owner of the right to complete the state is gone or going. -/
def Retired (h : Heap V ε) (s : StateId) : Prop :=
  match h.origin s with
  | some .promise => h.destroyed s = true
  | some (.derived _ _) => h.copies s = ∅
  | _ => False

end Heap

/-- An instruction refers to states of the right kind. -/
def Instr.Typed (h : Heap V ε) : Instr V ε X → Prop
  | .setValue s value => (h.isVoid s = true → value = .void) ∧ s < h.next ∧ ¬ h.Derived s
  | .resolve s value => (h.isVoid s = true → value = .void) ∧ h.Derived s
  | .setException s _ => h.Promised s
  | .walk s _ => s < h.next
  | .aboutToDestroyPromise s | .clear s => h.Promised s
  | .invoke d copy => copy ≠ .lambda ∧ h.Derived d
  | .inCallable d => ∃ antecedent, h.origin d = some (.derived antecedent .user)
  | .destroyClosure d _ | .registerThen d => h.Derived d
  | .thenFunc s callable => s < h.next ∧ callable ≠ .user ∧ h.CallableOk s callable
  | .releaseActivator all owner => (∃ inputs, h.origin all = some (.whenAll inputs)) ∧
      ∀ d copy, owner = .closure d copy → ∃ s, h.origin d = some (.derived s (.release all))
  | .external _ => True

/-- The heap is laid out in order of allocation, and everything refers to what it should. -/
structure Layout (h : Heap V ε) (pending : Multiset (Instr V ε X)) : Prop where
  blank : ∀ s, h.next ≤ s → h.Blank s
  allocated : ∀ s, s < h.next → ∃ origin, h.origin s = some origin ∧ h.OriginOk s origin
  typed : ∀ x ∈ pending, x.Typed h
  listed : ∀ s, ∀ d ∈ (h.cell s).continuations,
    h.appended d = true ∧ ∃ callable, h.origin d = some (.derived s callable)
  nodup : ∀ s, (h.cell s).continuations.Nodup
  owners : ∀ all, ∀ owner ∈ h.owners all, (∃ inputs, h.origin all = some (.whenAll inputs)) ∧
    ∀ d copy, owner = .closure d copy → ∃ s, h.origin d = some (.derived s (.release all))

/-- Copies and calls of closures, counted. -/
structure Counts (h : Heap V ε) (pending : Multiset (Instr V ε X)) : Prop where
  /-- A live copy of a closure is destroyed by one pending destructor or one list element. -/
  copies : ∀ d s callable, h.origin d = some (.derived s callable) → ∀ copy,
    Stacks.count pending (Instr.isDestroy d copy) +
      (if copy = .listed then (h.cell s).continuations.count d else 0) =
      if copy ∈ h.copies d then 1 else 0
  /-- A stored closure is called once by every completing call that walks past it. -/
  stored : ∀ d s callable, h.origin d = some (.derived s callable) → h.appended d = true →
    h.invocations d + Stacks.count pending (Instr.isInvoke d .listed) +
      Stacks.count pending (Instr.walksTo s ((h.cell s).continuations.idxOf d)) = h.walks s ∧
    Stacks.count pending (Instr.isInvoke d .argument) = 0 ∧
    Stacks.count pending (Instr.isRegister d) = 0
  /-- A closure that was not stored is registered, and then called, once. -/
  inline : ∀ d s callable, h.origin d = some (.derived s callable) → h.appended d = false →
    h.invocations d + Stacks.count pending (Instr.isInvoke d .argument) +
      Stacks.count pending (Instr.isRegister d) = 1 ∧
    Stacks.count pending (Instr.isInvoke d .listed) = 0 ∧
    (h.Decided s ∨ Stacks.count pending (Instr.isRegister d) = 1)
  /-- Only storing a closure makes its listed copy. -/
  unlisted : ∀ d, h.appended d = false → .listed ∉ h.copies d
  /-- Only the end of the antecedent's promise removes a stored closure. -/
  kept : ∀ d s callable, h.origin d = some (.derived s callable) → h.appended d = true →
    d ∈ (h.cell s).continuations ∨ h.Retired s ∧ h.Decided s

/-- Completing calls, ends of promises and outcomes. -/
structure Decisions (h : Heap V ε) (pending : Multiset (Instr V ε X)) : Prop where
  destroying : ∀ x ∈ pending, ∀ s, x.destroys s = true → h.Retired s
  retired : ∀ s, h.Retired s → .aboutToDestroyPromise s ∈ pending ∨
    h.Decided s ∧ ((h.cell s).continuations = [] ∨ .clear s ∈ pending)
  clearing : ∀ s, .clear s ∈ pending → h.Decided s
  broken : ∀ s, h.outcome s = some .brokenPromise → h.Retired s ∧ h.walks s = 0
  unwalked : ∀ s, ¬ h.Decided s → h.walks s = 0
  walked : ∀ s o, h.outcome s = some o → o ≠ .brokenPromise → 0 < h.walks s
  walking : ∀ s index, .walk s index ∈ pending → 0 < h.walks s
  live : ∀ s, h.origin s = some .promise → ∀ x ∈ pending, x.completes s = true →
    h.destroyed s = false
  /-- Every result handed to a state is on its way or was walked at most once. -/
  receivedLe : ∀ s, h.Promised s →
    Stacks.count pending (Instr.decidesOn s) + h.walks s ≤ (h.received s).length
  receivedGe : ∀ s, h.Promised s → h.received s ≠ [] →
    0 < Stacks.count pending (Instr.decidesOn s) + h.walks s
  receivedPending : ∀ s, h.Promised s → ∀ result, h.received s = [result] →
    ∀ x ∈ pending, ∀ other, x.decision = some (s, other) → other = result
  receivedOutcome : ∀ s, h.Promised s → ∀ result, h.received s = [result] → 0 < h.walks s →
    h.outcome s = some result.outcome
  /-- Every call of a closure has handed over its result, or its callable is running. -/
  returned : ∀ d, h.Derived d → h.invocations d =
    (h.received d).length + Stacks.count pending (Instr.isInCallable d)
  /-- A combinator's state is never decided but by `SetValue`. -/
  combinator : ∀ s, ¬ h.Promised s → ∀ o, h.outcome s = some o → o = .value .void

/-- A combinator's state is decided or about to be. -/
def Firing (h : Heap V ε) (pending : Multiset (Instr V ε X)) (s : StateId) : Prop :=
  h.Decided s ∨ 0 < Stacks.count pending (Instr.decidesOn s)

/-- Who keeps the activator of a `WhenAll` alive, and what its end does. -/
structure Activators (h : Heap V ε) (pending : Multiset (Instr V ε X)) : Prop where
  locals : ∀ all inputs, h.origin all = some (.whenAll inputs) → ∀ owner,
    (∀ d copy, owner ≠ .closure d copy) →
    Stacks.count pending (Instr.isRelease all owner) = if owner ∈ h.owners all then 1 else 0
  alive : ∀ all d copy, .closure d copy ∈ h.owners all →
    copy ∈ h.copies d ∨ .releaseActivator all (.closure d copy) ∈ pending
  uncalled : ∀ all d, .closure d .listed ∈ h.owners all → h.appended d = true ∧
    (h.invocations d = 0 ∨ .releaseActivator all (.closure d .listed) ∈ pending)
  releasedLambda : ∀ all d, .releaseActivator all (.closure d .lambda) ∈ pending →
    .lambda ∉ h.copies d
  releasedListed : ∀ all d, .releaseActivator all (.closure d .listed) ∈ pending →
    h.appended d = true ∧ (.listed ∉ h.copies d ∨ 0 < h.invocations d)
  lambda : ∀ d s all, h.origin d = some (.derived s (.release all)) → .lambda ∈ h.copies d →
    .closure d .lambda ∈ h.owners all
  listed : ∀ d s all, h.origin d = some (.derived s (.release all)) →
    d ∈ (h.cell s).continuations → h.invocations d = 0 → .closure d .listed ∈ h.owners all
  /-- Only the end of the activator completes the state. -/
  fired : ∀ all inputs, h.origin all = some (.whenAll inputs) → Firing h pending all →
    h.owners all = ∅
  ended : ∀ all inputs, h.origin all = some (.whenAll inputs) → h.owners all = ∅ →
    Firing h pending all

/-- The closures that a combinator registers, and what they do to a `WhenAny`. -/
structure Registrations (h : Heap V ε) (pending : Multiset (Instr V ε X)) : Prop where
  all : ∀ all inputs, h.origin all = some (.whenAll inputs) → ∀ s ∈ inputs,
    .thenFunc s (.release all) ∈ pending ∨ ∃ d, h.origin d = some (.derived s (.release all))
  any : ∀ any inputs, h.origin any = some (.whenAny inputs) → ∀ s ∈ inputs,
    .thenFunc s (.fire any) ∈ pending ∨ ∃ d, h.origin d = some (.derived s (.fire any))
  fires : ∀ d s any, h.origin d = some (.derived s (.fire any)) → 0 < h.invocations d →
    Firing h pending any
  fired : ∀ any inputs, h.origin any = some (.whenAny inputs) → Firing h pending any →
    ∃ d s, h.origin d = some (.derived s (.fire any)) ∧ 0 < h.invocations d

/-- The runtime invariant. -/
structure Inv (h : Heap V ε) (pending : Multiset (Instr V ε X)) : Prop where
  layout : Layout h pending
  counts : Counts h pending
  decisions : Decisions h pending
  activators : Activators h pending
  registrations : Registrations h pending

/-- No completing call of a state is in progress once its promise is going. -/
def Exclusive (h : Heap V ε) (pending : Multiset (Instr V ε X)) : Prop :=
  ∀ x ∈ pending, ∀ s, x.completes s = true → ¬ h.Retired s

end Azul.Async
