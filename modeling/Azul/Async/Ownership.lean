import Azul.Async.Idle
import Mathlib.Logic.Relation

/-!
# Who keeps a callable alive

A shared state owns the closures in its list, and a closure that `Then` built owns the callable,
the state it derives, and the state it was attached to. So every stored closure is part of a cycle
until its list is cleared. The end of a promise clears the list of its state, but the states of
`WhenAll`, of `WhenAny` and of the executor's `WaitFor`, which is `WhenAll` over a vector, have no
promise: what was stored on them while they were undecided is never released. Nothing else keeps a
callable alive.
-/

namespace Azul.Async

open Foundation

variable {V ε X : Type} {h : Heap V ε} {P : Multiset (Instr V ε X)} {σ : Config V ε X}

/-- What owns, and is owned. -/
inductive OwnershipNode
  /-- A shared state. -/
  | state (s : StateId)
  /-- The closure that derives a state. -/
  | closure (d : StateId)
  /-- The callable of that closure. -/
  | callable (d : StateId)
  deriving DecidableEq

namespace Heap

variable (h)

/-- The ownership graph. -/
inductive Owns : OwnershipNode → OwnershipNode → Prop
  /-- An element of `_continuations`. -/
  | continuation {s d} (listed : d ∈ (h.cell s).continuations) : Owns (.state s) (.closure d)
  /-- The `copyOfThis` of a live closure. -/
  | copyOfThis {d s callable copy} (made : h.origin d = some (.derived s callable))
      (live : copy ∈ h.copies d) : Owns (.closure d) (.state s)
  /-- Its `promise`. -/
  | promise {d s callable copy} (made : h.origin d = some (.derived s callable))
      (live : copy ∈ h.copies d) : Owns (.closure d) (.state d)
  /-- Its `callable`. -/
  | callable {d s callable copy} (made : h.origin d = some (.derived s callable))
      (live : copy ∈ h.copies d) : Owns (.closure d) (.callable d)
  /-- The activator in the `func` of `WhenAll` and `WaitFor`. -/
  | activator {all d copy} (owner : .closure d copy ∈ h.owners all) :
    Owns (.callable d) (.state all)
  /-- The state in the `func` of `WhenAny`. -/
  | sharedFutureState {d s any copy} (made : h.origin d = some (.derived s (.fire any)))
      (live : copy ∈ h.copies d) : Owns (.callable d) (.state any)

/-- A cycle of owners keeps something alive. -/
def KeptByCycle (node : OwnershipNode) : Prop :=
  ∃ owner, Relation.TransGen h.Owns owner owner ∧ Relation.ReflTransGen h.Owns owner node

/-- Nothing is kept by a cycle, and no callable is left. -/
structure Released : Prop where
  acyclic : ∀ node, ¬ h.KeptByCycle node
  callables : ∀ d s callable, h.origin d = some (.derived s callable) → h.copies d = ∅

/-- `Then` stored closures on nothing but the futures of promises and of `Then`. -/
def StoredOnPromised : Prop :=
  ∀ d s callable, h.origin d = some (.derived s callable) → h.appended d = true → h.Promised s

end Heap

/-- The program is done: no call is in progress, and every promise has been destroyed. -/
structure Config.Done (σ : Config V ε X) : Prop where
  quiet : Quiet σ.pending
  destroyed : ∀ s, σ.heap.origin s = some .promise → σ.heap.destroyed s = true

namespace Inv

/-- When no call is in progress, only a list keeps a copy of a closure. -/
theorem copies_empty (inv : Inv h P) (quiet : Quiet P) {d s : StateId} {callable : Callable}
    (made : h.origin d = some (.derived s callable))
    (cleared : (h.cell s).continuations = []) : h.copies d = ∅ := by
  apply Finset.eq_empty_of_forall_notMem
  intro copy live
  have listed := (inv.copies_listed (quiet.untouched d) made live).2
  rw [cleared] at listed
  cases listed

/-- When all promises are gone, every list is empty on which nothing was stored but on behalf of a
promise or of `Then`. By induction on the order in which states were made. -/
theorem cleared (inv : Inv h P) (quiet : Quiet P)
    (destroyed : ∀ s, h.origin s = some .promise → h.destroyed s = true)
    (stored : h.StoredOnPromised) (s : StateId) : (h.cell s).continuations = [] := by
  induction s using Nat.strongRecOn with
  | _ s ih =>
    by_contra occupied
    obtain ⟨d, listed⟩ := List.exists_mem_of_ne_nil _ occupied
    obtain ⟨appended, callable, made⟩ := inv.layout.listed s d listed
    have retired : h.Retired s := by
      cases stored d s callable made appended with
      | inl promise => exact (Heap.retired_promise promise).mpr (destroyed s promise)
      | inr derived =>
        obtain ⟨antecedent, func, origin⟩ := derived
        have earlier := (inv.layout.originOk origin).1
        exact (Heap.retired_derived origin).mpr
          (inv.copies_empty quiet origin (ih antecedent earlier))
    exact occupied (inv.retired_cleared (quiet.untouched s) retired).2

/-- Without closures nothing owns anything. -/
theorem owns_nothing (inv : Inv h P) (quiet : Quiet P)
    (cleared : ∀ s, (h.cell s).continuations = []) {owner owned : OwnershipNode} :
    ¬ h.Owns owner owned := by
  have dead {d s : StateId} {callable : Callable} {copy : Copy}
      (made : h.origin d = some (.derived s callable)) : copy ∉ h.copies d := by
    rw [inv.copies_empty quiet made (cleared s)]
    exact Finset.notMem_empty copy
  intro owns
  cases owns with
  | continuation listed =>
    rw [cleared] at listed
    cases listed
  | copyOfThis made live | promise made live | callable made live | sharedFutureState made live =>
    exact dead made live
  | @activator all d copy owner =>
    obtain ⟨s, made⟩ := (inv.layout.owners all _ owner).2 d copy rfl
    cases inv.activators.alive all d copy owner with
    | inl live => exact dead made live
    | inr releasing => exact quiet.notMem rfl releasing

/-- A closure that was stored on the state of a combinator stays there, and keeps that state. -/
theorem stored_cycle (inv : Inv h P) {d s : StateId} {callable : Callable}
    (made : h.origin d = some (.derived s callable)) (appended : h.appended d = true)
    (combinator : ¬ h.Promised s) : h.KeptByCycle (.callable d) := by
  have listed : d ∈ (h.cell s).continuations := by
    cases inv.counts.kept d s callable made appended with
    | inl listed => exact listed
    | inr gone => exact absurd gone.1.promised combinator
  have live := inv.counts.listed_live made listed
  have stores : h.Owns (.state s) (.closure d) := .continuation listed
  have keeps : h.Owns (.closure d) (.state s) := .copyOfThis made live
  refine ⟨.state s, (Relation.TransGen.single stores).tail keeps, ?_⟩
  exact (Relation.ReflTransGen.single stores).tail (.callable made live)

end Inv

/-- When the program is done, everything has been released exactly if `Then` never stored a closure
on the future of a combinator. -/
theorem released_iff (reached : (runtime V ε X).Reachable σ) (done : σ.Done) :
    σ.heap.Released ↔ σ.heap.StoredOnPromised := by
  have inv := (Config.ok reached).inv
  constructor
  · intro released d s callable made appended
    by_contra combinator
    exact released.acyclic _ (inv.stored_cycle made appended combinator)
  · intro stored
    have cleared := inv.cleared done.quiet done.destroyed stored
    constructor
    · intro node kept
      obtain ⟨owner, cycle, _⟩ := kept
      obtain ⟨owned, owns, _⟩ := Relation.TransGen.head'_iff.mp cycle
      exact inv.owns_nothing done.quiet cleared owns
    · intro d s callable made
      exact inv.copies_empty done.quiet made (cleared s)

/-- A promise, and `WhenAll` of its future. -/
def combinedRun : List (Event Nat String Empty) :=
  [Event.call 0 (.newPromise false), Event.call 0 (.whenAll [0])] ++ List.replicate 8 (Event.run 0)

/-- The promise is completed, then something is attached to the combined future. -/
def attachedAfter : List (Event Nat String Empty) :=
  combinedRun ++ [Event.call 0 (.complete 0 (.ok (.val 5)))] ++ List.replicate 9 (Event.run 0) ++
    [Event.call 0 (.then 1 true)] ++ List.replicate 2 (Event.run 0) ++
    [Event.ret 0 (.ok .void)] ++ List.replicate 6 (Event.run 0) ++
    [Event.call 0 (.destroyPromise 0)] ++ List.replicate 7 (Event.run 0)

/-- Something is attached to the combined future, then the promise is completed. -/
def attachedBefore : List (Event Nat String Empty) :=
  combinedRun ++ [Event.call 0 (.then 1 true)] ++ List.replicate 3 (Event.run 0) ++
    [Event.call 0 (.complete 0 (.ok (.val 5)))] ++ List.replicate 7 (Event.run 0) ++
    [Event.ret 0 (.ok .void)] ++ List.replicate 6 (Event.run 0) ++
    [Event.call 0 (.destroyPromise 0)] ++ List.replicate 7 (Event.run 0)

theorem attachedRuns_replay :
    ((runtime Nat String Empty).replay (Config.start 1) attachedAfter).isSome = true ∧
      ((runtime Nat String Empty).replay (Config.start 1) attachedBefore).isSome = true := by
  decide +kernel

def releasedEnd : Config Nat String Empty := .after 1 attachedAfter attachedRuns_replay.1

def leakedEnd : Config Nat String Empty := .after 1 attachedBefore attachedRuns_replay.2

/-- Only promises that were made need be destroyed. -/
theorem Config.Ok.done (ok : σ.Ok) (still : Quiet σ.pending)
    (destroyed : ∀ s < σ.heap.next, σ.heap.origin s = some .promise →
      σ.heap.destroyed s = true) : σ.Done := by
  constructor
  · exact still
  · intro s made
    exact destroyed s (ok.inv.layout.promised_lt (Or.inl made)) made

/-- What was attached after the completion has been released. -/
theorem released_after : releasedEnd.heap.Released := by
  have reached : (runtime Nat String Empty).Reachable releasedEnd :=
    Config.reachable_after attachedRuns_replay.1
  have ok := Config.ok reached
  have done : releasedEnd.Done := ok.done (by decide +kernel) (by decide +kernel)
  refine (released_iff reached done).mpr ?_
  intro d s callable made appended
  have inputs : ∀ d < releasedEnd.heap.next, releasedEnd.heap.appended d = true →
      releasedEnd.heap.origin d = some (.derived 0 (.release 1)) := by
    decide +kernel
  rw [inputs d (ok.inv.layout.derived_lt ⟨s, callable, made⟩) appended] at made
  obtain ⟨antecedent, _⟩ := Origin.derived.inj (Option.some.inj made)
  rw [← antecedent]
  exact Or.inl (by decide +kernel)

/-- What was attached before keeps itself alive. -/
theorem leaked_before :
    ¬ ∀ σ : Config Nat String Empty, (runtime Nat String Empty).Reachable σ → σ.Done →
      σ.heap.Released := by
  intro claim
  have reached : (runtime Nat String Empty).Reachable leakedEnd :=
    Config.reachable_after attachedRuns_replay.2
  have done : leakedEnd.Done :=
    (Config.ok reached).done (by decide +kernel) (by decide +kernel)
  have left := (claim leakedEnd reached done).callables 3 1 .user (by decide +kernel)
  exact absurd left (by decide +kernel)

end Azul.Async
