import Azul.Async.BlockingWaits
import Azul.Async.Ownership
import Azul.Async.WhenAll

/-!
# Nobody stays blocked

When every promise has been completed or destroyed and no call is in progress, every future that
was made from them with `Then` and `WhenAll` is decided: a continuation that was not called was
destroyed with the promise of the future it was attached to, and took the promise of its own future
with it. Whoever waits has been woken by the step that decided the state.
-/

namespace Azul.Async

open Foundation

variable {V ε X : Type} {σ : Config V ε X}

/-- Every promise has been completed or destroyed. -/
def Heap.PromisesEnded (h : Heap V ε) : Prop :=
  ∀ s, h.origin s = some .promise → h.received s ≠ [] ∨ h.destroyed s = true

/-- Nothing was combined with `WhenAny`. -/
def Heap.WithoutWhenAny (h : Heap V ε) : Prop :=
  ∀ s inputs, h.origin s ≠ some (.whenAny inputs)

namespace Config.Ok

/-- Between calls a promise that was completed or destroyed is decided. -/
theorem promise_decided (ok : σ.Ok) (quiet : Quiet σ.pending) {s : StateId}
    (made : σ.heap.origin s = some .promise)
    (ended : σ.heap.received s ≠ [] ∨ σ.heap.destroyed s = true) : σ.heap.Decided s := by
  cases ended with
  | inl completed =>
    have walked := ok.inv.received_walked (quiet.idle s) (Or.inl made) completed
    exact (ok.inv.walked_iff.mp walked).1
  | inr destroyed =>
    exact (ok.inv.retired_cleared (quiet.untouched s) ((Heap.retired_promise made).mpr destroyed)).1

/-- Between calls a future is decided if the one it was derived from is. -/
theorem derived_decided (ok : σ.Ok) (quiet : Quiet σ.pending) {d s : StateId} {callable : Callable}
    (made : σ.heap.origin d = some (.derived s callable)) (decided : σ.heap.Decided s) :
    σ.heap.Decided d := by
  have derived : σ.heap.Derived d := ⟨s, callable, made⟩
  have returned := ok.inv.decisions.returned d derived
  rw [(quiet.idle d).count_inCallable, Nat.add_zero] at returned
  by_cases called : σ.heap.invocations d = 0
  · -- the closure was stored and never called, so it ended with the promise of its antecedent
    have calls := ok.inv.called (quiet.idle d) (quiet.idle s) made
    have broken : σ.heap.outcome s = some .brokenPromise := by
      by_contra unbroken
      have walked := ok.inv.walked_iff.mpr ⟨decided, unbroken⟩
      rw [called] at calls
      split_ifs at calls
      omega
    have retired := (ok.inv.decisions.broken s broken).1
    have cleared := (ok.inv.retired_cleared (quiet.untouched s) retired).2
    have gone := (Heap.retired_derived made).mpr (ok.inv.copies_empty quiet made cleared)
    exact (ok.inv.retired_cleared (quiet.untouched d) gone).1
  · have received : σ.heap.received d ≠ [] := by
      intro none
      rw [none] at returned
      exact called returned
    have walked := ok.inv.received_walked (quiet.idle d) (Or.inr derived) received
    exact (ok.inv.walked_iff.mp walked).1

/-- When all promises have ended, every future is decided. By induction on the order in which they
were made. -/
theorem all_decided (ok : σ.Ok) (quiet : Quiet σ.pending) (all : σ.heap.WithoutWhenAny)
    (ended : σ.heap.PromisesEnded) (s : StateId) (made : s < σ.heap.next) : σ.heap.Decided s := by
  induction s using Nat.strongRecOn with
  | _ s ih =>
    obtain ⟨origin, is, fine⟩ := ok.inv.layout.allocated s made
    cases origin with
    | promise => exact ok.promise_decided quiet is (ended s is)
    | derived antecedent callable =>
      have earlier := fine.1
      exact ok.derived_decided quiet is (ih antecedent earlier (Nat.lt_trans earlier made))
    | whenAll inputs =>
      have decided (input : StateId) (inside : input ∈ inputs) : σ.heap.Decided input :=
        ih input (fine.2 input inside) (Nat.lt_trans (fine.2 input inside) made)
      intro none
      rw [ok.whenAll_decided quiet is decided] at none
      cases none
    | whenAny inputs => exact absurd is (all s inputs)

end Config.Ok

/-- In every reachable configuration in which every promise has been completed or destroyed and no
call is in progress, every future built with `Then` and `WhenAll` is decided, and no thread waits
that has not been notified or woken otherwise. -/
theorem nobody_stays_blocked {σ : BlockingConfig V ε} (reached : (blockingSystem V ε).Reachable σ)
    (all : σ.runtime.heap.WithoutWhenAny) (ended : σ.runtime.heap.PromisesEnded)
    (quiet : Quiet σ.runtime.pending) :
    (∀ s < σ.runtime.heap.next, σ.runtime.heap.Decided s) ∧
      ∀ thread call s, σ.top thread = some (.blocked call s) → σ.waiting thread ≠ .asleep := by
  have ok := BlockingConfig.ok reached
  have decided := (Config.ok ok.reached).all_decided quiet all ended
  constructor
  · exact decided
  · intro thread call s top asleep
    exact ok.asleep thread call s top asleep (decided s (ok.valid thread _ top))

/-- A thread waits in `Get` for the combined future of a promise, which is then completed. -/
def combinedWait : List (BlockingEvent Nat String) :=
  [BlockingEvent.runtime (.call 0 (.newPromise false)),
      BlockingEvent.runtime (.call 0 (.whenAll [0]))] ++
    List.replicate 8 (BlockingEvent.runtime (.run 0)) ++
    [BlockingEvent.block 1 .get 1, BlockingEvent.look 1,
      BlockingEvent.runtime (.call 0 (.complete 0 (.ok (.val 5))))] ++
    List.replicate 9 (BlockingEvent.runtime (.run 0))

theorem combinedWait_replays :
    ((blockingSystem Nat String).replay (.start 2) combinedWait).isSome = true := by
  decide +kernel

def combinedEnd : BlockingConfig Nat String :=
  ((blockingSystem Nat String).replay (.start 2) combinedWait).get combinedWait_replays

/-- The combined future is decided, and the thread does not sleep any more. -/
theorem nobody_stays_blocked_combined :
    combinedEnd.runtime.heap.Decided 1 ∧ combinedEnd.top 1 = some (.blocked .get 1) ∧
      combinedEnd.waiting 1 ≠ .asleep := by
  have starts : (blockingSystem Nat String).initial (.start 2) := ⟨2, rfl⟩
  have reached : (blockingSystem Nat String).Reachable combinedEnd :=
    System.Reachable.of_replay starts combinedWait_replays
  have layout := (Config.ok (BlockingConfig.ok reached).reached).inv.layout
  have all : combinedEnd.runtime.heap.WithoutWhenAny := by
    intro s inputs made
    by_cases old : s < combinedEnd.runtime.heap.next
    · have others : ∀ s < combinedEnd.runtime.heap.next,
          combinedEnd.runtime.heap.origin s ∈ [some .promise, some (.whenAll [0]),
            some (.derived 0 (.release 1))] := by
        decide +kernel
      have found := others s old
      rw [made] at found
      simp at found
    · rw [(layout.blank s (Nat.le_of_not_lt old)).origin] at made
      cases made
  have ended : combinedEnd.runtime.heap.PromisesEnded := by
    intro s made
    have old := layout.promised_lt (Or.inl made)
    have received : ∀ s < combinedEnd.runtime.heap.next,
        combinedEnd.runtime.heap.origin s = some .promise →
          (combinedEnd.runtime.heap.received s).isEmpty = false := by
      decide +kernel
    left
    intro none
    have some := received s old made
    rw [none] at some
    cases some
  have blocked : combinedEnd.top 1 = some (.blocked .get 1) := by decide +kernel
  have nobody := nobody_stays_blocked reached all ended (by decide +kernel)
  exact ⟨nobody.1 1 (by decide +kernel), blocked, nobody.2 1 .get 1 blocked⟩

end Azul.Async
