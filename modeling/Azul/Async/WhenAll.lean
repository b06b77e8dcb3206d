import Azul.Async.WhenAllCode

/-!
# `WhenAll` waits for all its inputs

The state of a `WhenAll` is completed when the last owner of its activator is gone. While an input
is undecided some owner is left: the locals of the running call, the local closure of a running
`Then`, or the closure that the input lists. Once all inputs are decided and nothing is pending,
no list holds a closure that was not called, so no owner is left.
-/

namespace Azul.Async

open Foundation

variable {V ε X : Type} {σ : Config V ε X}

namespace Config.Ok

/-- A pending instruction finds in its own thread what it needs. -/
theorem needs (ok : σ.Ok) {x : Instr V ε X} (inside : x ∈ σ.pending) :
    σ.heap.needs x (· ∈ σ.pending) := by
  obtain ⟨stack, member, held⟩ := Stacks.mem_pending.mp inside
  exact Heap.needs_grow x _ _ (fun y below => Stacks.mem_pending.mpr ⟨stack, member, below⟩)
    ((ok.nested stack member).needs Heap.needs_grow held)

/-- While a closure that shares an ended activator exists, its antecedent is decided. -/
theorem released_decided (ok : σ.Ok) {d s all : StateId}
    (made : σ.heap.origin d = some (.derived s (.release all))) (gone : σ.heap.owners all = ∅) :
    σ.heap.Decided s := by
  have inv := ok.inv
  by_cases stored : σ.heap.appended d = true
  · rcases inv.counts.kept d s _ made stored with listed | ⟨-, decided⟩
    · by_contra undecided
      have never := inv.decisions.unwalked s undecided
      have walked := (inv.counts.stored d s _ made stored).1
      have held := inv.activators.listed d s all made listed (by omega)
      simp [gone] at held
    · exact decided
  · rcases (inv.counts.inline d s _ made (by simpa using stored)).2.2 with decided | registering
    · exact decided
    · obtain ⟨x, inside, registers⟩ :=
        Stacks.count_pos.mp (registering ▸ Nat.one_pos : 0 < Stacks.count σ.pending _)
      have pending : Instr.registerThen d ∈ σ.pending := by
        cases x <;> simp only [Instr.isRegister, beq_iff_eq, Bool.false_eq_true] at registers
        exact registers ▸ inside
      have live := inv.counts.copy_live made (ok.needs pending).2
      have held := inv.activators.lambda d s all made live
      simp [gone] at held

/-- The state of a `WhenAll` is undecided while an input is. -/
theorem whenAll_inputs (ok : σ.Ok) {all : StateId} {inputs : List StateId}
    (made : σ.heap.origin all = some (.whenAll inputs)) (decided : σ.heap.Decided all)
    {s : StateId} (input : s ∈ inputs) : σ.heap.Decided s := by
  have gone := ok.inv.activators.fired all inputs made (Or.inl decided)
  rcases ok.inv.registrations.all all inputs made s input with pending | ⟨d, derived⟩
  · have held := ok.inv.activators.local_held made (by simp) (ok.needs pending all rfl)
    simp [gone] at held
  · exact ok.released_decided derived gone

/-- When nothing is pending and all inputs are decided, the state of a `WhenAll` is ready. -/
theorem whenAll_decided (ok : σ.Ok) (quiet : Quiet σ.pending) {all : StateId}
    {inputs : List StateId} (made : σ.heap.origin all = some (.whenAll inputs))
    (decided : ∀ s ∈ inputs, σ.heap.Decided s) :
    σ.heap.outcome all = some (.value .void) := by
  have unserved (x : Instr V ε X) (inside : x ∈ σ.pending) : ¬ x.serves σ.heap all := by
    have outside := quiet x inside
    cases x with
    | external => exact id
    | _ => cases outside
  have unvisited (s : StateId) (_ : s ∈ inputs) (x : Instr V ε X) (inside : x ∈ σ.pending) :
      ¬ x.visits s := by
    have outside := quiet x inside
    cases x with
    | external => exact id
    | _ => cases outside
  have fired := ok.inv.whenAll_fired made unserved unvisited decided
  obtain ⟨o, outcome⟩ := Option.ne_none_iff_exists'.mp fired
  rw [outcome, ok.inv.decisions.combinator all (Heap.not_promised_whenAll made) o outcome]

end Config.Ok

/-- In every reachable configuration the future of a `WhenAll` is undecided while an input is, and
whenever no call is in progress and all inputs are decided it is ready, with no exception. -/
theorem whenAll_ready (reached : (runtime V ε X).Reachable σ) {all : StateId}
    {inputs : List StateId} (made : σ.heap.origin all = some (.whenAll inputs)) :
    (σ.heap.Decided all → ∀ s ∈ inputs, σ.heap.Decided s) ∧
    (Quiet σ.pending → (∀ s ∈ inputs, σ.heap.Decided s) →
      σ.heap.outcome all = some (.value .void)) :=
  have ok := Config.ok reached
  ⟨fun decided _ input => ok.whenAll_inputs made decided input,
    fun quiet decided => ok.whenAll_decided quiet made decided⟩

/-- A `WhenAll` of no futures is ready when it returns. -/
example : ((runtime Nat String Empty).replay (Config.start 1)
    (Event.call 0 (.whenAll []) :: List.replicate 4 (Event.run 0))).map
      (fun σ => σ.heap.outcome 0) = some (some (.value .void)) := by
  decide +kernel

/-- `WhenAll` of two promises, one of them twice; one is completed, the other destroyed. -/
def whenAllRun : List (Event Nat String Empty) :=
  [Event.call 0 (.newPromise false), Event.call 0 (.newPromise true),
      Event.call 0 (.whenAll [0, 1, 0])] ++ List.replicate 20 (Event.run 0) ++
    [Event.call 0 (.complete 0 (.ok (.val 5)))] ++ List.replicate 12 (Event.run 0) ++
    [Event.call 0 (.destroyPromise 1)] ++ List.replicate 9 (Event.run 0)

/-- The run can be replayed. -/
theorem whenAllRun_replays :
    ((runtime Nat String Empty).replay (Config.start 1) whenAllRun).isSome = true := by
  decide +kernel

/-- The run ends with a ready `WhenAll`. -/
theorem whenAllRun_ready :
    (Config.after 1 whenAllRun whenAllRun_replays).heap.outcome 2 = some (.value .void) :=
  have made : (Config.after 1 whenAllRun whenAllRun_replays).heap.origin 2 =
      some (.whenAll [0, 1, 0]) := by decide +kernel
  (whenAll_ready (Config.reachable_after whenAllRun_replays) made).2 (by decide +kernel)
    (by decide +kernel)

end Azul.Async
