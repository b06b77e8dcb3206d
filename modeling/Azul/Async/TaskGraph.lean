import Azul.Async.TaskOrder
import Azul.Async.TaskResults
import Azul.Foundation.DependencyGraph

/-!
# Graphs of tasks

A program that calls `Execute` with futures of earlier calls, and whose callables are functions of
the outcomes of these futures. However the calls are scheduled, what a callable returns respects
its place in the graph; so the futures hold what an evaluation of the calls in their order gives.
An exception is an outcome like a value: it makes the tasks that depend on it ready.
-/

namespace Azul.Async

open Foundation

variable {V ε : Type}

/-- A call of `Execute`, by the earlier calls whose futures it passes. -/
structure Submission (V ε : Type) where
  /-- The positions of these calls. -/
  dependencies : List Nat
  /-- What the callable makes of their outcomes. -/
  callable : List (Outcome (Value V) ε) → Result V ε

/-- The outcome of a call as a function of outcomes. -/
def Submission.node (call : Submission V ε) : Node (Outcome (Value V) ε) where
  dependencies := call.dependencies
  value outcomes := (call.callable outcomes).outcome

/-- Tasks come from calls of `Execute`, in their order. -/
def SubmittedBy (calls : List (Submission V ε)) (made : List Task) : Prop :=
  ∀ (i : Nat) (task : Task), made[i]? = some task →
    ∃ call : Submission V ε, calls[i]? = some call ∧
      call.dependencies.map (fun j => (made.take i)[j]?.map Task.promise) =
        task.dependencies.map some

namespace PoolConfig

/-- The task whose callable is in control of a thread. -/
def inCallable (σ : PoolConfig V ε) (thread : Nat) : Option Task :=
  match σ.runtime.threads[thread]? with
  | some (.external (.func task) :: _) => some task
  | _ => none

/-- `Execute` is called with futures of tasks that were made before, and a callable returns what its
call makes of the outcomes of these futures. -/
def Runs (calls : List (Submission V ε)) (σ : PoolConfig V ε) : PoolEvent V ε → Prop
  | .funcReturn thread result => ∀ task ∈ σ.inCallable thread, ∀ i < σ.pool.made.length,
    σ.pool.made[i]? = some task → ∀ call ∈ calls[i]?,
      result = call.callable (task.dependencies.filterMap σ.runtime.heap.outcome)
  | event => σ.Submits event

instance [DecidableEq V] [DecidableEq ε] (calls : List (Submission V ε)) (σ : PoolConfig V ε) :
    (event : PoolEvent V ε) → Decidable (σ.Runs calls event)
  | .funcReturn thread result =>
    inferInstanceAs (Decidable (∀ task ∈ σ.inCallable thread, ∀ i < σ.pool.made.length,
      σ.pool.made[i]? = some task → ∀ call ∈ calls[i]?,
        result = call.callable (task.dependencies.filterMap σ.runtime.heap.outcome)))
  | .execute thread isVoid dependencies =>
    inferInstanceAs (Decidable (σ.Submits (.execute thread isVoid dependencies)))
  | .run _ _ | .ret _ _ | .call _ _ | .destroy _ => inferInstanceAs (Decidable True)

/-- The callable of a task has ended, and so has the call that completes its future. -/
def HasEnded (σ : PoolConfig V ε) (task : Task) : Prop :=
  (σ.pool.results task.promise).isSome = true ∧
    ∀ x ∈ σ.runtime.pending, x.completes task.promise = false

/-- The outcomes of the callables that have ended, by the positions of their tasks. -/
def returned (σ : PoolConfig V ε) (i : Nat) : Option (Outcome (Value V) ε) :=
  (σ.pool.made[i]?.bind fun task => σ.pool.results task.promise).map Result.outcome

variable {workers : Nat} {σ σ' : PoolConfig V ε} {event : PoolEvent V ε} {task : Task}
  {calls : List (Submission V ε)} {i : Nat}

/-- What `Runs` allows respects what `Submits` does. -/
theorem Runs.submits (runs : σ.Runs calls event) : σ.Submits event := by
  cases event with
  | funcReturn => trivial
  | _ => exact runs

theorem returned_iff {a : Outcome (Value V) ε} : σ.returned i = some a ↔
    ∃ task result, σ.pool.made[i]? = some task ∧ σ.pool.results task.promise = some result ∧
      result.outcome = a := by
  constructor
  · intro returned
    obtain ⟨result, bound, same⟩ := Option.map_eq_some_iff.mp returned
    obtain ⟨task, found, result⟩ := Option.bind_eq_some_iff.mp bound
    exact ⟨task, _, found, result, same⟩
  · intro returned
    obtain ⟨task, result, found, ended, same⟩ := returned
    unfold PoolConfig.returned
    rw [found, Option.bind_some, ended, Option.map_some, same]

namespace Stepped

/-- Tasks keep their positions. -/
theorem made_get (stepped : Stepped workers σ σ' event) (found : σ.pool.made[i]? = some task) :
    σ'.pool.made[i]? = some task := by
  cases stepped.made_grows with
  | inl same => rw [same, found]
  | inr grows =>
    obtain ⟨fresh, same, _⟩ := grows
    have bound : i < σ.pool.made.length := (List.getElem?_eq_some_iff.mp found).1
    rw [same, List.getElem?_append_left bound, found]

/-- A position after all tasks gets the task with the next promise. -/
theorem made_new (stepped : Stepped workers σ σ' event) (found : σ'.pool.made[i]? = some task) :
    σ.pool.made[i]? = some task ∨ task.promise = σ.runtime.heap.next := by
  cases stepped.made_grows with
  | inl same =>
    rw [same] at found
    exact Or.inl found
  | inr grows =>
    obtain ⟨fresh, same, promise, _⟩ := grows
    rw [same] at found
    by_cases bound : i < σ.pool.made.length
    · rw [List.getElem?_append_left bound] at found
      exact Or.inl found
    · rw [List.getElem?_append_right (Nat.le_of_not_lt bound)] at found
      have inside := List.mem_of_getElem? found
      rw [List.mem_singleton.mp inside]
      exact Or.inr promise

/-- Earlier tasks come from the same calls. -/
theorem submitted (stepped : Stepped workers σ σ' event)
    (submitted : SubmittedBy calls σ'.pool.made) : SubmittedBy calls σ.pool.made := by
  intro i task found
  have prefixes : σ'.pool.made.take i = σ.pool.made.take i := by
    have bound : i < σ.pool.made.length := (List.getElem?_eq_some_iff.mp found).1
    cases stepped.made_grows with
    | inl same => rw [same]
    | inr grows =>
      obtain ⟨fresh, same, _⟩ := grows
      rw [same, List.take_append_of_le_length (Nat.le_of_lt bound)]
  rw [← prefixes]
  exact submitted i task (stepped.made_get found)

/-- A result stays. -/
theorem results_kept (stepped : Stepped workers σ σ' event)
    (reached : (poolSystem V ε workers).Reachable σ) {p : StateId} {result : Result V ε}
    (returned : σ.pool.results p = some result) : σ'.pool.results p = some result := by
  cases stepped.results with
  | inl same => rw [same, returned]
  | inr returns =>
    obtain ⟨thread, value, task, base, _, found, set⟩ := returns
    have running : .external (.func task) ∈ σ.runtime.pending :=
      Stacks.mem_pending.mpr ⟨_, List.mem_of_getElem? found, List.mem_cons_self⟩
    have other : p ≠ task.promise := by
      intro same
      rw [same, running_unreturned reached running] at returned
      cases returned
    rw [set, Function.update_of_ne other, returned]

end Stepped

/-- The futures that a running callable was passed hold what their callables returned. -/
theorem returned_dependencies (reached : (poolSystem V ε workers).Reachable σ)
    (running : .external (.func task) ∈ σ.runtime.pending) {positions : List Nat}
    (passed : positions.map (fun j => (σ.pool.made.take i)[j]?.map Task.promise) =
      task.dependencies.map some) :
    (∀ j ∈ positions, j < i ∧ σ.returned j ≠ none) ∧
      task.dependencies.filterMap σ.runtime.heap.outcome = positions.filterMap σ.returned := by
  have each (j : Nat) (inside : j ∈ positions) : j < i ∧ σ.returned j ≠ none ∧
      ((σ.pool.made.take i)[j]?.map Task.promise).bind σ.runtime.heap.outcome = σ.returned j := by
    have member := List.mem_map_of_mem (f := fun j =>
      (σ.pool.made.take i)[j]?.map Task.promise) inside
    rw [passed] at member
    obtain ⟨p, depends, same⟩ := List.mem_map.mp member
    obtain ⟨other, found, promise⟩ := Option.map_eq_some_iff.mp same.symm
    have bound : j < i := by
      have short := (List.getElem?_eq_some_iff.mp found).1
      rw [List.length_take] at short
      omega
    rw [List.getElem?_take_of_lt bound] at found
    rw [← promise] at depends
    obtain ⟨result, returned, outcome⟩ :=
      dependency_completed reached running (List.mem_of_getElem? found) depends
    have now : σ.returned j = some result.outcome := returned_iff.mpr
      ⟨other, result, found, returned, rfl⟩
    rw [← same, now, Option.bind_some, ← promise, outcome]
    exact ⟨bound, Option.some_ne_none _, rfl⟩
  refine ⟨fun j inside => ⟨(each j inside).1, (each j inside).2.1⟩, ?_⟩
  calc
    task.dependencies.filterMap σ.runtime.heap.outcome =
        (task.dependencies.map some).filterMap fun p => p.bind σ.runtime.heap.outcome := by
      rw [List.filterMap_map]
      rfl
    _ = positions.filterMap fun j =>
        ((σ.pool.made.take i)[j]?.map Task.promise).bind σ.runtime.heap.outcome := by
      rw [← passed, List.filterMap_map]
      rfl
    _ = positions.filterMap σ.returned :=
      List.filterMap_congr fun j inside => (each j inside).2.2

/-- What callables return respects the graph of the calls, whatever the step. -/
theorem Stepped.respects (stepped : Stepped workers σ σ' event)
    (reached : (poolSystem V ε workers).Reachable σ) (runs : σ.Runs calls event)
    (submitted : SubmittedBy calls σ.pool.made)
    (respects : Node.Respects (calls.map Submission.node) σ.returned) :
    Node.Respects (calls.map Submission.node) σ'.returned := by
  have ok := PoolConfig.ok reached
  apply respects.extend
  · intro i a returned
    obtain ⟨task, result, found, ended, same⟩ := returned_iff.mp returned
    exact returned_iff.mpr
      ⟨task, result, stepped.made_get found, stepped.results_kept reached ended, same⟩
  · intro i a before after
    obtain ⟨task, result, found, ended, same⟩ := returned_iff.mp after
    have unreturned (found : σ.pool.made[i]? = some task) :
        σ.pool.results task.promise = none := by
      cases returned : σ.pool.results task.promise with
      | none => rfl
      | some early =>
        rw [returned_iff.mpr ⟨task, early, found, returned, rfl⟩] at before
        cases before
    -- a task that is made in this step has no result yet
    have older (made : ∃ other ∈ σ.pool.made, other.promise = task.promise) :
        σ.pool.made[i]? = some task := by
      apply (stepped.made_new found).resolve_right
      intro next
      obtain ⟨other, made, promise⟩ := made
      have bound := ok.promise_lt made
      rw [promise, next] at bound
      exact absurd bound (Nat.lt_irrefl _)
    have stays (kept : σ'.pool.results task.promise = σ.pool.results task.promise) : False := by
      rw [kept] at ended
      rw [unreturned (older (results_made reached ended))] at ended
      cases ended
    cases stepped.results with
    | inl kept => exact (stays (congrFun kept _)).elim
    | inr returns =>
      obtain ⟨thread, value, other, base, is, top, set⟩ := returns
      by_cases own : task.promise = other.promise
      · have running : .external (.func other) ∈ σ.runtime.pending :=
          Stacks.mem_pending.mpr ⟨_, List.mem_of_getElem? top, List.mem_cons_self⟩
        have made := (ok.ledger.held _ (mem_poolCode.mpr running) other .running rfl).1
        have known := older ⟨other, made, own.symm⟩
        have one : task = other := List.inj_on_of_nodup_map ok.ledger.distinct
          (List.mem_of_getElem? known) made own
        obtain ⟨call, called, passed⟩ := submitted i task known
        rw [← one] at running top
        obtain ⟨earlier, outcomes⟩ := returned_dependencies reached running passed
        have control : σ.inCallable thread = some task := by
          unfold inCallable
          rw [top]
        rw [is] at runs
        have gives := runs task control i (List.getElem?_eq_some_iff.mp known).1 known call called
        refine ⟨call.node, ?_, earlier, ?_⟩
        · rw [List.getElem?_map, called, Option.map_some]
        · rw [set, own, Function.update_self] at ended
          rw [← same, ← Option.some.inj ended, gives, outcomes]
          rfl
      · exact (stays (by rw [set, Function.update_of_ne own])).elim

/-- In every run of the calls, what their callables return respects the graph. -/
theorem graph_respected [∀ (σ : PoolConfig V ε) event, Decidable (σ.Runs calls event)]
    (reached : ((poolSystem V ε workers).under (Runs calls)).Reachable σ) :
    (poolSystem V ε workers).Reachable σ ∧ σ.Ordered ∧
      (SubmittedBy calls σ.pool.made →
        Node.Respects (calls.map Submission.node) σ.returned) := by
  apply reached.invariant
  · intro σ initial
    obtain ⟨outside, same⟩ := initial
    rw [same]
    refine ⟨.start ⟨outside, rfl⟩, start_ordered outside, ?_⟩
    intro _ i a returned
    cases returned
  · intro σ event σ' _ all stepped
    obtain ⟨inside, ordered, respects⟩ := all
    obtain ⟨runs, taken⟩ := System.under_step.mp stepped
    have good := ok inside
    have kind := good.stepped taken
    refine ⟨inside.next taken, ordered.step good (staffed inside) runs.submits taken, ?_⟩
    intro submitted
    have before := kind.submitted submitted
    exact kind.respects inside runs before (respects before)

/-- The future of a task that has ended is decided. -/
theorem HasEnded.decided (ended : σ.HasEnded task)
    (reached : (poolSystem V ε workers).Reachable σ) (made : task ∈ σ.pool.made) :
    σ.runtime.heap.Decided task.promise := by
  obtain ⟨returned, idle⟩ := ended
  obtain ⟨result, returned⟩ := Option.isSome_iff_exists.mp returned
  have ok := PoolConfig.ok reached
  have inv := (Config.ok ok.reached).inv
  have given := inv.decisions.receivedGe task.promise (Or.inl (ok.made_origin made))
    (results_received reached returned)
  have undecided : Stacks.count σ.runtime.pending (Instr.decidesOn task.promise) = 0 := by
    apply Stacks.count_eq_zero.mpr
    intro x pending
    apply Bool.eq_false_of_not_eq_true
    intro decides
    obtain ⟨_, decision⟩ := Instr.decision_of_decidesOn decides
    have completes := Instr.completes_of_decision decision
    rw [idle x pending] at completes
    cases completes
  have walked : 0 < σ.runtime.heap.walks task.promise := by omega
  exact (inv.walked_iff.mp walked).1

/-- In every run of a list of `Execute` calls, on any number of workers, the future of a task that
has ended holds what the evaluation of the calls in their order gives; and a task whose dependencies
are decided is ready, by a value or by an exception. -/
theorem graph_evaluated [∀ (σ : PoolConfig V ε) event, Decidable (σ.Runs calls event)]
    (reached : ((poolSystem V ε workers).under (Runs calls)).Reachable σ)
    (submitted : SubmittedBy calls σ.pool.made) :
    (∀ (i : Nat) (task : Task), σ.pool.made[i]? = some task → σ.HasEnded task →
      ∃ outcome, σ.runtime.heap.outcome task.promise = some outcome ∧
        (Node.evaluate (calls.map Submission.node))[i]? = some outcome) ∧
    ∀ task ∈ σ.pool.made, (∀ p ∈ task.dependencies, σ.runtime.heap.Decided p) →
      (∀ p ∈ task.dependencies, ∀ x ∈ σ.runtime.pending, ¬ x.visits p) →
      task.isReady σ.runtime.heap = true := by
  obtain ⟨inside, ordered, respects⟩ := graph_respected reached
  constructor
  · intro i task found ended
    have made := List.mem_of_getElem? found
    have decided := ended.decided inside made
    obtain ⟨result, returned⟩ := Option.isSome_iff_exists.mp ended.1
    refine ⟨result.outcome, completed inside made returned decided, ?_⟩
    apply (respects submitted).evaluate
    exact returned_iff.mpr ⟨task, result, found, returned, rfl⟩
  · intro task made
    exact ordered.ready (ok inside) made

end PoolConfig

/-- A call whose callable throws, and one that handles the exception. -/
def handlingCalls : List (Submission Nat String) :=
  [{ dependencies := [], callable := fun _ => .error (.user "failed") },
    { dependencies := [0],
      callable := fun outcomes =>
        match outcomes with
        | [.exception _] => .ok (.val 1)
        | _ => .error .null }]

/-- Both calls, on one worker. -/
def handlingRun : List (PoolEvent Nat String) :=
  [PoolEvent.execute 1 false []] ++ List.replicate 9 (PoolEvent.run 1 0) ++
    [PoolEvent.execute 1 false [1]] ++ List.replicate 13 (PoolEvent.run 1 0) ++
    List.replicate 5 (PoolEvent.run 0 0) ++
    [PoolEvent.funcReturn 0 (.error (.user "failed"))] ++ List.replicate 24 (PoolEvent.run 0 0) ++
    [PoolEvent.funcReturn 0 (.ok (.val 1))] ++ List.replicate 2 (PoolEvent.run 0 0)

/-- The run can be replayed, and it is one of these calls. -/
theorem handlingRun_replays :
    (((poolSystem Nat String 1).under (PoolConfig.Runs handlingCalls)).replay
      (PoolConfig.start 1 1) handlingRun).isSome = true := by
  decide +kernel

/-- The configuration after the run. -/
def handling : PoolConfig Nat String :=
  (((poolSystem Nat String 1).under (PoolConfig.Runs handlingCalls)).replay
    (PoolConfig.start 1 1) handlingRun).get handlingRun_replays

/-- The tasks of the run. -/
theorem handling_made : handling.pool.made =
    [{ promise := 1, dependency := some 0, dependencies := [] },
      { promise := 4, dependency := some 2, dependencies := [1] }] := by
  decide +kernel

/-- They come from the calls. -/
theorem handling_submitted : SubmittedBy handlingCalls handling.pool.made := by
  rw [handling_made]
  intro i task found
  match i with
  | 0 =>
    rw [← Option.some.inj found]
    exact ⟨_, rfl, rfl⟩
  | 1 =>
    rw [← Option.some.inj found]
    exact ⟨_, rfl, rfl⟩
  | _ + 2 => cases found

/-- The second future holds the value that was made of the exception. -/
theorem handling_evaluated :
    ∃ outcome, handling.runtime.heap.outcome 4 = some outcome ∧
      (Node.evaluate (handlingCalls.map Submission.node))[1]? = some outcome := by
  have initial : ((poolSystem Nat String 1).under (PoolConfig.Runs handlingCalls)).initial
      (.start 1 1) := ⟨1, rfl⟩
  have results := PoolConfig.graph_evaluated
    (System.Reachable.of_replay initial handlingRun_replays) handling_submitted
  exact results.1 1 { promise := 4, dependency := some 2, dependencies := [1] }
    (by decide +kernel) ⟨by decide +kernel, by decide +kernel⟩

end Azul.Async
