import Azul.Async.PoolReachable
import Azul.Async.WhenAll

/-!
# What the pool promises about its tasks

Every task is accounted for: its callable is invoked at most once, and when the destructor has
returned its future holds what the callable returned or threw, or is broken if there was no call.
A callable starts only after every future that its task depends on is decided.
-/

namespace Azul.Async

open Foundation

variable {V ε : Type}

namespace Pool.Ledger

variable {pool : Pool V ε} {h : Heap V ε} {C : Multiset PoolCode} {task : Task}

/-- A task is queued, held by code, or destroyed. -/
theorem place_cases (ledger : pool.Ledger h C) (made : task ∈ pool.made) :
    task ∈ pool.tasks ∨ (∃ c ∈ C, ∃ stage, c.holding = some (task, stage)) ∨
      h.destroyed task.promise = true := by
  by_contra nowhere
  push Not at nowhere
  obtain ⟨unqueued, unheld, alive⟩ := nowhere
  have place := ledger.place task made
  have held : Stacks.count C (PoolCode.holds task) = 0 := by
    apply Stacks.count_eq_zero.mpr
    intro c inside
    by_contra holds
    obtain ⟨stage, holding⟩ := PoolCode.holds_iff.mp (Bool.eq_true_of_not_eq_false holds)
    exact unheld c inside stage holding
  rw [List.count_eq_zero.mpr unqueued, held, Bool.eq_false_of_not_eq_true alive] at place
  cases place

/-- The callable of a task was not invoked, is running, or has ended. -/
theorem past (ledger : pool.Ledger h C) (made : task ∈ pool.made) :
    pool.Fresh h task ∨ pool.Running h task ∨ pool.Finished h task := by
  rcases ledger.place_cases made with queued | ⟨c, inside, stage, holding⟩ | destroyed
  · exact Or.inl (ledger.queued task queued).2
  · have ok := (ledger.held c inside task stage holding).2
    cases stage with
    | fresh => exact Or.inl ok
    | taken => exact Or.inl ok.1
    | running => exact Or.inr (Or.inl ok.1)
    | finished => exact Or.inr (Or.inr ok)
  · exact (ledger.ended task made destroyed).imp_right Or.inr

/-- The callable of a task is invoked at most once. -/
theorem invocations_le (ledger : pool.Ledger h C) (made : task ∈ pool.made) :
    pool.invocations task.promise ≤ 1 := by
  rcases ledger.past made with fresh | running | finished
  · rw [fresh.invocations]
    exact Nat.zero_le 1
  · rw [running.invocations]
  · rw [finished.invocations]

/-- Once no code is left and the queue is empty, a task is destroyed. -/
theorem destroyed (ledger : pool.Ledger h 0) (empty : pool.tasks = []) (made : task ∈ pool.made) :
    h.destroyed task.promise = true := by
  rcases ledger.place_cases made with queued | ⟨c, inside, -⟩ | destroyed
  · simp [empty] at queued
  · simp at inside
  · exact destroyed

end Pool.Ledger

namespace PoolConfig.Ok

variable {workers : Nat} {σ : PoolConfig V ε} {task : Task}

/-- A task is the one of a promise. -/
theorem made_origin (ok : σ.Ok workers) (made : task ∈ σ.pool.made) :
    σ.runtime.heap.origin task.promise = some .promise := (ok.ledger.made task made).1

/-- When the destructor has returned, no code of the pool is left. -/
theorem no_code (ok : σ.Ok workers) (gone : σ.pool.destroyed = true) :
    poolCode σ.runtime.pending = 0 := by
  have destructor := ok.placed.destructor
  rw [gone, Bool.toNat_true] at destructor
  have bound := Bool.toNat_le σ.pool.destroying
  apply Multiset.eq_zero_of_forall_notMem
  intro c pending
  obtain ⟨stack, member, inside⟩ := Stacks.mem_pending.mp (mem_poolCode.mp pending)
  obtain ⟨thread, found⟩ := List.mem_iff_getElem?.mp member
  have outside : ¬ thread < workers := by
    intro worker
    have ended := finished_iff.mp ((ok.placed.destroyed gone).2 thread worker)
    rw [found] at ended
    cases ended
    cases inside
  have assigned := ok.placed.assigned thread stack found c inside
  unfold PoolCode.Assigned at assigned
  split_ifs at assigned with execute clears
  · rw [assigned.resolve_left outside, Bool.toNat_false] at destructor
    omega
  · have left : 0 < Stacks.count (poolCode σ.runtime.pending) PoolCode.isDestructor :=
      Stacks.count_pos.mpr ⟨c, pending, clears⟩
    omega
  · exact outside assigned

/-- When no code of the pool is left, no call on the promise of a task is in progress. -/
theorem idle (ok : σ.Ok workers) (ended : poolCode σ.runtime.pending = 0)
    (made : task ∈ σ.pool.made) : Idle σ.runtime.pending task.promise := by
  have layout := (Config.ok ok.reached).inv.layout
  have incomplete {x : Instr V ε PoolCode} (inside : x ∈ σ.runtime.pending) :
      x.completes task.promise = false := by
    by_contra completes
    have relock := ok.relocks inside made (Bool.eq_true_of_not_eq_false completes)
    rw [ended] at relock
    exact Multiset.notMem_zero _ relock
  have underived : ¬ σ.runtime.heap.Derived task.promise := by
    rintro ⟨antecedent, callable, derived⟩
    rw [ok.made_origin made] at derived
    cases derived
  intro x inside
  have typed := layout.typed x inside
  cases x with
  | setValue | resolve | setException | walk => exact incomplete inside
  | invoke d copy =>
    apply beq_eq_false_iff_ne.mpr
    rintro rfl
    exact underived typed.2
  | inCallable d =>
    apply beq_eq_false_iff_ne.mpr
    rintro rfl
    obtain ⟨antecedent, derived⟩ := typed
    exact underived ⟨antecedent, _, derived⟩
  | registerThen d =>
    apply beq_eq_false_iff_ne.mpr
    rintro rfl
    exact underived typed
  | _ => rfl

/-- When no code of the pool is left, a destroyed task has a decided future. -/
theorem decided (ok : σ.Ok workers) (ended : poolCode σ.runtime.pending = 0)
    (made : task ∈ σ.pool.made) (destroyed : σ.runtime.heap.destroyed task.promise = true) :
    σ.runtime.heap.Decided task.promise := by
  have inv := (Config.ok ok.reached).inv
  have retired : σ.runtime.heap.Retired task.promise :=
    (Heap.retired_promise (ok.made_origin made)).mpr destroyed
  rcases inv.decisions.retired task.promise retired with breaking | ⟨decided, -⟩
  · have code : ∀ c : PoolCode, Instr.external c ∉ σ.runtime.pending := by
      intro c inside
      have pending := mem_poolCode.mpr inside
      rw [ended] at pending
      exact Multiset.notMem_zero c pending
    rcases (ok.needs breaking task made).2 rfl with loop | clearing
    · exact absurd loop (code _)
    · exact absurd clearing (code _)
  · exact decided

/-- When the destructor has returned, the future of a task holds what the callable returned or
threw, or is broken if there was no call. -/
theorem accounted (ok : σ.Ok workers) (gone : σ.pool.destroyed = true)
    (made : task ∈ σ.pool.made) :
    σ.runtime.heap.Decided task.promise ∧
    (σ.pool.invocations task.promise = 1 →
      ∃ result, σ.pool.results task.promise = some result ∧
        σ.runtime.heap.outcome task.promise = some result.outcome) ∧
    (σ.runtime.heap.outcome task.promise = some .brokenPromise ↔
      σ.pool.invocations task.promise = 0) := by
  have inv := (Config.ok ok.reached).inv
  have ended := ok.no_code gone
  have ledger := ok.ledger
  rw [ended] at ledger
  have destroyed := ledger.destroyed (ok.placed.destroyed gone).1 made
  have idle := ok.idle ended made
  have decided := ok.decided ended made destroyed
  have promised : σ.runtime.heap.Promised task.promise := Or.inl (ok.made_origin made)
  refine ⟨decided, ?_⟩
  rcases ledger.ended task made destroyed with fresh | finished
  · have unwalked : σ.runtime.heap.walks task.promise = 0 := by
      have bound := inv.decisions.receivedLe task.promise promised
      rw [fresh.received, List.length_nil] at bound
      omega
    have broken : σ.runtime.heap.outcome task.promise = some .brokenPromise := by
      by_contra other
      have walked := inv.walked_iff.mpr ⟨decided, other⟩
      omega
    rw [fresh.invocations]
    exact ⟨fun once => by omega, fun _ => rfl, fun _ => broken⟩
  · obtain ⟨result, returned, received⟩ := finished.received
    have outcome := (inv.received_one idle promised received).2
    rw [finished.invocations, outcome]
    refine ⟨fun _ => ⟨result, returned, rfl⟩, fun broken => ?_, fun never => by omega⟩
    exact absurd (Option.some.inj broken) result.outcome_ne_broken

/-- The dependencies of a task that was taken from the queue are decided. -/
theorem dependencies (ok : σ.Ok workers) {c : PoolCode}
    (pending : Instr.external c ∈ σ.runtime.pending) {stage : Stage}
    (holding : c.holding = some (task, stage)) (taken : stage = .taken ∨ stage = .running)
    {s : StateId} (dependency : s ∈ task.dependencies) : σ.runtime.heap.Decided s := by
  obtain ⟨made, stageOk⟩ := ok.ledger.held c (mem_poolCode.mpr pending) task stage holding
  have ready : task.Ready σ.runtime.heap := by
    rcases taken with rfl | rfl
    · exact stageOk.2
    · exact stageOk.2
  obtain ⟨-, all, waits, origin⟩ := ok.ledger.made task made
  exact (Config.ok ok.reached).whenAll_inputs origin (ready all waits) dependency

/-- The future of a task whose promise exists and was not completed is undecided. -/
theorem unwalked_undecided (ok : σ.Ok workers) (made : task ∈ σ.pool.made)
    (alive : σ.runtime.heap.destroyed task.promise = false)
    (unwalked : σ.runtime.heap.walks task.promise = 0) :
    ¬ σ.runtime.heap.Decided task.promise := by
  have inv := (Config.ok ok.reached).inv
  intro decided
  have broken : σ.runtime.heap.outcome task.promise = some .brokenPromise := by
    by_contra other
    have walked := inv.walked_iff.mpr ⟨decided, other⟩
    omega
  have retired := (inv.decisions.broken task.promise broken).1
  rw [Heap.retired_promise (ok.made_origin made), alive] at retired
  cases retired

/-- The promise of a task is undecided when its `SetValue` or `SetException` begins, so that the
`catch` block of the task sees no exception but the callable's. -/
theorem undecided (ok : σ.Ok workers) (made : task ∈ σ.pool.made) {x : Instr V ε PoolCode}
    (pending : x ∈ σ.runtime.pending) (decides : x.decidesOn task.promise = true) :
    ¬ σ.runtime.heap.Decided task.promise := by
  have inv := (Config.ok ok.reached).inv
  have completes : x.completes task.promise = true := by
    cases x <;> first | exact decides | cases decides
  have relock := ok.relocks pending made completes
  have alive : σ.runtime.heap.destroyed task.promise = false := by
    obtain ⟨R, split⟩ := Multiset.exists_cons_of_mem relock
    exact Pool.Ledger.held_alone (split ▸ ok.ledger) rfl |>.2.2
  have finished := (ok.ledger.held _ relock task .finished rfl).2
  obtain ⟨result, -, received⟩ := Pool.Finished.received finished
  have bound := inv.decisions.receivedLe task.promise (Or.inl (ok.made_origin made))
  have beginning : 0 < Stacks.count σ.runtime.pending (Instr.decidesOn task.promise) :=
    Stacks.count_pos.mpr ⟨x, pending, decides⟩
  rw [received, List.length_singleton] at bound
  exact ok.unwalked_undecided made alive (by omega)

end PoolConfig.Ok

namespace PoolConfig

/-- The configuration that a replayable run reaches. -/
def after (workers outside : Nat) (events : List (PoolEvent V ε))
    (replays : ((poolSystem V ε workers).replay (start workers outside) events).isSome = true) :
    PoolConfig V ε :=
  ((poolSystem V ε workers).replay (start workers outside) events).get replays

/-- A replayable run reaches a reachable configuration. -/
theorem reachable_after {workers outside : Nat} {events : List (PoolEvent V ε)}
    (replays : ((poolSystem V ε workers).replay (start workers outside) events).isSome = true) :
    (poolSystem V ε workers).Reachable (after workers outside events replays) :=
  have initial : (poolSystem V ε workers).initial (start workers outside) := ⟨outside, rfl⟩
  System.Reachable.of_replay initial replays

end PoolConfig

section Results

variable {workers : Nat} {σ : PoolConfig V ε}

/-- In every reachable configuration a callable was invoked at most once; when the destructor has
returned, the future of every task is decided: it holds what the callable returned or threw if
there was a call, and is broken exactly if there was none. -/
theorem tasks_accounted (reached : (poolSystem V ε workers).Reachable σ) :
    (∀ task ∈ σ.pool.made, σ.pool.invocations task.promise ≤ 1) ∧
    (σ.pool.destroyed = true → ∀ task ∈ σ.pool.made,
      σ.runtime.heap.Decided task.promise ∧
      (σ.pool.invocations task.promise = 1 →
        ∃ result, σ.pool.results task.promise = some result ∧
          σ.runtime.heap.outcome task.promise = some result.outcome) ∧
      (σ.runtime.heap.outcome task.promise = some .brokenPromise ↔
        σ.pool.invocations task.promise = 0)) :=
  have ok := PoolConfig.ok reached
  ⟨fun _ made => ok.ledger.invocations_le made, fun gone _ made => ok.accounted gone made⟩

/-- A pool without workers breaks the promise of its task. -/
example : ((poolSystem Nat String 0).replay (PoolConfig.start 0 1)
    (PoolEvent.execute 0 false [] :: List.replicate 9 (PoolEvent.run 0 0) ++
      PoolEvent.destroy 0 :: List.replicate 6 (PoolEvent.run 0 0))).map
        (fun σ => σ.runtime.heap.outcome 1) = some (some .brokenPromise) := by
  decide +kernel

/-- Two tasks on one worker: the first waits for a promise that nobody completes, the second is
executed, then the pool is destroyed. -/
def shutdownRun : List (PoolEvent Nat String) :=
  [PoolEvent.call 1 (.newPromise false), PoolEvent.execute 1 false [0]] ++
    List.replicate 13 (PoolEvent.run 1 0) ++ [PoolEvent.execute 1 false []] ++
    List.replicate 9 (PoolEvent.run 1 0) ++ List.replicate 6 (PoolEvent.run 0 0) ++
    [PoolEvent.funcReturn 0 (.ok (.val 7))] ++ List.replicate 11 (PoolEvent.run 0 0) ++
    [PoolEvent.destroy 1, PoolEvent.run 1 0] ++ List.replicate 2 (PoolEvent.run 0 0) ++
    List.replicate 6 (PoolEvent.run 1 0)

/-- The run can be replayed. -/
theorem shutdownRun_replays :
    ((poolSystem Nat String 1).replay (PoolConfig.start 1 1) shutdownRun).isSome = true := by
  decide +kernel

/-- After the run both tasks are accounted for: the first is broken, the second has its value. -/
theorem shutdownRun_accounted :
    let σ := PoolConfig.after 1 1 shutdownRun shutdownRun_replays
    σ.runtime.heap.outcome 3 = some .brokenPromise ∧
      ∃ result, σ.pool.results 5 = some result ∧ σ.runtime.heap.outcome 5 = some result.outcome :=
  have gone : (PoolConfig.after 1 1 shutdownRun shutdownRun_replays).pool.destroyed = true := by
    decide +kernel
  have ended := (tasks_accounted (PoolConfig.reachable_after shutdownRun_replays)).2 gone
  have waiting : (⟨3, some 1, [0]⟩ : Task) ∈
      (PoolConfig.after 1 1 shutdownRun shutdownRun_replays).pool.made := by decide +kernel
  have executed : (⟨5, some 4, []⟩ : Task) ∈
      (PoolConfig.after 1 1 shutdownRun shutdownRun_replays).pool.made := by decide +kernel
  ⟨(ended _ waiting).2.2.mpr (by decide +kernel), (ended _ executed).2.1 (by decide +kernel)⟩

/-- Whenever a thread is about to invoke the callable of a task or runs it, every future that the
task was submitted with is decided, so that `Get` on it does not wait. -/
theorem dependencies_decided (reached : (poolSystem V ε workers).Reachable σ)
    {stack : List (Instr V ε PoolCode)} (member : stack ∈ σ.runtime.threads) {task : Task}
    (invoking : .external (.call task) ∈ stack ∨ .external (.func task) ∈ stack) :
    ∀ s ∈ task.dependencies, σ.runtime.heap.Decided s ∧ (σ.runtime.heap.cell s).get ≠ none := by
  have ok := PoolConfig.ok reached
  intro s dependency
  have decided : σ.runtime.heap.Decided s := by
    rcases invoking with inside | inside
    · exact ok.dependencies (Stacks.mem_pending.mpr ⟨stack, member, inside⟩) rfl (Or.inl rfl)
        dependency
    · exact ok.dependencies (Stacks.mem_pending.mpr ⟨stack, member, inside⟩) rfl (Or.inr rfl)
        dependency
  refine ⟨decided, fun waits => decided ?_⟩
  exact FutureState.outcome_eq_none.mpr (FutureState.get_eq_none.mp waits)

/-- A task waits for a promise; the program completes it, and the worker takes the task. -/
def dependencyRun : List (PoolEvent Nat String) :=
  [PoolEvent.call 1 (.newPromise false), PoolEvent.execute 1 false [0]] ++
    List.replicate 13 (PoolEvent.run 1 0) ++ [PoolEvent.call 1 (.complete 0 (.ok (.val 7)))] ++
    List.replicate 9 (PoolEvent.run 1 0) ++ List.replicate 5 (PoolEvent.run 0 0)

/-- The run can be replayed. -/
theorem dependencyRun_replays :
    ((poolSystem Nat String 1).replay (PoolConfig.start 1 1) dependencyRun).isSome = true := by
  decide +kernel

/-- At the end of the run the worker runs the callable, and its dependency is decided. -/
theorem dependencyRun_decided :
    let σ := PoolConfig.after 1 1 dependencyRun dependencyRun_replays
    σ.runtime.heap.Decided 0 ∧ (σ.runtime.heap.cell 0).get ≠ none :=
  have running : .func ⟨3, some 1, [0]⟩ ∈
      poolCode (PoolConfig.after 1 1 dependencyRun dependencyRun_replays).runtime.pending := by
    decide +kernel
  have ⟨_, member, inside⟩ := Stacks.mem_pending.mp (mem_poolCode.mp running)
  dependencies_decided (PoolConfig.reachable_after dependencyRun_replays) member (Or.inr inside) 0
    List.mem_cons_self

end Results

end Azul.Async
