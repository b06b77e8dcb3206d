import Azul.Async.TaskOrder

/-!
# The pool does not sleep on queued work

When tasks wait for tasks only, no thread of the program decides what a queued task waits for, so
the workers come to every task that is ready. And when all of them sleep, the oldest queued task is
ready: its dependencies are not queued, no worker holds them, so they have ended.
-/

namespace Azul.Async

open Foundation

variable {V ε : Type}

namespace PoolConfig

variable {workers : Nat} {σ : PoolConfig V ε} {thread : Nat} {stack : List (Instr V ε PoolCode)}
  {x : Instr V ε PoolCode} {task : Task} {s : StateId}

/-- Before the shutdown the destructor does not destroy tasks. -/
theorem Ok.keeps_tasks (ok : σ.Ok workers) (running : σ.pool.destroying = false) :
    .shutdownDestroyRemainingTasks ∉ poolCode σ.runtime.pending := by
  intro pending
  obtain ⟨stack, member, inside⟩ := Stacks.mem_pending.mp (mem_poolCode.mp pending)
  obtain ⟨thread, found⟩ := List.getElem?_of_mem member
  have entered := ok.destroying_of_destructor found inside rfl
  rw [running] at entered
  cases entered

namespace Ordered

/-- Before the destructor destroys tasks, no thread of the program completes or destroys the promise
of a task. -/
theorem unvisited (ordered : σ.Ordered) (ok : σ.Ok workers)
    (keeps : .shutdownDestroyRemainingTasks ∉ poolCode σ.runtime.pending)
    (outside : workers ≤ thread) (found : σ.runtime.threads[thread]? = some stack)
    (inside : x ∈ stack) (made : task ∈ σ.pool.made) : ¬ x.visits task.promise := by
  have member := List.mem_of_getElem? found
  have needs := (ok.nested stack member).needs Pool.needs_grow inside task made
  have orders := ((ordered.nested stack member).needs orders_grow inside).1 task made
  have noWorker {c : PoolCode} (worker : c.isWorker = true) (below : .external c ∈ stack) :
      False := by
    have bound := ok.worker_lt found below worker
    omega
  have ends (below : .external .loop ∈ stack ∨
      .external .shutdownDestroyRemainingTasks ∈ stack) : False := by
    cases below with
    | inl loop => exact noWorker rfl loop
    | inr destructor =>
      exact keeps (mem_poolCode.mpr (Stacks.mem_pending.mpr ⟨stack, member, destructor⟩))
  intro visits
  cases x with
  | walk t index =>
    have same : t = task.promise := visits
    exact noWorker rfl (needs.1 (by rw [same]; exact beq_self_eq_true _))
  | aboutToDestroyPromise t =>
    have same : t = task.promise := visits
    exact ends (needs.2 (by rw [same]))
  | clear t =>
    have same : t = task.promise := visits
    exact ends (orders (by rw [same]))
  | _ => exact visits

/-- Nor does it work for the `WhenAll` of a task. -/
theorem unserved (ordered : σ.Ordered) (ok : σ.Ok workers) (running : σ.pool.destroying = false)
    (outside : workers ≤ thread) (found : σ.runtime.threads[thread]? = some stack)
    (inside : x ∈ stack) (made : task ∈ σ.pool.made) (waits : task.dependency = some s) :
    ¬ x.serves σ.runtime.heap s := by
  intro serves
  have member := List.mem_of_getElem? found
  have orders := ((ordered.nested stack member).needs orders_grow inside).2 s
    (Or.inl ⟨task, made, waits⟩) serves
  cases orders with
  | inl makes =>
    obtain ⟨c, makes, below⟩ := makes
    have pending : c ∈ poolCode σ.runtime.pending :=
      mem_poolCode.mpr (Stacks.mem_pending.mpr ⟨stack, member, below⟩)
    exact ordered.making c pending s makes task made waits
  | inr visits =>
    obtain ⟨inputs, origin, p, input, y, visits, below⟩ := visits
    obtain ⟨_, dependency, same, joined⟩ := ok.ledger.made task made
    rw [waits] at same
    rw [← Option.some.inj same, origin] at joined
    rw [Origin.whenAll.inj (Option.some.inj joined)] at input
    obtain ⟨other, known, is⟩ := List.mem_map.mp (ordered.earlier task made p input)
    rw [← is] at visits
    exact ordered.unvisited ok (ok.keeps_tasks running) outside found below known visits

/-- So what it decides is not what a queued task waits for. -/
theorem noticed (ordered : σ.Ordered) (ok : σ.Ok workers) (event : PoolEvent V ε) :
    σ.Noticed workers event := by
  cases event with
  | run thread woken =>
    intro running outside s notifies index _ task queued waits
    exfalso
    have made := (ok.ledger.queued task (List.mem_of_getElem? queued)).1
    obtain ⟨_, dependency, same, joined⟩ := ok.ledger.made task made
    rw [waits] at same
    rw [← Option.some.inj same] at joined
    have unpromised := Heap.not_promised_whenAll joined
    unfold PoolConfig.notifies at notifies
    split at notifies
    case h_1 x rest found =>
      have typed := (Config.ok ok.reached).inv.layout.typed x (Stacks.mem_pending.mpr
        ⟨_, List.mem_of_getElem? found, List.mem_cons_self⟩)
      have unserved := ordered.unserved ok running outside found List.mem_cons_self made waits
      cases x with
      | setValue t value =>
        simp only [Instr.notifies] at notifies
        split at notifies
        · exact unserved (Option.some.inj notifies)
        · cases notifies
      | resolve t value =>
        simp only [Instr.notifies] at notifies
        split at notifies
        · rw [Option.some.inj notifies] at typed
          exact unpromised (Or.inr typed.2)
        · cases notifies
      | setException t error =>
        rw [Option.some.inj notifies] at typed
        exact unpromised typed
      | aboutToDestroyPromise t =>
        rw [Option.some.inj notifies] at typed
        exact unpromised typed
      | _ => cases notifies
    case h_2 => cases notifies
  | _ => trivial

/-! ## When no worker has a task -/

/-- A dependency of a task is older than the task. -/
theorem older (ordered : σ.Ordered) (ok : σ.Ok workers) (made : task ∈ σ.pool.made) {p : StateId}
    (depends : p ∈ task.dependencies) : p < task.promise := by
  obtain ⟨_, s, waits, origin⟩ := ok.ledger.made task made
  have layout := (Config.ok ok.reached).inv.layout
  exact Nat.lt_trans ((layout.originOk origin).2 p depends) (ordered.before task made s waits)

section Resting

variable (ordered : σ.Ordered) (ok : σ.Ok workers)
  (keeps : .shutdownDestroyRemainingTasks ∉ poolCode σ.runtime.pending)
  (rests : ∀ w < workers, ∃ c : PoolCode, σ.runtime.threads[w]? = some [.external c] ∧
    c.holding = none)

include rests in
/-- When no worker has a task, whatever else is pending is on a thread of the program. -/
theorem outside (inside : x ∈ σ.runtime.pending) :
    (∃ c : PoolCode, x = .external c ∧ c.holding = none) ∨
    ∃ thread stack, workers ≤ thread ∧ σ.runtime.threads[thread]? = some stack ∧ x ∈ stack := by
  obtain ⟨stack, member, held⟩ := Stacks.mem_pending.mp inside
  obtain ⟨thread, found⟩ := List.getElem?_of_mem member
  by_cases bound : thread < workers
  · obtain ⟨c, alone, free⟩ := rests thread bound
    rw [found] at alone
    rw [Option.some.inj alone] at held
    exact Or.inl ⟨c, List.mem_singleton.mp held, free⟩
  · exact Or.inr ⟨thread, stack, Nat.le_of_not_lt bound, found, held⟩

include ordered ok keeps rests in
/-- Nothing completes or destroys the promise of a task. -/
theorem resting_unvisited (made : task ∈ σ.pool.made) (x : Instr V ε PoolCode)
    (inside : x ∈ σ.runtime.pending) : ¬ x.visits task.promise := by
  cases outside rests inside with
  | inl waits =>
    obtain ⟨c, same, _⟩ := waits
    rw [same]
    exact id
  | inr program =>
    obtain ⟨thread, stack, beyond, found, held⟩ := program
    exact ordered.unvisited ok keeps beyond found held made

include ordered ok keeps rests in
/-- A dependency of a task is queued, or its future is decided. -/
theorem resting_decided (made : task ∈ σ.pool.made) {p : StateId}
    (depends : p ∈ task.dependencies) :
    σ.runtime.heap.Decided p ∨ ∃ other ∈ σ.pool.tasks, other.promise = p := by
  obtain ⟨other, known, is⟩ := List.mem_map.mp (ordered.earlier task made p depends)
  by_cases queued : other ∈ σ.pool.tasks
  · exact Or.inr ⟨other, queued, is⟩
  left
  -- no worker holds it, and it was submitted before the task that depends on it
  have unheld : Stacks.count (poolCode σ.runtime.pending) (PoolCode.holds other) = 0 := by
    apply Stacks.count_eq_zero.mpr
    intro c inside
    apply Bool.eq_false_of_not_eq_true
    intro holds
    obtain ⟨stage, holding⟩ := PoolCode.holds_iff.mp holds
    cases outside rests (mem_poolCode.mp inside) with
    | inl waits =>
      obtain ⟨c', same, free⟩ := waits
      rw [Instr.external.inj same, free] at holding
      cases holding
    | inr program =>
      obtain ⟨thread, stack, beyond, found, held⟩ := program
      have noWorker (worker : c.isWorker = true) : False := by
        have bound := ok.worker_lt found held worker
        omega
      cases c with
      | emplaceBack fresh =>
        have same : fresh = other := congrArg Prod.fst (Option.some.inj holding)
        rw [same] at inside
        rw [← is] at depends
        exact ordered.queueing other inside task made depends
      | unlock | call | func | relock | notify | release => exact noWorker rfl
      | _ => cases holding
  have place := ok.ledger.place other known
  rw [unheld, List.count_eq_zero_of_not_mem queued] at place
  have gone : σ.runtime.heap.destroyed other.promise = true := by
    cases destroyed : σ.runtime.heap.destroyed other.promise with
    | true => rfl
    | false =>
      rw [destroyed] at place
      cases place
  have decisions := (Config.ok ok.reached).inv.decisions
  have retired := (Heap.retired_promise (ok.ledger.made other known).1).mpr gone
  rw [← is]
  cases decisions.retired other.promise retired with
  | inl breaking =>
    exact absurd rfl (resting_unvisited ordered ok keeps rests known _ breaking)
  | inr decided => exact decided.1

include ordered ok keeps rests in
/-- A task is ready when no dependency of it is queued. -/
theorem resting_ready (made : task ∈ σ.pool.made)
    (first : ∀ other ∈ σ.pool.tasks, other.promise ∉ task.dependencies) :
    task.isReady σ.runtime.heap = true := by
  apply ordered.ready ok made
  · intro p input
    apply (resting_decided ordered ok keeps rests made input).resolve_right
    intro waiting
    obtain ⟨other, also, same⟩ := waiting
    rw [← same] at input
    exact first other also input
  · intro p input x inside
    obtain ⟨other, known, same⟩ := List.mem_map.mp (ordered.earlier task made p input)
    rw [← same]
    exact resting_unvisited ordered ok keeps rests known x inside

end Resting

/-- No task is queued while all workers sleep, if they come to every task that is ready. -/
theorem asleep_empty (ordered : σ.Ordered) (ok : σ.Ok workers)
    (running : σ.pool.destroying = false) (asleep : ∀ w < workers, σ.Blocked w)
    (vigilant : σ.Vigilant workers) : σ.pool.tasks = [] := by
  have rests : ∀ w < workers, ∃ c : PoolCode, σ.runtime.threads[w]? = some [.external c] ∧
      c.holding = none := fun w bound => ⟨.waitFor, (asleep w bound).1, rfl⟩
  suffices none : ∀ n, ∀ task ∈ σ.pool.tasks, task.promise ≠ n by
    apply List.eq_nil_iff_forall_not_mem.mpr
    exact fun task queued => none task.promise task queued rfl
  intro n
  -- the induction is on the age of the task
  induction n using Nat.strongRecOn with
  | _ n ih =>
    intro task queued is
    have made := (ok.ledger.queued task queued).1
    have ready := resting_ready ordered ok (ok.keeps_tasks running) rests made (by
      intro other also input
      have older := ordered.older ok made input
      rw [is] at older
      exact ih other.promise older other also rfl)
    obtain ⟨index, found⟩ := List.getElem?_of_mem queued
    obtain ⟨w, bound, watches⟩ := vigilant index task found ready
    exact (asleep w bound).not_watches watches

end Ordered

/-- Before the shutdown, whenever a task is queued not all workers are blocked, in every run of a
program that calls `Execute` with futures of earlier tasks. -/
theorem queued_awake (positive : 0 < workers)
    (reached : ((poolSystem V ε workers).under Submits).Reachable σ)
    (running : σ.pool.destroying = false) (queued : σ.pool.tasks ≠ []) :
    ¬ ∀ w < workers, σ.Blocked w := by
  have vigilant : σ.pool.destroying = false → σ.Vigilant workers := by
    apply reached.invariant
    · intro σ initial
      obtain ⟨outside, same⟩ := initial
      rw [same]
      exact fun _ => Vigilant.start outside
    · intro σ event σ' reached vigilant stepped running
      obtain ⟨inside, ordered⟩ := PoolConfig.ordered reached
      obtain ⟨_, taken⟩ := System.under_step.mp stepped
      have good := ok inside
      have before := (good.stepped taken).running_before running
      exact (vigilant before).step good (PoolConfig.staffed inside) positive
        (ordered.noticed good event) taken running
  intro asleep
  obtain ⟨inside, ordered⟩ := PoolConfig.ordered reached
  exact queued (ordered.asleep_empty (ok inside) running asleep (vigilant running))

end PoolConfig

/-- A task and one that depends on it, on one worker, which takes the first. -/
def dependentRun : List (PoolEvent Nat String) :=
  [PoolEvent.execute 1 false []] ++ List.replicate 9 (PoolEvent.run 1 0) ++
    [PoolEvent.execute 1 false [1]] ++ List.replicate 13 (PoolEvent.run 1 0) ++
    List.replicate 5 (PoolEvent.run 0 0)

/-- The run can be replayed, and it calls `Execute` with futures of earlier tasks. -/
theorem dependentRun_replays :
    (((poolSystem Nat String 1).under PoolConfig.Submits).replay (PoolConfig.start 1 1)
      dependentRun).isSome = true := by
  decide +kernel

/-- The configuration after the run. -/
def dependent : PoolConfig Nat String :=
  (((poolSystem Nat String 1).under PoolConfig.Submits).replay (PoolConfig.start 1 1)
    dependentRun).get dependentRun_replays

/-- The second task is queued, and the worker does not sleep. -/
theorem dependent_awake : ¬ ∀ w < 1, dependent.Blocked w := by
  have initial : ((poolSystem Nat String 1).under PoolConfig.Submits).initial (.start 1 1) :=
    ⟨1, rfl⟩
  exact PoolConfig.queued_awake Nat.one_pos
    (System.Reachable.of_replay initial dependentRun_replays) (by decide +kernel)
    (by decide +kernel)

end Azul.Async
