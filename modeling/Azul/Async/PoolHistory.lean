import Azul.Async.PoolTasks

/-!
# What a step of the pool leaves alone

What the steps of a program with a pool do to one task over time: its callable runs until it
returns, its result is set when it returns and never again, its promise ends after its callable or
in the queue, and nothing that was made or decided is taken back. A component above the pool reads
its own history off these facts.
-/

namespace Azul.Async

open Foundation

variable {V ε : Type}

/-- What was pending is the replaced part of a stack, or still pending. -/
theorem Replaced.kept {X : Type} {σ σ' : Config V ε X} {thread : Nat}
    {old new base : List (Instr V ε X)} (replaced : Replaced σ σ' thread old new base)
    {x : Instr V ε X} (pending : x ∈ σ.pending) : x ∈ old ∨ x ∈ σ'.pending := by
  obtain ⟨rest, before, after⟩ := replaced.pending
  rw [before] at pending
  rcases Multiset.mem_add.mp pending with gone | stays
  · exact Or.inl gone
  · rw [after]
    exact Or.inr (Multiset.mem_add.mpr (Or.inr stays))

/-- What is pending was put on a stack, or was pending before. -/
theorem Replaced.came {X : Type} {σ σ' : Config V ε X} {thread : Nat}
    {old new base : List (Instr V ε X)} (replaced : Replaced σ σ' thread old new base)
    {x : Instr V ε X} (pending : x ∈ σ'.pending) : x ∈ new ∨ x ∈ σ.pending := by
  obtain ⟨rest, before, after⟩ := replaced.pending
  rw [after] at pending
  cases Multiset.mem_add.mp pending with
  | inl come => exact Or.inl come
  | inr stays =>
    rw [before]
    exact Or.inr (Multiset.mem_add.mpr (Or.inr stays))

section Moves

variable {pool pool' : Pool V ε} {h h' : Heap V ε} {C C' : Multiset PoolCode}

/-- Only the return of a callable sets a result. -/
theorem TaskMove.results (move : TaskMove pool h C pool' h' C') :
    pool'.results = pool.results ∨ ∃ task, .func task ∈ C := by
  cases move with
  | other same | advance same => exact Or.inl same.results
  | emplaceBack same => exact Or.inl same.results
  | funcReturn => exact Or.inr ⟨_, Multiset.mem_cons_self _ _⟩
  | _ => exact Or.inl rfl

/-- Tasks are never unmade. -/
theorem TaskMove.made_kept (move : TaskMove pool h C pool' h' C') {task : Task}
    (made : task ∈ pool.made) : task ∈ pool'.made := by
  cases move with
  | other same | advance same => exact same.made ▸ made
  | emplaceBack same => exact same.made ▸ made
  | makeTask => exact List.mem_append_left _ made
  | _ => exact made

end Moves

namespace PoolConfig

variable {workers : Nat} {σ σ' : PoolConfig V ε} {event : PoolEvent V ε}

/-- A callable runs until it returns. -/
theorem Stepped.func (stepped : Stepped workers σ σ' event) {task : Task}
    (running : .external (.func task) ∈ σ.runtime.pending) :
    .external (.func task) ∈ σ'.runtime.pending ∨ ∃ thread result base,
      event = .funcReturn thread result ∧
        σ.runtime.threads[thread]? = some (.external (.func task) :: base) := by
  cases stepped with
  | library disciplined running' same step =>
    rcases step.replaced.kept running with inside | kept
    · cases step.own _ inside
    · exact Or.inl kept
  | statement found ran performed =>
    obtain ⟨code, replaced, -⟩ := perform_statement found performed
    rcases replaced.kept running with inside | kept
    · cases List.mem_singleton.mp inside
      cases ran
    · exact Or.inl kept
  | funcReturn found performed =>
    obtain ⟨code, replaced, -⟩ := perform_statement found performed
    rcases replaced.kept running with inside | kept
    · cases List.mem_singleton.mp inside
      exact Or.inr ⟨_, _, _, rfl, found⟩
    · exact Or.inl kept
  | execute found control allowed performed =>
    obtain ⟨replaced, -⟩ := perform_entry found performed
    exact Or.inl ((replaced.kept running).resolve_left (List.not_mem_nil))
  | destroy found control outside first idle performed =>
    obtain ⟨replaced, -⟩ := perform_entry found performed
    exact Or.inl ((replaced.kept running).resolve_left (List.not_mem_nil))

/-- A statement of the pool is a move of at most one task. -/
theorem statement_move {thread woken : Nat} {c : PoolCode} {base : List (Instr V ε PoolCode)}
    {pool : Pool V ε} {next : List PoolCode} {api : Option (Api V ε)}
    (found : σ.runtime.threads[thread]? = some (.external c :: base))
    (ran : σ.pool.run σ.runtime.heap σ.finished workers thread woken c = some (pool, next, api))
    (performed : σ.perform thread true pool next api = some σ') :
    TaskMove σ.pool σ.runtime.heap {c} σ'.pool σ'.runtime.heap (next : Multiset PoolCode) := by
  obtain ⟨code, -, same, begun⟩ := perform_statement found performed
  have move := Pool.run_move (R := 0) ran begun
  rw [same]
  rwa [Multiset.cons_zero, add_zero] at move

/-- The result of a callable is set when it returns. -/
theorem Stepped.results (stepped : Stepped workers σ σ' event) :
    σ'.pool.results = σ.pool.results ∨ ∃ thread result task base,
      event = .funcReturn thread result ∧
      σ.runtime.threads[thread]? = some (.external (.func task) :: base) ∧
      σ'.pool.results = Function.update σ.pool.results task.promise (some result) := by
  cases stepped with
  | library disciplined running same step => exact Or.inl (congrArg Pool.results same)
  | statement found ran performed =>
    refine Or.inl ((statement_move found ran performed).results.resolve_right ?_)
    rintro ⟨task, inside⟩
    cases Multiset.mem_singleton.mp inside
    cases ran
  | funcReturn found performed =>
    obtain ⟨code, -, same, -⟩ := perform_statement found performed
    exact Or.inr ⟨_, _, _, _, rfl, found, congrArg Pool.results same⟩
  | execute found control allowed performed =>
    exact Or.inl (congrArg Pool.results (perform_entry found performed).2.1)
  | destroy found control outside first idle performed =>
    have same := (perform_entry found performed).2.1
    refine Or.inl ?_
    rw [same]

/-- Tasks are never unmade. -/
theorem Stepped.made (stepped : Stepped workers σ σ' event) {task : Task}
    (made : task ∈ σ.pool.made) : task ∈ σ'.pool.made := by
  cases stepped with
  | library disciplined running same step => exact same ▸ made
  | statement found ran performed => exact (statement_move found ran performed).made_kept made
  | funcReturn found performed =>
    obtain ⟨code, -, same, -⟩ := perform_statement found performed
    exact same ▸ made
  | execute found control allowed performed => exact (perform_entry found performed).2.1 ▸ made
  | destroy found control outside first idle performed =>
    exact (perform_entry found performed).2.1 ▸ made

/-- The promise of a task ends when a worker releases the task, or in the queue. -/
theorem Stepped.destroyed (stepped : Stepped workers σ σ' event) {task : Task}
    (made : task ∈ σ.pool.made) (alive : σ.runtime.heap.destroyed task.promise = false)
    (gone : σ'.runtime.heap.destroyed task.promise = true) :
    (∃ thread woken other base, event = .run thread woken ∧ other.promise = task.promise ∧
      σ.runtime.threads[thread]? = some (.external (.release other) :: base)) ∨
    ∃ thread woken, ∃ other ∈ σ.pool.tasks, ∃ base, event = .run thread woken ∧
      other.promise = task.promise ∧
      σ.runtime.threads[thread]? = some (.external .shutdownDestroyRemainingTasks :: base) := by
  have changed : σ'.runtime.heap.destroyed task.promise ≠
      σ.runtime.heap.destroyed task.promise := by
    rw [alive, gone]
    exact Bool.true_eq_false_eq_False
  cases stepped with
  | library disciplined running same step =>
    exact absurd (step.spares.destroyed _ (List.mem_map_of_mem made)) changed
  | @statement thread woken c base pool next api found ran performed =>
    obtain ⟨code, -, -, begun⟩ := perform_statement found performed
    have spec := Pool.run_ran ran
    by_cases about : ∀ call, api = some call → task.promise ∉ call.promise
    · exact absurd (begun.spares.destroyed _ about) changed
    push Not at about
    obtain ⟨call, rfl, own⟩ := about
    cases call with
    | complete s result => exact absurd rfl (spec.completes s result)
    | destroyPromise s =>
      obtain rfl : s = task.promise := Option.some.inj own
      rcases spec.destroys _ rfl with ⟨other, rfl, same, -⟩ | ⟨other, queued, rfl, same, -⟩
      · exact Or.inl ⟨thread, woken, other, base, rfl, same, found⟩
      · exact Or.inr ⟨thread, woken, other, queued, base, rfl, same, found⟩
    | _ => cases own
  | funcReturn found performed =>
    obtain ⟨code, -, -, begun⟩ := perform_statement found performed
    obtain ⟨-, same⟩ := Option.ite_none_right_eq_some.mp begun
    have heap := congrArg Prod.fst (Option.some.inj same)
    exact absurd (congrArg (fun h => h.destroyed task.promise) heap.symm) changed
  | execute found control allowed performed =>
    have heap := (perform_entry found performed).2.2
    exact absurd (congrArg (fun h => h.destroyed task.promise) heap) changed
  | destroy found control outside first idle performed =>
    have heap := (perform_entry found performed).2.2
    exact absurd (congrArg (fun h => h.destroyed task.promise) heap) changed

namespace Ok

/-- Every step is a run of the runtime below. -/
theorem replays (ok : σ.Ok workers) (stepped : Stepped workers σ σ' event) :
    ∃ events, (Async.runtime V ε PoolCode).replay σ.runtime events = some σ'.runtime := by
  have nothing : Owed σ.runtime none := trivial
  cases stepped with
  | @library event below thread old new base disciplined running same step reason =>
    have stepped : (Async.runtime V ε PoolCode).step σ.runtime below = some σ'.runtime :=
      System.under_step.mpr ⟨disciplined, running⟩
    refine ⟨[below], ?_⟩
    rw [System.replay, stepped]
    rfl
  | statement found ran performed =>
    exact perform_replays (ok.statement_owed found (Pool.run_ran ran)) performed
  | @funcReturn thread task base result found performed =>
    obtain ⟨R, codes⟩ := poolCode_split found
    have alive := Pool.Ledger.held_alone (codes ▸ ok.ledger) rfl |>.2.2
    have owed : Owed σ.runtime (some (.complete task.promise result)) := alive
    exact perform_replays owed performed
  | execute found control allowed performed => exact perform_replays nothing performed
  | destroy found control outside first idle performed => exact perform_replays nothing performed

/-- Nothing that was made or decided is taken back. -/
theorem later (ok : σ.Ok workers) (stepped : Stepped workers σ σ' event) :
    σ.runtime.heap.Later σ'.runtime.heap := by
  obtain ⟨events, replayed⟩ := ok.replays stepped
  exact replay_later ok.reached replayed

variable {task : Task}

/-- A task whose callable has not ended and whose promise exists has an undecided future. -/
theorem unended (ok : σ.Ok workers) (made : task ∈ σ.pool.made)
    (alive : σ.runtime.heap.destroyed task.promise = false)
    (received : σ.runtime.heap.received task.promise = []) :
    ¬ σ.runtime.heap.Decided task.promise := by
  have inv := (Config.ok ok.reached).inv
  have bound := inv.decisions.receivedLe task.promise (Or.inl (ok.made_origin made))
  rw [received, List.length_nil] at bound
  exact ok.unwalked_undecided made alive (by omega)

/-- The future of a task is undecided while its callable runs. -/
theorem running_undecided (ok : σ.Ok workers)
    (running : .external (.func task) ∈ σ.runtime.pending) :
    ¬ σ.runtime.heap.Decided task.promise := by
  have code := mem_poolCode.mpr running
  obtain ⟨made, runs, -⟩ := ok.ledger.held _ code task .running rfl
  obtain ⟨R, split⟩ := Multiset.exists_cons_of_mem code
  have alive := Pool.Ledger.held_alone (split ▸ ok.ledger) rfl |>.2.2
  exact ok.unended made alive runs.received

/-- A decided future belongs to a task whose callable has ended or whose promise has. -/
theorem decided_ended (ok : σ.Ok workers) (made : task ∈ σ.pool.made)
    (decided : σ.runtime.heap.Decided task.promise) :
    (∃ result, σ.pool.results task.promise = some result) ∨
      σ.runtime.heap.destroyed task.promise = true := by
  rcases ok.ledger.place_cases made with queued | ⟨c, code, stage, holding⟩ | destroyed
  · obtain ⟨-, -, alive⟩ := ok.ledger.queued_alone queued
    exact absurd decided (ok.unended made alive (ok.ledger.queued task queued).2.received)
  · obtain ⟨R, split⟩ := Multiset.exists_cons_of_mem code
    have alive := Pool.Ledger.held_alone (split ▸ ok.ledger) holding |>.2.2
    have stageOk := (ok.ledger.held c code task stage holding).2
    cases stage with
    | fresh => exact absurd decided (ok.unended made alive (Pool.Fresh.received stageOk))
    | taken => exact absurd decided (ok.unended made alive stageOk.1.received)
    | running => exact absurd decided (ok.unended made alive stageOk.1.received)
    | finished =>
      obtain ⟨result, returned, -⟩ := Pool.Finished.received stageOk
      exact Or.inl ⟨result, returned⟩
  · exact Or.inr destroyed

/-- The callable of a task that a worker releases has ended. -/
theorem release_ended (ok : σ.Ok workers)
    (pending : .external (.release task) ∈ σ.runtime.pending) :
    ∃ result, σ.pool.results task.promise = some result := by
  obtain ⟨-, finished⟩ := ok.ledger.held _ (mem_poolCode.mpr pending) task .finished rfl
  obtain ⟨result, returned, -⟩ := Pool.Finished.received finished
  exact ⟨result, returned⟩

end Ok

/-- Only tasks have results. -/
theorem results_made {σ : PoolConfig V ε} (reached : (poolSystem V ε workers).Reachable σ)
    {p : StateId} {result : Result V ε} (returned : σ.pool.results p = some result) :
    ∃ task ∈ σ.pool.made, task.promise = p := by
  induction reached with
  | start initial =>
    obtain ⟨outside, rfl⟩ := initial
    cases returned
  | @next before after event reached stepped ih =>
    have ok := PoolConfig.ok reached
    have kind := ok.stepped stepped
    have earlier (was : before.pool.results p = some result) :
        ∃ task ∈ after.pool.made, task.promise = p := by
      obtain ⟨task, made, promise⟩ := ih was
      exact ⟨task, kind.made made, promise⟩
    rcases kind.results with same | ⟨thread, value, task, base, -, top, set⟩
    · exact earlier (congrFun same p ▸ returned)
    · by_cases own : p = task.promise
      · obtain ⟨R, codes⟩ := Ok.poolCode_split top
        have code : .func task ∈ poolCode before.runtime.pending :=
          codes ▸ Multiset.mem_cons_self _ R
        exact ⟨task, kind.made (ok.ledger.held _ code task .running rfl).1, own.symm⟩
      · rw [set, Function.update_of_ne own] at returned
        exact earlier returned

/-- The thread that is about to make a task makes the one with the next promise. -/
theorem makeTask_made {σ σ' : PoolConfig V ε} {thread woken : Nat} {isVoid : Bool}
    {dependencies : List StateId} {dependency : StateId} {base : List (Instr V ε PoolCode)}
    (found : σ.runtime.threads[thread]? =
      some (.external (.makeTask isVoid dependencies dependency) :: base))
    (stepped : σ.step workers (.run thread woken) = some σ') :
    (∃ task ∈ σ'.pool.made, task.promise = σ.runtime.heap.next) ∧
      σ'.runtime.heap.destroyed = σ.runtime.heap.destroyed := by
  simp only [PoolConfig.step, found] at stepped
  obtain ⟨⟨pool, next, api⟩, ran, performed⟩ := Option.bind_eq_some_iff.mp stepped
  obtain ⟨code, -, same, begun⟩ := perform_statement found performed
  cases ran
  constructor
  · rw [same]
    exact ⟨_, List.mem_append_right _ (List.mem_singleton_self _), rfl⟩
  · exact congrArg (fun made => Heap.destroyed (Prod.fst made)) (Option.some.inj begun).symm

/-- The future of a `WhenAll` call of the program is the next state. -/
theorem whenAll_made {σ σ' : PoolConfig V ε} {thread : Nat} {inputs : List StateId}
    (stepped : σ.step workers (.call thread (.whenAll inputs)) = some σ') :
    σ'.runtime.heap.origin σ.runtime.heap.next = some (.whenAll inputs) := by
  obtain ⟨-, called⟩ := Option.ite_none_right_eq_some.mp stepped
  obtain ⟨next, taken, rfl⟩ := Option.map_eq_some_iff.mp called
  simp only [Config.step] at taken
  split at taken
  case h_1 stack found =>
    obtain ⟨-, same⟩ := Option.ite_none_right_eq_some.mp taken
    obtain ⟨⟨heap, new⟩, begun, rfl⟩ := Option.map_eq_some_iff.mp same
    obtain ⟨-, made⟩ := Option.ite_none_right_eq_some.mp begun
    cases made
    exact Function.update_self _ _ _
  case h_2 => cases taken

/-- The promise of a task was there before anything that is not allocated yet. -/
theorem Ok.promise_lt {σ : PoolConfig V ε} (ok : σ.Ok workers) {task : Task}
    (made : task ∈ σ.pool.made) : task.promise < σ.runtime.heap.next :=
  (Config.ok ok.reached).inv.layout.lt_next (ok.made_origin made)

end PoolConfig

end Azul.Async
