import Azul.Async.WorkerStacks

/-!
# What comes out of a task

A result is given to the promise of its task as the callable returns, and the future of the task
holds that result from its completion on. Only the destructor ends a promise without a result, after
all workers have finished; so whatever a running callable finds decided was completed.
-/

namespace Azul.Async

open Foundation

variable {V ε : Type}

section Moves

variable {pool pool' : Pool V ε} {h h' : Heap V ε} {C C' : Multiset PoolCode}

/-- Nothing is given to a promise but by the return of a callable. -/
theorem TaskMove.received (move : TaskMove pool h C pool' h' C') (idle : ∀ task, .func task ∉ C)
    {task : Task} (made : task ∈ pool.made) :
    h'.received task.promise = h.received task.promise ∧
      pool'.results task.promise = pool.results task.promise := by
  cases move with
  | other same destroyed received => exact ⟨received task made, congrFun same.results _⟩
  | advance same => exact ⟨rfl, congrFun same.results _⟩
  | whenAll origin destroyed received => exact ⟨congrFun received _, rfl⟩
  | emplaceBack same => exact ⟨rfl, congrFun same.results _⟩
  | funcReturn => exact absurd (Multiset.mem_cons_self _ _) (idle _)
  | makeTask | nextTask | call | release | clear => exact ⟨rfl, rfl⟩

end Moves

namespace PoolConfig

variable {workers : Nat} {σ σ' : PoolConfig V ε} {event : PoolEvent V ε} {task : Task}

namespace Stepped

/-- A step makes at most one task, with the next promise, and then destroys none. -/
theorem made_grows (stepped : Stepped workers σ σ' event) : σ'.pool.made = σ.pool.made ∨
    ∃ task, σ'.pool.made = σ.pool.made ++ [task] ∧ task.promise = σ.runtime.heap.next ∧
      σ'.runtime.heap.destroyed = σ.runtime.heap.destroyed := by
  cases stepped with
  | library disciplined running same step => exact Or.inl (congrArg Pool.made same)
  | statement found ran performed =>
    obtain ⟨_, _, same, begun⟩ := perform_statement found performed
    rw [same]
    cases Pool.run_did ran with
    | makeTask promise =>
      have destroyed := congrArg (fun made => Heap.destroyed (Prod.fst made))
        (Option.some.inj begun)
      exact Or.inr ⟨_, rfl, promise, destroyed.symm⟩
    | _ => exact Or.inl rfl
  | funcReturn found performed =>
    obtain ⟨_, _, same, _⟩ := perform_statement found performed
    rw [same]
    exact Or.inl rfl
  | execute found control allowed performed =>
    exact Or.inl (congrArg Pool.made (perform_entry found performed).2.1)
  | destroy found control outside first idle performed =>
    rw [(perform_entry found performed).2.1]
    exact Or.inl rfl

/-- What is given to the promise of a task is given as its callable returns. -/
theorem received (stepped : Stepped workers σ σ' event) (made : task ∈ σ.pool.made) :
    σ'.runtime.heap.received task.promise = σ.runtime.heap.received task.promise ∧
      σ'.pool.results task.promise = σ.pool.results task.promise ∨
    σ'.runtime.heap.received task.promise ≠ [] ∧
      ∃ (thread : Nat) (other : Task) (base : List (Instr V ε PoolCode)),
        σ.runtime.threads[thread]? = some (.external (.func other) :: base) ∧
          other.promise = task.promise := by
  cases stepped with
  | library disciplined running same step =>
    left
    rw [same]
    exact ⟨step.spares.received _ (List.mem_map_of_mem made), rfl⟩
  | statement found ran performed =>
    left
    apply (statement_move found ran performed).received _ made
    intro other inside
    rw [← Multiset.mem_singleton.mp inside] at ran
    cases ran
  | @funcReturn thread other base result found performed =>
    obtain ⟨code, _, same, begun⟩ := perform_statement found performed
    obtain ⟨_, made⟩ := Option.ite_none_right_eq_some.mp begun
    have heap : σ.runtime.heap.receive other.promise result = σ'.runtime.heap :=
      congrArg Prod.fst (Option.some.inj made)
    rw [← heap, same]
    by_cases own : task.promise = other.promise
    · right
      refine ⟨?_, thread, other, base, found, own.symm⟩
      show Function.update σ.runtime.heap.received other.promise
        (σ.runtime.heap.received other.promise ++ [result]) task.promise ≠ []
      rw [own, Function.update_self]
      exact List.append_ne_nil_of_right_ne_nil _ (List.cons_ne_nil _ _)
    · exact Or.inl ⟨Function.update_of_ne own _ _, Function.update_of_ne own _ _⟩
  | execute found control allowed performed =>
    obtain ⟨_, same, heap⟩ := perform_entry found performed
    rw [same, heap]
    exact Or.inl ⟨rfl, rfl⟩
  | destroy found control outside first idle performed =>
    obtain ⟨_, same, heap⟩ := perform_entry found performed
    rw [same, heap]
    exact Or.inl ⟨rfl, rfl⟩

/-- A worker that has finished stays so. -/
theorem finished (stepped : Stepped workers σ σ' event) {w : Nat} (bound : w < workers)
    (finished : σ.finished w = true) : σ'.finished w = true := by
  cases stepped with
  | library disciplined running same step =>
    exact finished_kept step.replaced step.awake bound finished
  | statement found ran performed =>
    obtain ⟨_, replaced, _⟩ := perform_statement found performed
    exact finished_kept replaced (Or.inr (List.cons_ne_nil _ _)) bound finished
  | funcReturn found performed =>
    obtain ⟨_, replaced, _⟩ := perform_statement found performed
    exact finished_kept replaced (Or.inr (List.cons_ne_nil _ _)) bound finished
  | execute found control allowed performed =>
    obtain ⟨replaced, _⟩ := perform_entry found performed
    exact finished_kept replaced (awake_of_inProgram found control) bound finished
  | destroy found control outside first idle performed =>
    obtain ⟨replaced, _⟩ := perform_entry found performed
    exact finished_kept replaced (awake_of_inProgram found control) bound finished

/-- An invocation is not taken back. -/
theorem invocations (stepped : Stepped workers σ σ' event) (p : StateId) :
    σ.pool.invocations p ≤ σ'.pool.invocations p := by
  cases stepped with
  | library disciplined running same step => rw [same]
  | statement found ran performed =>
    obtain ⟨_, _, same, _⟩ := perform_statement found performed
    rw [same]
    cases Pool.run_did ran with
    | @call task =>
      show _ ≤ Function.update σ.pool.invocations task.promise _ p
      by_cases own : p = task.promise
      · rw [own, Function.update_self]
        exact Nat.le_succ _
      · rw [Function.update_of_ne own]
    | _ => exact Nat.le_refl _
  | funcReturn found performed =>
    obtain ⟨_, _, same, _⟩ := perform_statement found performed
    rw [same]
  | execute found control allowed performed => rw [(perform_entry found performed).2.1]
  | destroy found control outside first idle performed =>
    rw [(perform_entry found performed).2.1]

end Stepped

/-- A result was given to its promise. -/
theorem results_received (reached : (poolSystem V ε workers).Reachable σ) {p : StateId}
    {result : Result V ε} (returned : σ.pool.results p = some result) :
    σ.runtime.heap.received p ≠ [] := by
  induction reached with
  | start initial =>
    obtain ⟨outside, same⟩ := initial
    rw [same] at returned
    cases returned
  | @next before after event reached stepped ih =>
    have ok := PoolConfig.ok reached
    have kind := ok.stepped stepped
    have known : ∃ task ∈ before.pool.made, task.promise = p := by
      cases kind.results with
      | inl same =>
        rw [same] at returned
        exact results_made reached returned
      | inr returns =>
        obtain ⟨thread, value, task, base, _, top, set⟩ := returns
        by_cases own : p = task.promise
        · obtain ⟨rest, codes⟩ := Ok.poolCode_split top
          have code : .func task ∈ poolCode before.runtime.pending := by
            rw [codes]
            exact Multiset.mem_cons_self _ rest
          exact ⟨task, (ok.ledger.held _ code task .running rfl).1, own.symm⟩
        · rw [set, Function.update_of_ne own] at returned
          exact results_made reached returned
    obtain ⟨task, made, promise⟩ := known
    rw [← promise] at returned ih ⊢
    cases kind.received made with
    | inl same =>
      rw [same.2] at returned
      rw [same.1]
      exact ih returned
    | inr given => exact given.1

/-- A promise that ends without a call ends in the destructor, when all workers have finished. -/
theorem uncalled_finished (reached : (poolSystem V ε workers).Reachable σ)
    (made : task ∈ σ.pool.made) (gone : σ.runtime.heap.destroyed task.promise = true)
    (uncalled : σ.pool.invocations task.promise = 0) {w : Nat} (bound : w < workers) :
    σ.finished w = true := by
  induction reached with
  | start initial =>
    obtain ⟨outside, same⟩ := initial
    rw [same] at made
    cases made
  | @next before after event reached stepped ih =>
    have ok := PoolConfig.ok reached
    have kind := ok.stepped stepped
    have fewer := kind.invocations task.promise
    have still : before.pool.invocations task.promise = 0 := by omega
    apply kind.finished bound
    by_cases known : task ∈ before.pool.made
    · cases alive : before.runtime.heap.destroyed task.promise with
      | true => exact ih known alive still
      | false =>
        cases kind.destroyed known alive gone with
        | inl releases =>
          obtain ⟨thread, woken, other, base, _, promise, found⟩ := releases
          have pending : .release other ∈ poolCode before.runtime.pending := mem_poolCode.mpr
            (Stacks.mem_pending.mpr ⟨_, List.mem_of_getElem? found, List.mem_cons_self⟩)
          have finished := (ok.ledger.held _ pending other .finished rfl).2
          have once := Pool.Finished.invocations finished
          rw [promise, still] at once
          cases once
        | inr clears =>
          obtain ⟨thread, woken, other, _, base, _, _, found⟩ := clears
          have pending : .shutdownDestroyRemainingTasks ∈ poolCode before.runtime.pending :=
            mem_poolCode.mpr
              (Stacks.mem_pending.mpr ⟨_, List.mem_of_getElem? found, List.mem_cons_self⟩)
          exact ok.placed.joined _ pending w bound rfl
    · -- a task that was just made has not ended
      exfalso
      cases kind.made_grows with
      | inl same =>
        rw [same] at made
        exact known made
      | inr grows =>
        obtain ⟨fresh, same, promise, destroyed⟩ := grows
        rw [same] at made
        have is := List.mem_singleton.mp ((List.mem_append.mp made).resolve_left known)
        rw [is, promise, destroyed, ok.blank.destroyed] at gone
        cases gone

/-- The future of a task whose callable has ended holds its result as soon as it is decided. -/
theorem completed (reached : (poolSystem V ε workers).Reachable σ) (made : task ∈ σ.pool.made)
    {result : Result V ε} (returned : σ.pool.results task.promise = some result)
    (decided : σ.runtime.heap.Decided task.promise) :
    σ.runtime.heap.outcome task.promise = some result.outcome := by
  have ok := PoolConfig.ok reached
  have decisions := (Config.ok ok.reached).inv.decisions
  have given := results_received reached returned
  have promised : σ.runtime.heap.Promised task.promise := Or.inl (ok.made_origin made)
  have walked : 0 < σ.runtime.heap.walks task.promise := by
    have effect := decisions.receivedGe task.promise promised given
    by_contra unwalked
    have deciding : 0 < Stacks.count σ.runtime.pending (Instr.decidesOn task.promise) := by omega
    obtain ⟨x, pending, decides⟩ := Stacks.count_pos.mp deciding
    exact ok.undecided made pending decides decided
  rcases ok.ledger.past made with fresh | running | finished
  · exact absurd fresh.received given
  · exact absurd running.received given
  · obtain ⟨other, same, received⟩ := finished.received
    rw [returned] at same
    rw [Option.some.inj same]
    exact decisions.receivedOutcome task.promise promised other received walked

/-- What a running callable may read was completed. -/
theorem dependency_completed (reached : (poolSystem V ε workers).Reachable σ)
    (running : .external (.func task) ∈ σ.runtime.pending) {other : Task}
    (made : other ∈ σ.pool.made) (depends : other.promise ∈ task.dependencies) :
    ∃ result, σ.pool.results other.promise = some result ∧
      σ.runtime.heap.outcome other.promise = some result.outcome := by
  have ok := PoolConfig.ok reached
  have decided := ok.dependencies running rfl (Or.inr rfl) depends
  have returned : ∃ result, σ.pool.results other.promise = some result := by
    cases ok.decided_ended made decided with
    | inl returned => exact returned
    | inr destroyed =>
      cases ok.ledger.ended other made destroyed with
      | inl fresh =>
        -- a worker runs the callable, so it has not finished
        exfalso
        obtain ⟨stack, member, inside⟩ := Stacks.mem_pending.mp running
        obtain ⟨thread, found⟩ := List.getElem?_of_mem member
        have bound := ok.worker_lt found inside rfl
        have ended := finished_iff.mp
          (uncalled_finished reached made destroyed fresh.invocations bound)
        rw [found] at ended
        rw [Option.some.inj ended] at inside
        cases inside
      | inr finished =>
        obtain ⟨result, returned, _⟩ := finished.received
        exact ⟨result, returned⟩
  obtain ⟨result, returned⟩ := returned
  exact ⟨result, returned, completed reached made returned decided⟩

/-- A callable that runs has no result yet. -/
theorem running_unreturned (reached : (poolSystem V ε workers).Reachable σ)
    (running : .external (.func task) ∈ σ.runtime.pending) :
    σ.pool.results task.promise = none := by
  have ok := PoolConfig.ok reached
  have stage := (ok.ledger.held _ (mem_poolCode.mpr running) task .running rfl).2
  cases returned : σ.pool.results task.promise with
  | none => rfl
  | some result => exact absurd stage.1.received (results_received reached returned)

end PoolConfig

end Azul.Async
