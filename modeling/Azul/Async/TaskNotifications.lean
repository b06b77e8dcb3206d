import Azul.Async.BlockingReturns
import Azul.Async.WorkerStacks

/-!
# Who will look at a task

A worker that is about to sleep, or that sleeps and was not woken, looks at no task before something
else wakes it, and a worker that is in `NextTask` does not return to the elements behind it. All
other workers will come to every task. What makes a queued task ready is followed by a notification
if it is `Execute`, and by another iteration of `ThreadLoop` if it happens on a worker; on a thread
of the program nothing follows, and so the task has to rely on the workers that are awake.
-/

namespace Azul.Async

open Foundation

variable {V ε : Type}

/-- A worker that executes this code of `ThreadLoop` comes to an element of `_tasks` before it
sleeps. -/
def PoolCode.watches (asleep : Bool) (index : Nat) : PoolCode → Bool
  | .nextTask i => i ≤ index
  | .noTask => false
  | .waitFor => !asleep
  | _ => true

namespace PoolConfig

section Definitions

variable (workers : Nat) (σ : PoolConfig V ε)

/-- The code of `ThreadLoop` that a worker is in. -/
def workerCode (w : Nat) : Option PoolCode :=
  (σ.runtime.threads[w]?.bind List.getLast?).bind Instr.code

/-- A worker comes to an element of `_tasks` before it sleeps. -/
def Watches (w index : Nat) : Prop :=
  (σ.workerCode w).any (PoolCode.watches (decide (w ∈ σ.pool.sleeping)) index) = true

/-- Some worker comes to an element of `_tasks` before it sleeps. -/
def Watched (index : Nat) : Prop := ∃ w < workers, σ.Watches w index

instance (w index : Nat) : Decidable (σ.Watches w index) := inferInstanceAs (Decidable (_ = true))

instance (index : Nat) : Decidable (σ.Watched workers index) :=
  inferInstanceAs (Decidable (∃ w < workers, σ.Watches w index))

/-- The state that a thread is about to decide. -/
def notifies (thread : Nat) : Option StateId :=
  match σ.runtime.threads[thread]? with
  | some (x :: _) => x.notifies σ.runtime.heap
  | _ => none

/-- Before the shutdown, when a thread of the program makes a queued task ready, some worker comes
to the task before it sleeps. -/
def Noticed : PoolEvent V ε → Prop
  | .run thread _ => σ.pool.destroying = false → workers ≤ thread → ∀ s ∈ σ.notifies thread,
    ∀ index < σ.pool.tasks.length, ∀ task ∈ σ.pool.tasks[index]?, task.dependency = some s →
      σ.Watched workers index
  | _ => True

instance : (event : PoolEvent V ε) → Decidable (σ.Noticed workers event)
  | .run thread _ =>
    inferInstanceAs (Decidable (σ.pool.destroying = false → workers ≤ thread →
      ∀ s ∈ σ.notifies thread, ∀ index < σ.pool.tasks.length, ∀ task ∈ σ.pool.tasks[index]?,
        task.dependency = some s → σ.Watched workers index))
  | .ret _ _ | .call _ _ | .execute _ _ _ | .funcReturn _ _ | .destroy _ =>
    inferInstanceAs (Decidable True)

/-- A worker is blocked in `_condition.wait_for` and was not notified. -/
def Blocked (w : Nat) : Prop :=
  σ.runtime.threads[w]? = some [.external .waitFor] ∧ w ∈ σ.pool.sleeping

/-- Some worker comes to every queued task that is ready before it sleeps. -/
def Vigilant : Prop :=
  ∀ (index : Nat) (task : Task), σ.pool.tasks[index]? = some task →
    task.isReady σ.runtime.heap = true → σ.Watched workers index

end Definitions

variable {workers : Nat} {σ σ' : PoolConfig V ε} {thread w index : Nat}
  {old new base stack : List (Instr V ε PoolCode)} {c : PoolCode}

/-! ## The code of a worker -/

theorem workerCode_eq (found : σ.runtime.threads[w]? = some stack) (working : Working stack c) :
    σ.workerCode w = some c := by
  obtain ⟨_, above, same, _⟩ := working
  unfold workerCode
  rw [found, same, Option.bind_some, List.getLast?_concat]
  rfl

/-- A blocked worker looks at nothing. -/
theorem Blocked.not_watches (blocked : σ.Blocked w) : ¬ σ.Watches w index := by
  obtain ⟨found, asleep⟩ := blocked
  have code : σ.workerCode w = some .waitFor := by
    unfold workerCode
    rw [found]
    rfl
  unfold Watches
  rw [code, decide_eq_true asleep]
  exact Bool.false_ne_true

/-- A worker that something else runs on looks at everything when that has ended. -/
theorem Watches.of_base (code : σ.workerCode w = some c) (lets : c.isBase = true) :
    σ.Watches w index := by
  unfold Watches
  rw [code]
  cases c with
  | func | relock | loop => rfl
  | _ => cases lets

/-- A worker whose code does not change looks at the same, unless it falls asleep. -/
theorem Watches.kept (same : σ'.workerCode w = σ.workerCode w)
    (fewer : w ∈ σ'.pool.sleeping → w ∈ σ.pool.sleeping) (watches : σ.Watches w index) :
    σ'.Watches w index := by
  unfold Watches at watches ⊢
  rw [same]
  by_cases asleep : w ∈ σ'.pool.sleeping
  · rw [decide_eq_true asleep]
    rwa [decide_eq_true (fewer asleep)] at watches
  · rw [decide_eq_false asleep]
    cases code : σ.workerCode w with
    | none =>
      rw [code] at watches
      cases watches
    | some c =>
      rw [code] at watches
      cases c with
      | waitFor => rfl
      | _ => exact watches

/-- The code of other workers does not change. -/
theorem workerCode_other (replaced : Replaced σ.runtime σ'.runtime thread old new base)
    (other : thread ≠ w) : σ'.workerCode w = σ.workerCode w := by
  unfold workerCode
  rw [replaced.threads, if_neg other]

/-- The code of a worker does not change above itself. -/
theorem workerCode_below (replaced : Replaced σ.runtime σ'.runtime thread old new base)
    (some : base ≠ []) : σ'.workerCode thread = σ.workerCode thread := by
  unfold workerCode
  rw [replaced.threads, if_pos rfl, replaced.found, Option.bind_some, Option.bind_some,
    List.getLast?_append_of_ne_nil _ some, List.getLast?_append_of_ne_nil _ some]

namespace Staffed

/-- Before the shutdown every worker is in `ThreadLoop`. -/
theorem bottom (staffed : σ.Staffed workers) (running : σ.pool.destroying = false)
    (bound : w < workers) :
    ∃ stack c, σ.runtime.threads[w]? = some stack ∧ Working stack c := by
  obtain ⟨stack, found, kind⟩ := staffed.working w bound
  cases kind with
  | inl leaves =>
    have shut := staffed.initiated leaves.2
    rw [running] at shut
    cases shut
  | inr works =>
    obtain ⟨c, works⟩ := works
    exact ⟨stack, c, found, works⟩

/-- What is not code of `ThreadLoop` leaves the workers where they are. -/
theorem workerCode_plain (staffed : σ.Staffed workers)
    (replaced : Replaced σ.runtime σ'.runtime thread old new base)
    (plain : ∀ x ∈ old, x.isWorker = false) (awake : workers ≤ thread ∨ old ++ base ≠ [])
    (bound : w < workers) : σ'.workerCode w = σ.workerCode w := by
  by_cases same : thread = w
  · rw [← same] at bound ⊢
    apply workerCode_below replaced
    obtain ⟨stack, found, kind⟩ := staffed.working thread bound
    rw [replaced.found] at found
    rw [← Option.some.inj found] at kind
    cases kind with
    | inl leaves => exact absurd leaves.1 (awake.resolve_left (Nat.not_le_of_lt bound))
    | inr works =>
      obtain ⟨c, worker, above, is, _⟩ := works
      intro none
      rw [none, List.append_nil] at is
      have clash := plain (.external c) (by
        rw [is]
        exact List.mem_append_right _ List.mem_cons_self)
      change c.isWorker = false at clash
      rw [worker] at clash
      cases clash
  · exact workerCode_other replaced same

/-- Before the shutdown no worker has ended. -/
theorem workerCode_kept (staffed : σ.Staffed workers) (running : σ.pool.destroying = false)
    (replaced : Replaced σ.runtime σ'.runtime thread old new base)
    (plain : ∀ x ∈ old, x.isWorker = false) (bound : w < workers) :
    σ'.workerCode w = σ.workerCode w := by
  apply staffed.workerCode_plain replaced plain _ bound
  by_cases worker : thread < workers
  · right
    obtain ⟨stack, c, found, _, above, is, _⟩ := staffed.bottom running worker
    rw [replaced.found] at found
    rw [Option.some.inj found, is]
    exact List.append_ne_nil_of_right_ne_nil _ nofun
  · exact Or.inl (Nat.le_of_not_lt worker)

/-- A worker above whose code something runs will look at everything. -/
theorem watches_below (staffed : σ.Staffed workers) (running : σ.pool.destroying = false)
    {x : Instr V ε PoolCode} (found : σ.runtime.threads[thread]? = some (x :: base))
    (plain : x.isWorker = false) (bound : thread < workers) : σ.Watches thread index := by
  obtain ⟨stack, c, here, works⟩ := staffed.bottom running bound
  rw [found] at here
  have code := workerCode_eq found (Option.some.inj here ▸ works)
  apply Watches.of_base code
  obtain ⟨worker, above, same, _, lower⟩ := works
  apply lower
  intro none
  rw [← Option.some.inj here, none, List.nil_append] at same
  rw [(List.cons.inj same).1] at plain
  change c.isWorker = false at plain
  rw [worker] at plain
  cases plain

end Staffed

/-! ## How a task becomes ready -/

/-- A call that begins decides nothing. -/
theorem begun_cell {h h' : Heap V ε} {api : Option (Api V ε)} {code : List (Instr V ε PoolCode)}
    (begun : Begun h api h' code) : h'.cell = h.cell := by
  cases api with
  | none => rw [begun.1]
  | some api => exact begin_cell begun

theorem isReady_of_cell {h h' : Heap V ε} {task : Task} (same : h'.cell = h.cell)
    (ready : task.isReady h' = true) : task.isReady h = true := by
  unfold Task.isReady at ready ⊢
  rwa [same] at ready

/-- The stack after a step determines what the step has put on it. -/
theorem LibraryStep.put (step : LibraryStep workers σ thread σ'.runtime old new base)
    {heap : Heap V ε} {code : List (Instr V ε PoolCode)}
    (same : σ.runtime.update thread heap (code ++ base) = σ'.runtime) :
    heap = σ'.runtime.heap ∧ code = new := by
  have bound := (List.getElem?_eq_some_iff.mp step.replaced.found).1
  refine ⟨congrArg Config.heap same, ?_⟩
  have stack := step.replaced.threads thread
  rw [if_pos rfl, ← same] at stack
  change (σ.runtime.threads.set thread (code ++ base))[thread]? = _ at stack
  rw [List.getElem?_set_self bound] at stack
  exact List.append_cancel_right (Option.some.inj stack)

/-- What an instruction of the library does. -/
theorem LibraryStep.executed {x : Instr V ε PoolCode}
    (step : LibraryStep workers σ thread σ'.runtime [x] new base)
    (running : σ.runtime.step (.run thread) = some σ'.runtime) :
    execute σ.runtime.heap x = some (σ'.runtime.heap, new) := by
  simp only [Config.step, step.replaced.found, List.singleton_append] at running
  obtain ⟨⟨heap, code⟩, executed, same⟩ := Option.map_eq_some_iff.mp running
  obtain ⟨is, put⟩ := step.put same
  rw [executed, ← is, ← put]

/-- What the end of a callable that `Then` attached does. -/
theorem LibraryStep.returned {d : StateId} {result : Result V ε}
    (step : LibraryStep workers σ thread σ'.runtime [.inCallable d] new base)
    (running : σ.runtime.step (.ret thread result) = some σ'.runtime) :
    σ'.runtime.heap = σ.runtime.heap.receive d result ∧
      ((∃ value, new = [.resolve d value]) ∨ ∃ error, new = [.setException d error]) := by
  simp only [Config.step, step.replaced.found, List.singleton_append] at running
  obtain ⟨_, same⟩ := Option.ite_none_right_eq_some.mp running
  cases result with
  | ok value =>
    have after : _ = σ'.runtime.heap ∧ [.resolve d value] = new := step.put (Option.some.inj same)
    obtain ⟨is, put⟩ := after
    exact ⟨is.symm, Or.inl ⟨value, put.symm⟩⟩
  | error error =>
    have after : _ = σ'.runtime.heap ∧ [.setException d error] = new :=
      step.put (Option.some.inj same)
    obtain ⟨is, put⟩ := after
    exact ⟨is.symm, Or.inr ⟨error, put.symm⟩⟩

/-- What a call of the library by the program does. -/
theorem LibraryStep.called {api : Api V ε}
    (step : LibraryStep workers σ thread σ'.runtime [] new base)
    (running : σ.runtime.step (.call thread api) = some σ'.runtime) :
    σ.runtime.heap.begin api = some (σ'.runtime.heap, new) := by
  simp only [Config.step, step.replaced.found, List.nil_append] at running
  obtain ⟨_, same⟩ := Option.ite_none_right_eq_some.mp running
  obtain ⟨⟨heap, code⟩, begun, same⟩ := Option.map_eq_some_iff.mp same
  obtain ⟨is, put⟩ := step.put same
  rw [begun, ← is, ← put]

/-- What becomes ready in a step of the library was decided by it. -/
theorem Ok.library_ready (ok : σ.Ok workers) {event : PoolEvent V ε} {below : Event V ε PoolCode}
    (running : σ.runtime.step below = some σ'.runtime)
    (step : LibraryStep workers σ thread σ'.runtime old new base)
    (reason : Reason workers σ thread old event below) {task : Task}
    (ready : task.isReady σ'.runtime.heap = true) : task.isReady σ.runtime.heap = true ∨
      ∃ x s woken, old = [x] ∧ event = .run thread woken ∧ σ.notifies thread = some s ∧
        task.dependency = some s := by
  cases reason with
  | ret d result =>
    left
    apply isReady_of_cell _ ready
    rw [(step.returned running).1]
  | call api control => exact Or.inl (isReady_of_cell (begin_cell (step.called running)) ready)
  | run x woken =>
    have found := step.replaced.found
    have typed := (Config.ok ok.reached).inv.layout.typed x
      (Stacks.mem_pending.mpr ⟨_, List.mem_of_getElem? found, List.mem_cons_self⟩)
    unfold Task.isReady at ready ⊢
    cases dependency : task.dependency with
    | none => exact Or.inl rfl
    | some s =>
      rw [dependency] at ready
      have decided : σ'.runtime.heap.Decided s := FutureState.isReady_iff.mp ready
      cases execute_notifies typed (step.executed running) decided with
      | inl before => exact Or.inl (FutureState.isReady_iff.mpr before)
      | inr notifies =>
        refine Or.inr ⟨x, s, woken, rfl, rfl, ?_, rfl⟩
        unfold PoolConfig.notifies
        rw [found]
        exact notifies

/-! ## The steps -/

namespace Vigilant

/-- Workers that stay where they are, or go on to code that looks at everything, come to the same
tasks. -/
theorem watched_kept (watched : σ.Watched workers index)
    (code : ∀ w < workers, σ'.workerCode w = σ.workerCode w)
    (fewer : σ'.pool.sleeping ⊆ σ.pool.sleeping) : σ'.Watched workers index := by
  obtain ⟨w, bound, watches⟩ := watched
  exact ⟨w, bound, watches.kept (code w bound) (fun asleep => fewer asleep)⟩

/-- When nobody is asleep, a worker comes to what `Execute` is about to queue. -/
theorem awake_watched (staffed : σ.Staffed workers) (running : σ.pool.destroying = false)
    (positive : 0 < workers) {task : Task}
    (found : σ.runtime.threads[thread]? = some (.external (.emplaceBack task) :: base))
    (nobody : σ.pool.sleeping = ∅) : σ.Watched workers index := by
  refine ⟨0, positive, ?_⟩
  by_cases here : thread = 0
  · rw [here] at found
    exact staffed.watches_below running found rfl positive
  · obtain ⟨stack, c, below, works⟩ := staffed.bottom running positive
    have code := workerCode_eq below works
    have owned := staffed.owner thread _ found _ List.mem_cons_self rfl
    have outside : c.isCritical = false := by
      apply Bool.eq_false_of_not_eq_true
      intro critical
      obtain ⟨_, above, same, _⟩ := works
      have inside : .external c ∈ stack := by
        rw [same]
        exact List.mem_append_right _ List.mem_cons_self
      have mine := staffed.owner 0 stack below c inside critical
      rw [owned] at mine
      exact here (Option.some.inj mine)
    unfold Watches
    rw [code, nobody]
    cases c with
    | nextTask | noTask => cases outside
    | _ => rfl

/-- A statement of `Execute` keeps the workers vigilant. -/
theorem execute (vigilant : σ.Vigilant workers) (staffed : σ.Staffed workers)
    (running : σ.pool.destroying = false) (positive : 0 < workers) {woken : Nat} {pool : Pool V ε}
    {next : List PoolCode} {api : Option (Api V ε)}
    (did : σ.pool.Did σ.runtime.heap workers thread woken c pool next api)
    (isExecute : c.isExecute = true)
    (found : σ.runtime.threads[thread]? = some (.external c :: base)) (same : σ'.pool = pool)
    (code : ∀ w < workers, σ'.workerCode w = σ.workerCode w)
    (cell : σ'.runtime.heap.cell = σ.runtime.heap.cell) : σ'.Vigilant workers := by
  intro index task queued ready
  have before := isReady_of_cell cell ready
  cases did with
  | execute | whenAll | makeTask | getFuture =>
    rw [same] at queued
    apply watched_kept (vigilant index task queued before) code
    exact (congrArg Pool.sleeping same).subset
  | @emplaceBack new wakes =>
    have fewer : σ'.pool.sleeping ⊆ σ.pool.sleeping := by
      rw [same]
      exact Finset.erase_subset _ _
    rw [same] at queued
    change (σ.pool.tasks ++ [new])[index]? = some task at queued
    by_cases old : index < σ.pool.tasks.length
    · rw [List.getElem?_append_left old] at queued
      exact watched_kept (vigilant index task queued before) code fewer
    · cases wakes with
      | inl nobody =>
        exact watched_kept (awake_watched staffed running positive found nobody) code fewer
      | inr asleep =>
        -- the new task wakes a worker
        obtain ⟨bound, sleeps⟩ := staffed.sleeping woken asleep
        refine ⟨woken, bound, ?_⟩
        have awake : woken ∉ σ'.pool.sleeping := by
          rw [same]
          exact Finset.notMem_erase _ _
        unfold Watches
        rw [code woken bound, decide_eq_false awake]
        unfold workerCode
        rw [sleeps]
        rfl
  | _ => cases isExecute

/-- A statement of `ThreadLoop` keeps the workers vigilant. -/
theorem worker (vigilant : σ.Vigilant workers) (staffed : σ.Staffed workers)
    (running : σ.pool.destroying = false) (bound : thread < workers) {woken : Nat}
    {pool : Pool V ε} {next : List PoolCode} {api : Option (Api V ε)}
    (did : σ.pool.Did σ.runtime.heap workers thread woken c pool next api)
    (isWorker : c.isWorker = true)
    (replaced : Replaced σ.runtime σ'.runtime thread [.external c]
      (new ++ next.map .external) base)
    (same : σ'.pool = pool) (cell : σ'.runtime.heap.cell = σ.runtime.heap.cell) :
    σ'.Vigilant workers := by
  intro index task queued ready
  have before := isReady_of_cell cell ready
  obtain ⟨stack, bottom, found, works⟩ := staffed.bottom running bound
  have top : stack = .external c :: base := Option.some.inj (found.symm.trans replaced.found)
  rw [top] at found works
  obtain ⟨alone, is⟩ := works.alone isWorker
  have was : σ.workerCode thread = some c := by
    rw [workerCode_eq found works, is]
  have goes {c' : PoolCode} (one : next = [c']) : σ'.workerCode thread = some c' := by
    unfold workerCode
    rw [replaced.threads, if_pos rfl, alone, one, List.append_nil, Option.bind_some,
      List.map_singleton, List.getLast?_concat]
    rfl
  -- the worker comes to the task after this statement
  have looks {c' : PoolCode} (one : next = [c'])
      (watches : c'.watches (decide (thread ∈ σ'.pool.sleeping)) index = true) :
      σ'.Watched workers index := by
    refine ⟨thread, bound, ?_⟩
    unfold Watches
    rw [goes one]
    exact watches
  -- or another one, or the worker if it still does so
  have stays (fewer : ∀ w, thread ≠ w → w ∈ σ'.pool.sleeping → w ∈ σ.pool.sleeping)
      (queued : σ.pool.tasks[index]? = some task)
      (mine : c.watches (decide (thread ∈ σ.pool.sleeping)) index = true →
        σ'.Watched workers index) : σ'.Watched workers index := by
    obtain ⟨w, within, watches⟩ := vigilant index task queued before
    by_cases here : thread = w
    · apply mine
      unfold Watches at watches
      rw [← here, was] at watches
      exact watches
    · exact ⟨w, within, watches.kept (workerCode_other replaced here) (fewer w here)⟩
  have never (shut : σ.pool.shutdownInitiated = true) : False := by
    have entered := staffed.initiated shut
    rw [running] at entered
    cases entered
  cases did with
  | threadLoop | takes | unlock | call | relock | notifies | notified | release | returns =>
    exact looks rfl rfl
  | ends shut | leaves shut => exact (never shut).elim
  | loop => exact looks rfl (decide_eq_true (Nat.zero_le index))
  | wakes =>
    apply looks rfl
    rw [same]
    show (!decide (thread ∈ σ.pool.sleeping.erase thread)) = true
    rw [decide_eq_false (Finset.notMem_erase _ _)]
    rfl
  | @scanned scanned ended =>
    rw [same] at queued
    apply stays (fun w _ asleep => same ▸ asleep) queued
    intro ahead
    have beyond := List.getElem?_eq_none_iff.mp ended
    have ahead : scanned ≤ index := of_decide_eq_true ahead
    have within := (List.getElem?_eq_some_iff.mp queued).1
    omega
  | @skips scanned other here unready =>
    rw [same] at queued
    apply stays (fun w _ asleep => same ▸ asleep) queued
    intro ahead
    have ahead : scanned ≤ index := of_decide_eq_true ahead
    have passed : scanned ≠ index := by
      intro passed
      rw [passed, queued] at here
      rw [← Option.some.inj here, before] at unready
      cases unready
    exact looks rfl (decide_eq_true (by omega))
  | sleeps =>
    rw [same] at queued
    apply stays _ queued (fun ahead => by cases ahead)
    intro w other asleep
    rw [same] at asleep
    exact Finset.mem_of_mem_insert_of_ne asleep (Ne.symm other)
  | _ => cases isWorker

/-- Every step before the shutdown that makes no task ready without a worker to notice it keeps the
workers vigilant. -/
theorem step (vigilant : σ.Vigilant workers) (ok : σ.Ok workers) (staffed : σ.Staffed workers)
    (positive : 0 < workers) {event : PoolEvent V ε} (noticed : σ.Noticed workers event)
    (taken : σ.step workers event = some σ') (running : σ'.pool.destroying = false) :
    σ'.Vigilant workers := by
  cases ok.stepped taken with
  | @library event below thread old new base disciplined goes same step reason =>
    rw [same] at running
    have code (w : Nat) (bound : w < workers) : σ'.workerCode w = σ.workerCode w :=
      staffed.workerCode_kept running step.replaced
        (fun x inside => (Staffed.library_plain (step.own x inside)).1) bound
    have fewer : σ'.pool.sleeping ⊆ σ.pool.sleeping := by
      rw [same]
    intro index task queued ready
    rw [same] at queued
    apply watched_kept _ code fewer
    cases ok.library_ready goes step reason ready with
    | inl before => exact vigilant index task queued before
    | inr decides =>
      obtain ⟨x, s, woken, one, is, notifies, waits⟩ := decides
      by_cases outside : workers ≤ thread
      · rw [is] at noticed
        exact noticed running outside s notifies index
          (List.getElem?_eq_some_iff.mp queued).1 task queued waits
      · have found := step.replaced.found
        rw [one] at found
        have plain := (Staffed.library_plain (step.own x (by rw [one]; exact
          List.mem_cons_self))).1
        have bound := Nat.lt_of_not_le outside
        exact ⟨thread, bound, staffed.watches_below running found plain bound⟩
  | @statement thread woken c base pool next api found ran performed =>
    obtain ⟨code, replaced, same, begun⟩ := perform_statement found performed
    have did := Pool.run_did ran
    rw [same, (Pool.run_ran ran).destroying] at running
    have cell := begun_cell begun
    cases worker : c.isWorker with
    | true =>
      have bound := ok.worker_lt found List.mem_cons_self worker
      exact vigilant.worker staffed running bound did worker replaced same cell
    | false =>
      have plain : ∀ x ∈ [Instr.external (V := V) (ε := ε) c], x.isWorker = false := by
        intro x inside
        rw [List.mem_singleton.mp inside]
        exact worker
      have isExecute : c.isExecute = true := by
        cases execute : c.isExecute with
        | true => rfl
        | false =>
          cases destructor : c.isDestructor with
          | true =>
            have entered := ok.destroying_of_destructor found List.mem_cons_self destructor
            rw [running] at entered
            cases entered
          | false =>
            unfold PoolCode.isWorker at worker
            rw [execute, destructor] at worker
            cases worker
      exact vigilant.execute staffed running positive did isExecute found same
        (fun w bound => staffed.workerCode_kept running replaced plain bound) cell
  | @funcReturn thread task base result found performed =>
    obtain ⟨code, replaced, same, begun⟩ := perform_statement found performed
    intro index queued _ _
    have bound := ok.worker_lt found List.mem_cons_self rfl
    rw [same] at running
    refine ⟨thread, bound, ?_⟩
    obtain ⟨stack, bottom, here, works⟩ := staffed.bottom running bound
    rw [found] at here
    rw [← Option.some.inj here] at works
    have lock : σ'.workerCode thread = some (.relock task) := by
      unfold workerCode
      rw [replaced.threads, if_pos rfl, (works.alone rfl).1, List.append_nil, Option.bind_some,
        List.map_singleton, List.getLast?_concat]
      rfl
    exact Watches.of_base lock rfl
  | @execute thread base isVoid dependencies found control allowed performed =>
    obtain ⟨replaced, same, cell⟩ := perform_entry found performed
    intro index task queued ready
    rw [same] at queued running
    have nothing : ∀ x ∈ ([] : List (Instr V ε PoolCode)), x.isWorker = false := nofun
    apply watched_kept (vigilant index task queued (isReady_of_cell (by rw [cell]) ready))
    · exact fun w bound => staffed.workerCode_kept running replaced nothing bound
    · rw [same]
  | @destroy thread base found control outside first idle performed =>
    obtain ⟨_, same, _⟩ := perform_entry found performed
    rw [same] at running
    cases running

end Vigilant

/-- Once the destructor was entered it stays so. -/
theorem Stepped.running_before {event : PoolEvent V ε} (stepped : Stepped workers σ σ' event)
    (running : σ'.pool.destroying = false) : σ.pool.destroying = false := by
  cases stepped with
  | library disciplined goes same step => rwa [same] at running
  | statement found ran performed =>
    obtain ⟨_, _, same, _⟩ := perform_statement found performed
    rwa [same, (Pool.run_ran ran).destroying] at running
  | funcReturn found performed =>
    obtain ⟨_, _, same, _⟩ := perform_statement found performed
    rwa [same] at running
  | execute found control allowed performed =>
    rwa [(perform_entry found performed).2.1] at running
  | destroy found control outside first idle performed => exact first

/-- Nothing is queued at the start. -/
theorem Vigilant.start (outside : Nat) :
    (start workers outside : PoolConfig V ε).Vigilant workers := by
  intro index task queued
  cases queued

/-- In every run in which no thread of the program makes a queued task ready that no worker will
come to, not all workers are blocked before the shutdown while a queued task is ready. -/
theorem ready_noticed (positive : 0 < workers)
    (reached : ((poolSystem V ε workers).under (Noticed workers)).Reachable σ)
    (running : σ.pool.destroying = false) {task : Task} (queued : task ∈ σ.pool.tasks)
    (ready : task.isReady σ.runtime.heap = true) : ¬ ∀ w < workers, σ.Blocked w := by
  have both : (poolSystem V ε workers).Reachable σ ∧
      (σ.pool.destroying = false → σ.Vigilant workers) := by
    apply reached.invariant
    · intro σ initial
      obtain ⟨outside, same⟩ := initial
      rw [same]
      exact ⟨.start ⟨outside, rfl⟩, fun _ => Vigilant.start outside⟩
    · intro σ event σ' _ both stepped
      obtain ⟨reached, vigilant⟩ := both
      obtain ⟨noticed, taken⟩ := System.under_step.mp stepped
      refine ⟨reached.next taken, fun running => ?_⟩
      have before := ((ok reached).stepped taken).running_before running
      exact (vigilant before).step (ok reached) (PoolConfig.staffed reached) positive noticed taken
        running
  intro blocked
  obtain ⟨index, found⟩ := List.getElem?_of_mem queued
  obtain ⟨w, bound, watches⟩ := both.2 running index task found ready
  exact (blocked w bound).not_watches watches

/-- No thread of the program is in a call. -/
def AtRest (workers : Nat) (σ : PoolConfig V ε) : Prop :=
  ∀ stack ∈ σ.runtime.threads.drop workers, stack.isEmpty = true

instance : Decidable (σ.AtRest workers) :=
  inferInstanceAs (Decidable (∀ stack ∈ σ.runtime.threads.drop workers, stack.isEmpty = true))

end PoolConfig

/-- A task waits for a promise of the program, and the program completes it after the worker has
gone on. -/
def completing (steps : Nat) : List (PoolEvent Nat String) :=
  [PoolEvent.call 1 (.newPromise false), PoolEvent.execute 1 false [0]] ++
    List.replicate 13 (PoolEvent.run 1 0) ++ List.replicate steps (PoolEvent.run 0 0) ++
    [PoolEvent.call 1 (.complete 0 (.ok (.val 7)))] ++ List.replicate 9 (PoolEvent.run 1 0)

/-- The run can be replayed while the worker has not looked at the task. -/
theorem completing_noticed :
    (((poolSystem Nat String 1).under (PoolConfig.Noticed 1)).replay (PoolConfig.start 1 1)
      (completing 2)).isSome = true := by
  decide +kernel

/-- The configuration after the run. -/
def noticed : PoolConfig Nat String :=
  (((poolSystem Nat String 1).under (PoolConfig.Noticed 1)).replay (PoolConfig.start 1 1)
    (completing 2)).get completing_noticed

/-- The worker does not sleep on the task. -/
theorem noticed_awake : ¬ ∀ w < 1, noticed.Blocked w := by
  have initial : ((poolSystem Nat String 1).under (PoolConfig.Noticed 1)).initial (.start 1 1) :=
    ⟨1, rfl⟩
  have queued : (⟨3, some 1, [0]⟩ : Task) ∈ noticed.pool.tasks := by decide +kernel
  exact PoolConfig.ready_noticed Nat.one_pos (System.Reachable.of_replay initial completing_noticed)
    (by decide +kernel) queued (by decide +kernel)

/-- The run can be replayed when the worker sleeps. -/
theorem completing_replays :
    ((poolSystem Nat String 1).replay (PoolConfig.start 1 1) (completing 5)).isSome = true := by
  decide +kernel

/-- The configuration after the run. -/
def missed : PoolConfig Nat String := .after 1 1 (completing 5) completing_replays

/-- A task that a thread of the program makes ready while the worker sleeps is not noticed. -/
theorem missed_asleep : ¬ ∀ σ : PoolConfig Nat String, (poolSystem Nat String 1).Reachable σ →
    σ.pool.destroying = false → σ.AtRest 1 → ∀ task ∈ σ.pool.tasks,
      task.isReady σ.runtime.heap = true → ¬ ∀ w < 1, σ.Blocked w := by
  intro all
  have reached : (poolSystem Nat String 1).Reachable missed := PoolConfig.reachable_after _
  have queued : (⟨3, some 1, [0]⟩ : Task) ∈ missed.pool.tasks := by decide +kernel
  have running : missed.pool.destroying = false := by decide +kernel
  have rest : missed.AtRest 1 := by decide +kernel
  have ready : (⟨3, some 1, [0]⟩ : Task).isReady missed.runtime.heap = true := by decide +kernel
  have asleep : 0 ∈ missed.pool.sleeping := by decide +kernel
  apply all missed reached running rest _ queued ready
  intro w bound
  rw [Nat.lt_one_iff.mp bound]
  exact ⟨((PoolConfig.staffed reached).sleeping 0 asleep).2, asleep⟩

end Azul.Async
