import Azul.Async.PoolSleep

/-!
# The order in which tasks are taken

`NextTask` takes the first task of the queue that it finds ready, and finds none only after it has
looked at all of them. With one worker, and tasks that wait for earlier tasks only, the first task
of the queue is always ready, so that the callables run in the order of their submission.
-/

namespace Azul.Async

open Foundation

variable {V ε : Type}

/-- What a call of `NextTask` has seen. -/
structure Scan where
  /-- The queue at the begin. -/
  tasks : List Task
  /-- Whether the elements were ready, when they were looked at. -/
  ready : List Bool

/-- Look at the next element. -/
def Scan.add (scan : Scan) (ready : Bool) : Scan := { scan with ready := scan.ready ++ [ready] }

/-- What the pool has done with the tasks. -/
structure Dispatch where
  /-- In the order of `emplace_back`. -/
  submitted : List Task
  /-- In the order in which their callables were invoked. -/
  called : List Task
  /-- The last call of `NextTask` by a worker. -/
  scans : Nat → Scan

namespace Dispatch

/-- Nothing was submitted. -/
def start : Dispatch where
  submitted := []
  called := []
  scans _ := ⟨[], []⟩

/-- A worker has looked at the queue. -/
def look (d : Dispatch) (w : Nat) (scan : Scan) : Dispatch :=
  { d with scans := Function.update d.scans w scan }

/-- A thread executes a statement of the pool. -/
def after (d : Dispatch) (h : Heap V ε) (tasks : List Task) (w : Nat) : PoolCode → Dispatch
  | .emplaceBack task => { d with submitted := d.submitted ++ [task] }
  | .call task => { d with called := d.called ++ [task] }
  | .loop => d.look w ⟨tasks, []⟩
  | .nextTask index =>
    match tasks[index]? with
    | some task => d.look w ((d.scans w).add (task.isReady h))
    | none => d
  | _ => d

end Dispatch

namespace PoolConfig

/-- The statement of the pool that an event executes, and its thread. -/
def executes (σ : PoolConfig V ε) : PoolEvent V ε → Option (Nat × PoolCode)
  | .run thread _ =>
    match σ.runtime.threads[thread]? with
    | some (.external c :: _) => some (thread, c)
    | _ => none
  | _ => none

/-- What an event adds to the history. -/
def record (σ : PoolConfig V ε) (event : PoolEvent V ε) (_ : PoolConfig V ε) (d : Dispatch) :
    Dispatch :=
  match σ.executes event with
  | some (w, c) => d.after σ.runtime.heap σ.pool.tasks w c
  | none => d

variable {workers : Nat} {σ σ' : PoolConfig V ε} {thread w : Nat} {c : PoolCode}
  {next : List PoolCode} {api : Option (Api V ε)} {code base : List (Instr V ε PoolCode)}
  {d : Dispatch} {task : Task}

/-! ## What a step does to the queue and the workers -/

/-- A step executes a statement of the pool, or leaves the tasks alone. -/
inductive Turn (workers : Nat) (σ σ' : PoolConfig V ε) : PoolEvent V ε → Prop
  | statement {thread woken c base next api}
      (found : σ.runtime.threads[thread]? = some (.external c :: base))
      (did : σ.pool.Did σ.runtime.heap workers thread woken c σ'.pool next api)
      (codes : ∃ rest, poolCode σ.runtime.pending = c ::ₘ rest ∧
        poolCode σ'.runtime.pending = (next : Multiset PoolCode) + rest)
      (own : c.isWorker = true → thread < workers ∧ σ.workerCode thread = some c ∧
        σ'.workerCode thread = next.head?)
      (others : ∀ w < workers, (w = thread → c.isWorker = false) →
        σ'.workerCode w = σ.workerCode w) : Turn workers σ σ' (.run thread woken)
  | quiet {event} (silent : σ.executes event = none) (tasks : σ'.pool.tasks = σ.pool.tasks)
      (made : σ'.pool.made = σ.pool.made)
      (codes : ∀ task, .emplaceBack task ∈ poolCode σ'.runtime.pending →
        .emplaceBack task ∈ poolCode σ.runtime.pending)
      (kept : ∀ w < workers, σ'.workerCode w = σ.workerCode w ∨
        ∃ task, σ.workerCode w = some (.func task) ∧ σ'.workerCode w = some (.relock task)) :
      Turn workers σ σ' event

/-- The statement of a thread whose stack has it on top. -/
theorem executes_eq {woken : Nat}
    (found : σ.runtime.threads[thread]? = some (.external c :: base)) :
    σ.executes (.run thread woken) = some (thread, c) := by
  simp only [executes, found]

/-- The code of the pool on a stack that is replaced. -/
theorem codes_replaced
    (replaced : Replaced σ.runtime σ'.runtime thread [.external c] (code ++ next.map .external)
      base)
    (library : ∀ x ∈ code, x.code = none) :
    ∃ rest, poolCode σ.runtime.pending = c ::ₘ rest ∧
      poolCode σ'.runtime.pending = (next : Multiset PoolCode) + rest := by
  obtain ⟨rest, before, after⟩ := replaced.pending
  refine ⟨poolCode rest, ?_, ?_⟩
  · rw [before, Stacks.coe_cons_add, Stacks.coe_nil_add, poolCode_cons]
  · rw [after, ← Multiset.coe_add, poolCode_add, poolCode_add, poolCode_library library, zero_add,
      poolCode_external]

/-- The statement of a worker determines what the worker is in. -/
theorem Staffed.worker_goes (staffed : σ.Staffed workers) (bound : thread < workers)
    (worker : c.isWorker = true)
    (replaced : Replaced σ.runtime σ'.runtime thread [.external c] (code ++ next.map .external)
      base)
    (goes : (∃ c', next = [c']) ∨ next = [] ∧ code = []) :
    σ.workerCode thread = some c ∧ σ'.workerCode thread = next.head? := by
  obtain ⟨stack, found, kind⟩ := staffed.working thread bound
  rw [replaced.found] at found
  rw [← Option.some.inj found] at kind
  obtain ⟨bottom, works⟩ := kind.resolve_left fun leaves => by cases leaves.1
  obtain ⟨empty, same⟩ := works.alone worker
  constructor
  · rw [workerCode_eq replaced.found works, same]
  · unfold workerCode
    have none : base = [] := empty
    rw [replaced.threads, if_pos rfl, none, List.append_nil, Option.bind_some]
    cases goes with
    | inl one =>
      obtain ⟨c', single⟩ := one
      rw [single, List.map_singleton, List.getLast?_concat]
      rfl
    | inr leaves =>
      rw [leaves.1, leaves.2]
      rfl

/-- Every step is such a turn. -/
theorem Ok.turn (ok : σ.Ok workers) (staffed : σ.Staffed workers) {event : PoolEvent V ε}
    (taken : σ.step workers event = some σ') : Turn workers σ σ' event := by
  have empty : ∀ x ∈ ([] : List (Instr V ε PoolCode)), x.isWorker = false := nofun
  cases ok.stepped taken with
  | @library event below thread old new base disciplined running same step reason =>
    apply Turn.quiet
    · cases reason with
      | ret | call => rfl
      | run x woken =>
        have library := step.own x List.mem_cons_self
        simp only [executes, step.replaced.found, List.singleton_append]
        cases x with
        | external c => cases library
        | _ => rfl
    · rw [same]
    · rw [same]
    · intro task inside
      cases step.replaced.came (mem_poolCode.mp inside) with
      | inl new => cases step.spares.library _ new
      | inr old => exact mem_poolCode.mpr old
    · intro w bound
      left
      apply staffed.workerCode_plain step.replaced _ step.awake bound
      exact fun x inside => (Staffed.library_plain (step.own x inside)).1
  | @statement thread woken c base pool next api found ran performed =>
    obtain ⟨code, replaced, same, begun⟩ := perform_statement found performed
    have did := Pool.run_did ran
    rw [← same] at did
    refine .statement found did (codes_replaced replaced begun.spares.library) ?_ ?_
    · intro worker
      have bound := ok.worker_lt found List.mem_cons_self worker
      refine ⟨bound, staffed.worker_goes bound worker replaced ?_⟩
      cases did.worker worker with
      | inl one =>
        obtain ⟨c', single, _⟩ := one
        exact Or.inl ⟨c', single⟩
      | inr leaves =>
        obtain ⟨_, _, none, nothing⟩ := leaves
        rw [nothing] at begun
        exact Or.inr ⟨none, begun.2⟩
    · intro w bound other
      by_cases here : w = thread
      · apply staffed.workerCode_plain replaced _ (Or.inr nofun) bound
        intro x inside
        rw [List.mem_singleton.mp inside]
        exact other here
      · exact workerCode_other replaced (Ne.symm here)
  | @funcReturn thread task base result found performed =>
    obtain ⟨code, replaced, same, begun⟩ := perform_statement found performed
    obtain ⟨rest, before, after⟩ := codes_replaced replaced begun.spares.library
    have bound := ok.worker_lt found List.mem_cons_self rfl
    refine .quiet rfl (by rw [same]) (by rw [same]) ?_ ?_
    · intro other inside
      rw [after] at inside
      rw [before]
      cases Multiset.mem_add.mp inside with
      | inl new => cases List.mem_singleton.mp (Multiset.mem_coe.mp new)
      | inr old => exact Multiset.mem_cons_of_mem old
    · intro w within
      by_cases here : thread = w
      · right
        rw [← here]
        exact ⟨task, staffed.worker_goes bound rfl replaced (Or.inl ⟨_, rfl⟩)⟩
      · exact Or.inl (workerCode_other replaced here)
  | @execute thread base isVoid dependencies found control allowed performed =>
    obtain ⟨replaced, same, _⟩ := perform_entry found performed
    refine .quiet rfl (by rw [same]) (by rw [same]) ?_ ?_
    · intro other inside
      cases replaced.came (mem_poolCode.mp inside) with
      | inl new => cases List.mem_singleton.mp new
      | inr old => exact mem_poolCode.mpr old
    · intro w bound
      left
      apply staffed.workerCode_plain replaced empty _ bound
      exact awake_of_inProgram found control
  | @destroy thread base found control outside first idle performed =>
    obtain ⟨replaced, same, _⟩ := perform_entry found performed
    refine .quiet rfl (by rw [same]) (by rw [same]) ?_ ?_
    · intro other inside
      cases replaced.came (mem_poolCode.mp inside) with
      | inl new => cases List.mem_singleton.mp new
      | inr old => exact mem_poolCode.mpr old
    · intro w bound
      exact Or.inl (staffed.workerCode_plain replaced empty (Or.inl outside) bound)

/-- A statement is recorded. -/
theorem record_statement {woken : Nat}
    (found : σ.runtime.threads[thread]? = some (.external c :: base)) :
    σ.record (.run thread woken) σ' d = d.after σ.runtime.heap σ.pool.tasks thread c := by
  unfold record
  rw [executes_eq found]

/-- Nothing else is. -/
theorem record_quiet {event : PoolEvent V ε} (silent : σ.executes event = none) :
    σ.record event σ' d = d := by
  unfold record
  rw [silent]

/-- At most one statement in a critical section is pending. -/
theorem Staffed.sole (staffed : σ.Staffed workers) {c' : PoolCode}
    (pending : c ∈ poolCode σ.runtime.pending) (critical : c.isCritical = true)
    (also : c' ∈ poolCode σ.runtime.pending) (critical' : c'.isCritical = true) : c' = c := by
  obtain ⟨rest, split⟩ := Multiset.exists_cons_of_mem pending
  have exclusive := staffed.exclusive
  rw [split, Stacks.count_cons, if_pos critical] at exclusive
  rw [split] at also
  apply (Multiset.mem_cons.mp also).resolve_right
  intro other
  have more : 0 < Stacks.count rest PoolCode.isCritical :=
    Stacks.count_pos.mpr ⟨c', other, critical'⟩
  have bound := Bool.toNat_le σ.pool.mutex.isSome
  omega

/-- The code of a worker is pending on its thread. -/
theorem workerCode_inside (code : σ.workerCode w = some c) :
    ∃ stack, σ.runtime.threads[w]? = some stack ∧ .external c ∈ stack := by
  unfold workerCode at code
  obtain ⟨x, last, same⟩ := Option.bind_eq_some_iff.mp code
  obtain ⟨stack, found, is⟩ := Option.bind_eq_some_iff.mp last
  refine ⟨stack, found, ?_⟩
  cases x with
  | external c' =>
    rw [← Option.some.inj same]
    exact List.mem_of_getLast? is
  | _ => cases same

theorem workerCode_pending (code : σ.workerCode w = some c) :
    c ∈ poolCode σ.runtime.pending := by
  obtain ⟨stack, found, inside⟩ := workerCode_inside code
  exact mem_poolCode.mpr (Stacks.mem_pending.mpr ⟨stack, List.mem_of_getElem? found, inside⟩)

/-- The destructor destroys tasks when all workers have ended. -/
theorem Ok.ended_of_clearing (ok : σ.Ok workers)
    (pending : .shutdownDestroyRemainingTasks ∈ poolCode σ.runtime.pending) (bound : w < workers) :
    σ.workerCode w = none := by
  have ended := finished_iff.mp (ok.placed.joined _ pending w bound rfl)
  unfold workerCode
  rw [ended]
  rfl

/-! ## Submissions -/

/-- What a statement does to the queue. -/
inductive Queueing (pool pool' : Pool V ε) (h : Heap V ε) : PoolCode → List PoolCode → Prop
  | makes {isVoid dependencies dependency} {task : Task} (promise : task.promise = h.next)
      (made : pool'.made = pool.made ++ [task]) (tasks : pool'.tasks = pool.tasks) :
      Queueing pool pool' h (.makeTask isVoid dependencies dependency) [.emplaceBack task]
  | queues {task : Task} (made : pool'.made = pool.made)
      (tasks : pool'.tasks = pool.tasks ++ [task]) :
      Queueing pool pool' h (.emplaceBack task) [.getFuture task.promise]
  | takes {index : Nat} {next : List PoolCode} {task : Task}
      (found : pool.tasks[index]? = some task) (made : pool'.made = pool.made)
      (tasks : pool'.tasks = pool.tasks.eraseIdx index)
      (plain : ∀ task, .emplaceBack task ∉ next) : Queueing pool pool' h (.nextTask index) next
  | clears {next : List PoolCode} {task : Task} {rest : List Task}
      (found : pool.tasks = task :: rest) (made : pool'.made = pool.made)
      (tasks : pool'.tasks = rest) (plain : ∀ task, .emplaceBack task ∉ next) :
      Queueing pool pool' h .shutdownDestroyRemainingTasks next
  | other {c : PoolCode} {next : List PoolCode} (made : pool'.made = pool.made)
      (tasks : pool'.tasks = pool.tasks) (apart : ∀ task, c ≠ .emplaceBack task)
      (plain : ∀ task, .emplaceBack task ∉ next) : Queueing pool pool' h c next

theorem did_queueing {pool pool' : Pool V ε} {h : Heap V ε} {woken : Nat}
    (did : pool.Did h workers thread woken c pool' next api) : Queueing pool pool' h c next := by
  have one {c' : PoolCode} (plain : ∀ task, c' ≠ .emplaceBack task) :
      ∀ task, .emplaceBack task ∉ [c'] := by
    intro task inside
    exact plain task (List.mem_singleton.mp inside).symm
  cases did with
  | makeTask promise => exact .makes promise rfl rfl
  | emplaceBack => exact .queues rfl rfl
  | takes found => exact .takes found rfl rfl (one nofun)
  | clears found => exact .clears found rfl rfl (one nofun)
  | getFuture | ends | cleared => exact .other rfl rfl nofun nofun
  | execute | whenAll | threadLoop | loop | scanned | skips | unlock | call | relock | notifies
  | notified | release | leaves | sleeps | wakes | returns | shutdownNotifyThreads | joins
  | joined => exact .other rfl rfl nofun (one nofun)

/-- What was submitted is a part of what was made, in the same order, and what is queued a part of
that. -/
structure Submissions (σ : PoolConfig V ε) (d : Dispatch) : Prop where
  sorted : σ.pool.made.Pairwise fun one other => one.promise < other.promise
  submitted : d.submitted.Sublist σ.pool.made
  queueing : ∀ task, .emplaceBack task ∈ poolCode σ.runtime.pending →
    (d.submitted ++ [task]).Sublist σ.pool.made
  queued : σ.pool.tasks.Sublist d.submitted
  scanned : ∀ w, (d.scans w).tasks.Sublist d.submitted

end PoolConfig

namespace Dispatch

variable {d : Dispatch} {h : Heap V ε} {tasks : List Task} {w w' : Nat} {c : PoolCode}

theorem look_self (scan : Scan) : (d.look w scan).scans w = scan := by
  unfold look
  exact Function.update_self w scan d.scans

theorem after_nextTask (index : Nat) : d.after h tasks w (.nextTask index) =
    match tasks[index]? with
    | some task => d.look w ((d.scans w).add (task.isReady h))
    | none => d := rfl

/-- Only `emplace_back` submits a task. -/
theorem after_submitted (apart : ∀ task, c ≠ .emplaceBack task) :
    (d.after h tasks w c).submitted = d.submitted := by
  cases c with
  | emplaceBack task => exact absurd rfl (apart task)
  | nextTask index =>
    rw [after_nextTask]
    cases tasks[index]? with
    | none => rfl
    | some task => rfl
  | _ => rfl

/-- What `NextTask` scans is the queue at its begin. -/
theorem after_tasks : ((d.after h tasks w c).scans w').tasks = (d.scans w').tasks ∨
    ((d.after h tasks w c).scans w').tasks = tasks := by
  have looks (scan : Scan) (same : scan.tasks = (d.scans w).tasks ∨ scan.tasks = tasks) :
      ((d.look w scan).scans w').tasks = (d.scans w').tasks ∨
        ((d.look w scan).scans w').tasks = tasks := by
    by_cases here : w' = w
    · rw [here, look_self]
      exact same
    · left
      exact congrArg Scan.tasks (Function.update_of_ne here _ _)
  cases c with
  | loop => exact looks _ (Or.inr rfl)
  | nextTask index =>
    rw [after_nextTask]
    cases tasks[index]? with
    | none => exact Or.inl rfl
    | some task => exact looks _ (Or.inl rfl)
  | _ => exact Or.inl rfl

/-- A thread looks at the queue for itself. -/
theorem after_scans (other : w' = w → c.isWorker = false) :
    (d.after h tasks w c).scans w' = d.scans w' := by
  have looks (scan : Scan) (apart : w' ≠ w) : (d.look w scan).scans w' = d.scans w' :=
    Function.update_of_ne apart _ _
  have worker (is : c.isWorker = true) : w' ≠ w := by
    intro here
    rw [other here] at is
    cases is
  cases c with
  | loop => exact looks _ (worker rfl)
  | nextTask index =>
    rw [after_nextTask]
    cases tasks[index]? with
    | none => rfl
    | some task => exact looks _ (worker rfl)
  | _ => rfl

end Dispatch

namespace PoolConfig

variable {workers : Nat} {σ σ' : PoolConfig V ε} {thread w : Nat} {c : PoolCode} {d : Dispatch}
  {event : PoolEvent V ε}

/-- Every step keeps the order of submission. -/
theorem Submissions.turn (submissions : σ.Submissions d) (ok : σ.Ok workers)
    (staffed : σ'.Staffed workers) (turn : Turn workers σ σ' event) :
    σ'.Submissions (σ.record event σ' d) := by
  cases turn with
  | quiet silent tasks made codes kept =>
    rw [record_quiet silent]
    constructor
    · rw [made]
      exact submissions.sorted
    · rw [made]
      exact submissions.submitted
    · intro task inside
      rw [made]
      exact submissions.queueing task (codes task inside)
    · rw [tasks]
      exact submissions.queued
    · exact submissions.scanned
  | @statement thread woken c base next api found did codes own others =>
    rw [record_statement found]
    obtain ⟨rest, before, after⟩ := codes
    have kept {task : Task} (inside : .emplaceBack task ∈ rest) :
        .emplaceBack task ∈ poolCode σ.runtime.pending := by
      rw [before]
      exact Multiset.mem_cons_of_mem inside
    -- what neither makes nor submits a task leaves less in the queue
    have fewer (made : σ'.pool.made = σ.pool.made) (tasks : σ'.pool.tasks.Sublist σ.pool.tasks)
        (apart : ∀ task, c ≠ .emplaceBack task) (plain : ∀ task, .emplaceBack task ∉ next) :
        σ'.Submissions (d.after σ.runtime.heap σ.pool.tasks thread c) := by
      have same : (d.after σ.runtime.heap σ.pool.tasks thread c).submitted = d.submitted :=
        Dispatch.after_submitted apart
      constructor
      · rw [made]
        exact submissions.sorted
      · rw [made, same]
        exact submissions.submitted
      · intro task inside
        rw [after] at inside
        rw [made, same]
        apply submissions.queueing task
        cases Multiset.mem_add.mp inside with
        | inl new => exact absurd (Multiset.mem_coe.mp new) (plain task)
        | inr old => exact kept old
      · rw [same]
        exact tasks.trans submissions.queued
      · intro w
        rw [same]
        have either : ((d.after σ.runtime.heap σ.pool.tasks thread c).scans w).tasks =
            (d.scans w).tasks ∨
            ((d.after σ.runtime.heap σ.pool.tasks thread c).scans w).tasks = σ.pool.tasks :=
          Dispatch.after_tasks
        cases either with
        | inl old =>
          rw [old]
          exact submissions.scanned w
        | inr now =>
          rw [now]
          exact submissions.queued
    cases did_queueing did with
    | @makes isVoid dependencies dependency task promise made tasks =>
      have longer : σ.pool.made.Sublist σ'.pool.made := by
        rw [made]
        exact List.sublist_append_left _ _
      constructor
      · rw [made]
        apply List.pairwise_append.mpr
        refine ⟨submissions.sorted, List.pairwise_singleton _ _, ?_⟩
        intro one known other last
        rw [List.mem_singleton.mp last, promise]
        exact ok.promise_lt known
      · exact submissions.submitted.trans longer
      · intro other inside
        rw [after] at inside
        cases Multiset.mem_add.mp inside with
        | inl new =>
          rw [PoolCode.emplaceBack.inj (List.mem_singleton.mp (Multiset.mem_coe.mp new)), made]
          exact submissions.submitted.append_right [task]
        | inr old => exact (submissions.queueing other (kept old)).trans longer
      · rw [tasks]
        exact submissions.queued
      · exact submissions.scanned
    | @queues task made tasks =>
      have here : .emplaceBack task ∈ poolCode σ.runtime.pending := by
        rw [before]
        exact Multiset.mem_cons_self _ _
      constructor
      · rw [made]
        exact submissions.sorted
      · rw [made]
        exact submissions.queueing task here
      · intro other inside
        have unlocks : .getFuture task.promise ∈ poolCode σ'.runtime.pending := by
          rw [after]
          exact Multiset.mem_add.mpr (Or.inl (Multiset.mem_coe.mpr List.mem_cons_self))
        cases staffed.sole unlocks rfl inside rfl
      · rw [tasks]
        exact submissions.queued.append_right [task]
      · exact fun w => (submissions.scanned w).trans (List.sublist_append_left _ _)
    | takes _ made tasks plain =>
      apply fewer made _ nofun plain
      rw [tasks]
      exact List.eraseIdx_sublist _ _
    | clears first made tasks plain =>
      apply fewer made _ nofun plain
      rw [tasks, first]
      exact List.sublist_cons_self _ _
    | other made tasks apart plain =>
      apply fewer made _ apart plain
      rw [tasks]

/-! ## What `NextTask` sees -/

end PoolConfig

/-- `NextTask` has taken the first task that it saw ready, and has left the others in order. -/
def Scan.Took (scan : Scan) (task : Task) (left : List Task) : Prop :=
  ∃ index, scan.tasks[index]? = some task ∧ scan.ready = List.replicate index false ++ [true] ∧
    left = scan.tasks.eraseIdx index

/-- `NextTask` has seen no task ready, and has left the queue alone. -/
def Scan.Missed (scan : Scan) (left : List Task) : Prop :=
  scan.ready = List.replicate scan.tasks.length false ∧ left = scan.tasks

/-- What the last scan of a worker that is in some code says about the queue, while the worker holds
the lock. -/
def PoolCode.Scanned (scan : Scan) (tasks : List Task) : PoolCode → Prop
  | .nextTask index => index ≤ tasks.length ∧ scan.tasks = tasks ∧
    scan.ready = List.replicate index false
  | .unlock task => scan.Took task tasks
  | .noTask => scan.Missed tasks
  | _ => True

/-- A statement of `NextTask` carries its scan on. -/
theorem scanned_did {pool pool' : Pool V ε} {h : Heap V ε} {workers thread woken : Nat}
    {c c' : PoolCode} {next : List PoolCode} {api : Option (Api V ε)} {d : Dispatch}
    (did : pool.Did h workers thread woken c pool' next api) (goes : next.head? = some c')
    (scanned : c.Scanned (d.scans thread) pool.tasks) :
    c'.Scanned ((d.after h pool.tasks thread c).scans thread) pool'.tasks := by
  cases did with
  | loop =>
    rw [← Option.some.inj goes]
    change PoolCode.Scanned ((d.look thread ⟨pool.tasks, []⟩).scans thread) _ _
    rw [Dispatch.look_self]
    exact ⟨Nat.zero_le _, rfl, rfl⟩
  | @scanned index ended =>
    obtain ⟨within, same, unready⟩ := scanned
    rw [← Option.some.inj goes, Dispatch.after_nextTask, ended]
    have all : index = pool.tasks.length :=
      Nat.le_antisymm within (List.getElem?_eq_none_iff.mp ended)
    refine ⟨?_, same.symm⟩
    rw [unready, same, all]
  | @takes index task found ready =>
    obtain ⟨_, same, unready⟩ := scanned
    rw [← Option.some.inj goes, Dispatch.after_nextTask, found]
    change PoolCode.Scanned
      ((d.look thread ((d.scans thread).add (task.isReady h))).scans thread) _ _
    rw [Dispatch.look_self, ready]
    refine ⟨index, ?_, ?_, ?_⟩
    · change (d.scans thread).tasks[index]? = _
      rw [same, found]
    · change (d.scans thread).ready ++ [true] = _
      rw [unready]
    · change pool.tasks.eraseIdx index = (d.scans thread).tasks.eraseIdx index
      rw [same]
  | @skips index task found unready =>
    obtain ⟨_, same, before⟩ := scanned
    rw [← Option.some.inj goes, Dispatch.after_nextTask, found]
    change PoolCode.Scanned
      ((d.look thread ((d.scans thread).add (task.isReady h))).scans thread) _ _
    rw [Dispatch.look_self, unready]
    refine ⟨(List.getElem?_eq_some_iff.mp found).1, same, ?_⟩
    change (d.scans thread).ready ++ [false] = _
    rw [before, List.replicate_succ']
  | ends | getFuture | cleared => cases goes
  | execute | whenAll | makeTask | emplaceBack | threadLoop | unlock | call | relock | notifies
  | notified | release | leaves | sleeps | wakes | returns | shutdownNotifyThreads | joins | joined
  | clears =>
    rw [← Option.some.inj goes]
    trivial

namespace PoolConfig

variable {workers : Nat} {σ σ' : PoolConfig V ε} {thread w : Nat} {c : PoolCode} {d : Dispatch}
  {event : PoolEvent V ε}

/-- What the last scans of the workers say. -/
def Scanned (workers : Nat) (σ : PoolConfig V ε) (d : Dispatch) : Prop :=
  ∀ w < workers, ∀ c, σ.workerCode w = some c → c.Scanned (d.scans w) σ.pool.tasks

/-- While a worker is in a critical section, others leave the queue alone. -/
theorem Staffed.queue_kept (staffed : σ.Staffed workers) (ok : σ.Ok workers) {woken : Nat}
    {next : List PoolCode} {api : Option (Api V ε)} {base : List (Instr V ε PoolCode)}
    {c' : PoolCode} (found : σ.runtime.threads[thread]? = some (.external c :: base))
    (did : σ.pool.Did σ.runtime.heap workers thread woken c σ'.pool next api)
    (bound : w < workers) (code : σ.workerCode w = some c') (critical : c'.isCritical = true)
    (worker : c'.isWorker = true) (other : w = thread → c.isWorker = false) :
    σ'.pool.tasks = σ.pool.tasks := by
  have here : c ∈ poolCode σ.runtime.pending := mem_poolCode.mpr
    (Stacks.mem_pending.mpr ⟨_, List.mem_of_getElem? found, List.mem_cons_self⟩)
  have sole (inside : c.isCritical = true) : c' = c :=
    staffed.sole here inside (workerCode_pending code) critical
  cases did_queueing did with
  | makes _ _ tasks => exact tasks
  | queues =>
    rw [sole rfl] at worker
    cases worker
  | takes =>
    have same := sole rfl
    obtain ⟨stack, is, inside⟩ := workerCode_inside code
    have mine := staffed.owner w stack is c' inside critical
    rw [staffed.owner thread _ found _ List.mem_cons_self rfl] at mine
    cases other (Option.some.inj mine).symm
  | clears =>
    rw [ok.ended_of_clearing here bound] at code
    cases code
  | other _ tasks => exact tasks

/-- Every step carries the scans on. -/
theorem Scanned.turn (scanned : σ.Scanned workers d) (ok : σ.Ok workers)
    (staffed : σ.Staffed workers) (turn : Turn workers σ σ' event) :
    σ'.Scanned workers (σ.record event σ' d) := by
  intro w bound c' code
  cases turn with
  | quiet silent tasks made codes kept =>
    rw [record_quiet silent, tasks]
    cases kept w bound with
    | inl same =>
      rw [same] at code
      exact scanned w bound c' code
    | inr returns =>
      obtain ⟨task, _, now⟩ := returns
      rw [now] at code
      rw [← Option.some.inj code]
      trivial
  | @statement thread woken c base next api found did codes own others =>
    rw [record_statement found]
    by_cases mine : w = thread ∧ c.isWorker = true
    · obtain ⟨here, worker⟩ := mine
      obtain ⟨_, was, goes⟩ := own worker
      rw [here] at bound code ⊢
      rw [goes] at code
      exact scanned_did did code (scanned thread bound c was)
    · have other (here : w = thread) : c.isWorker = false := by
        apply Bool.eq_false_of_not_eq_true
        exact fun worker => mine ⟨here, worker⟩
      rw [others w bound other] at code
      rw [Dispatch.after_scans other]
      have before := scanned w bound c' code
      have same (critical : c'.isCritical = true) (worker : c'.isWorker = true) :
          σ'.pool.tasks = σ.pool.tasks :=
        staffed.queue_kept ok found did bound code critical worker other
      cases c' with
      | nextTask index | unlock task | noTask =>
        rw [same rfl rfl]
        exact before
      | _ => trivial

/-! ## One worker -/

end PoolConfig

/-- The task that a worker has taken and whose callable it has not invoked. -/
def PoolCode.taken : PoolCode → List Task
  | .unlock task | .call task => [task]
  | _ => []

/-- Only a worker invokes a callable. -/
theorem Dispatch.after_called {d : Dispatch} {h : Heap V ε} {tasks : List Task} {w : Nat}
    {c : PoolCode} (other : c.isWorker = false) :
    (d.after h tasks w c).called = d.called := by
  cases c with
  | call task => cases other
  | nextTask index => cases other
  | _ => rfl

/-- A worker that finds the first task ready takes the tasks in order. -/
theorem taken_did {pool pool' : Pool V ε} {h : Heap V ε} {workers thread woken : Nat} {c : PoolCode}
    {next : List PoolCode} {api : Option (Api V ε)} {d : Dispatch}
    (did : pool.Did h workers thread woken c pool' next api) (worker : c.isWorker = true)
    (first : ∀ index, c = .nextTask index → index = 0)
    (ready : c = .nextTask 0 → ∀ task rest, pool.tasks = task :: rest → task.isReady h = true) :
    (d.after h pool.tasks thread c).submitted = d.submitted ∧
    (d.after h pool.tasks thread c).called ++ next.head?.elim [] PoolCode.taken ++ pool'.tasks =
      d.called ++ c.taken ++ pool.tasks ∧
    ∀ index, next.head? = some (.nextTask index) → index = 0 := by
  cases did with
  | @takes index task found isReady =>
    have zero := first index rfl
    rw [zero] at found ⊢
    obtain ⟨rest, split⟩ : ∃ rest, pool.tasks = task :: rest := by
      cases is : pool.tasks with
      | nil =>
        rw [is] at found
        cases found
      | cons head rest =>
        rw [is] at found
        exact ⟨rest, congrArg (· :: rest) (Option.some.inj found)⟩
    rw [Dispatch.after_nextTask, found, split]
    refine ⟨rfl, ?_, nofun⟩
    change d.called ++ [task] ++ rest = d.called ++ [] ++ task :: rest
    rw [List.append_nil, List.append_assoc, List.singleton_append]
  | @skips index task found unready =>
    have zero := first index rfl
    rw [zero] at found
    have front : task.isReady h = true := by
      cases is : pool.tasks with
      | nil =>
        rw [is] at found
        cases found
      | cons head rest =>
        rw [is] at found
        rw [← Option.some.inj found]
        exact ready (congrArg PoolCode.nextTask zero) head rest is
    rw [front] at unready
    cases unready
  | @scanned index ended =>
    rw [Dispatch.after_nextTask, ended]
    exact ⟨rfl, rfl, nofun⟩
  | loop =>
    refine ⟨rfl, rfl, fun index same => ?_⟩
    exact (PoolCode.nextTask.inj (Option.some.inj same)).symm
  | @call task =>
    refine ⟨rfl, ?_, nofun⟩
    change d.called ++ [task] ++ [] ++ pool.tasks = d.called ++ [task] ++ pool.tasks
    rw [List.append_nil]
  | ends | threadLoop | unlock | relock | notifies | notified | release | leaves | sleeps | wakes
  | returns => exact ⟨rfl, rfl, nofun⟩
  | execute | whenAll | makeTask | emplaceBack | getFuture | shutdownNotifyThreads | joins
  | joined | clears | cleared => cases worker

namespace PoolConfig

variable {workers : Nat} {σ σ' : PoolConfig V ε} {thread w : Nat} {c : PoolCode} {d : Dispatch}
  {event : PoolEvent V ε}

/-- A worker that is in code above which nothing runs has nothing else to execute. -/
theorem Staffed.only (staffed : σ.Staffed workers) (bound : w < workers)
    (code : σ.workerCode w = some c) (lowest : c.isBase = false) :
    σ.runtime.threads[w]? = some [.external c] := by
  obtain ⟨stack, found, kind⟩ := staffed.working w bound
  cases kind with
  | inl leaves =>
    unfold workerCode at code
    rw [found, leaves.1] at code
    cases code
  | inr works =>
    obtain ⟨c', works⟩ := works
    rw [workerCode_eq found works] at code
    obtain ⟨_, above, same, _, lets⟩ := works
    rw [Option.some.inj code] at same lets
    have empty : above = [] := by
      by_contra some
      rw [lets some] at lowest
      cases lowest
    rw [found, same, empty, List.nil_append]

/-- When the only worker scans the queue, the first task is ready. -/
theorem Ordered.first_ready (ordered : σ.Ordered) (ok : σ.Ok 1) (staffed : σ.Staffed 1)
    (submissions : σ.Submissions d) {index : Nat} (code : σ.workerCode 0 = some (.nextTask index))
    {task : Task} {rest : List Task} (front : σ.pool.tasks = task :: rest) :
    task.isReady σ.runtime.heap = true := by
  have queued : task ∈ σ.pool.tasks := by
    rw [front]
    exact List.mem_cons_self
  have keeps : .shutdownDestroyRemainingTasks ∉ poolCode σ.runtime.pending := by
    intro pending
    rw [ok.ended_of_clearing pending Nat.one_pos] at code
    cases code
  have made := (ok.ledger.queued task queued).1
  apply ordered.resting_ready ok keeps _ made
  · intro other also depends
    have older := ordered.older ok made depends
    have sorted := submissions.sorted.sublist (submissions.queued.trans submissions.submitted)
    rw [front] at sorted also
    cases List.mem_cons.mp also with
    | inl same =>
      rw [same] at older
      exact Nat.lt_irrefl _ older
    | inr later =>
      have younger := List.rel_of_pairwise_cons sorted later
      exact Nat.lt_asymm older younger
  · intro w bound
    have zero : w = 0 := Nat.lt_one_iff.mp bound
    rw [zero]
    exact ⟨_, staffed.only Nat.one_pos code rfl, rfl⟩

/-- The only worker takes the tasks from the front, in the order of submission; the destructor
destroys what is left. -/
structure Served (σ : PoolConfig V ε) (d : Dispatch) : Prop where
  first : ∀ index, σ.workerCode 0 = some (.nextTask index) → index = 0
  served : ∃ cleared, d.submitted =
      d.called ++ (σ.workerCode 0).elim [] PoolCode.taken ++ cleared ++ σ.pool.tasks ∧
    (cleared ≠ [] → σ.workerCode 0 = none)

/-- Every step of a program that calls `Execute` with futures of earlier tasks serves the tasks in
order. -/
theorem Served.turn (served : σ.Served d) (ordered : σ.Ordered) (ok : σ.Ok 1)
    (staffed : σ.Staffed 1) (submissions : σ.Submissions d) (turn : Turn 1 σ σ' event) :
    σ'.Served (σ.record event σ' d) := by
  obtain ⟨first, cleared, all, ended⟩ := served
  cases turn with
  | quiet silent tasks made codes kept =>
    rw [record_quiet silent]
    cases kept 0 Nat.one_pos with
    | inl same =>
      constructor
      · rw [same]
        exact first
      · rw [same, tasks]
        exact ⟨cleared, all, ended⟩
    | inr returns =>
      obtain ⟨task, was, now⟩ := returns
      constructor
      · rw [now]
        exact nofun
      · rw [was] at all ended
        rw [now, tasks]
        exact ⟨cleared, all, fun some => by cases ended some⟩
  | @statement thread woken c base next api found did codes own others =>
    rw [record_statement found]
    cases worker : c.isWorker with
    | true =>
      obtain ⟨bound, was, goes⟩ := own worker
      have zero : thread = 0 := Nat.lt_one_iff.mp bound
      rw [zero] at was goes
      have none : cleared = [] := by
        by_contra some
        rw [ended some] at was
        cases was
      have starts (index : Nat) (same : c = .nextTask index) : index = 0 := by
        rw [same] at was
        exact first index was
      have ready (same : c = .nextTask 0) (task : Task) (rest : List Task)
          (front : σ.pool.tasks = task :: rest) : task.isReady σ.runtime.heap = true := by
        rw [same] at was
        exact ordered.first_ready ok staffed submissions was front
      have taken : (d.after σ.runtime.heap σ.pool.tasks thread c).submitted = d.submitted ∧
          (d.after σ.runtime.heap σ.pool.tasks thread c).called ++
              next.head?.elim [] PoolCode.taken ++ σ'.pool.tasks =
            d.called ++ c.taken ++ σ.pool.tasks ∧
          ∀ index, next.head? = some (.nextTask index) → index = 0 :=
        taken_did did worker starts ready
      obtain ⟨submitted, takes, begins⟩ := taken
      constructor
      · rw [goes]
        exact begins
      · refine ⟨[], ?_, nofun⟩
        rw [was, none, List.append_nil] at all
        rw [submitted, goes, List.append_nil, takes]
        exact all
    | false =>
      have same : σ'.workerCode 0 = σ.workerCode 0 := others 0 Nat.one_pos fun _ => worker
      have called : (d.after σ.runtime.heap σ.pool.tasks thread c).called = d.called :=
        Dispatch.after_called worker
      constructor
      · rw [same]
        exact first
      rw [same, called]
      have submitted (apart : ∀ task, c ≠ .emplaceBack task) :
          (d.after σ.runtime.heap σ.pool.tasks thread c).submitted = d.submitted :=
        Dispatch.after_submitted apart
      cases did_queueing did with
      | makes _ _ tasks =>
        rw [submitted nofun, tasks]
        exact ⟨cleared, all, ended⟩
      | @queues task _ tasks =>
        refine ⟨cleared, ?_, ended⟩
        change d.submitted ++ [task] = _
        rw [tasks, all]
        exact List.append_assoc _ _ _
      | takes => cases worker
      | @clears _ task rest front _ tasks =>
        have here : .shutdownDestroyRemainingTasks ∈ poolCode σ.runtime.pending := mem_poolCode.mpr
          (Stacks.mem_pending.mpr ⟨_, List.mem_of_getElem? found, List.mem_cons_self⟩)
        refine ⟨cleared ++ [task], ?_, fun _ => ok.ended_of_clearing here Nat.one_pos⟩
        rw [submitted nofun, tasks, all, front]
        simp only [List.append_assoc, List.singleton_append]
      | other _ tasks apart =>
        rw [submitted apart, tasks]
        exact ⟨cleared, all, ended⟩

end PoolConfig

/-- `NextTask` returns, or goes on to the next element. -/
theorem Pool.Did.scan {pool pool' : Pool V ε} {h : Heap V ε} {workers thread woken index : Nat}
    {next : List PoolCode} {api : Option (Api V ε)}
    (did : pool.Did h workers thread woken (.nextTask index) pool' next api) :
    next = [.noTask] ∨ (∃ task, next = [.unlock task]) ∨ next = [.nextTask (index + 1)] ∧
      index < pool.tasks.length ∧ pool'.tasks = pool.tasks := by
  cases did with
  | scanned => exact Or.inl rfl
  | takes => exact Or.inr (Or.inl ⟨_, rfl⟩)
  | skips found => exact Or.inr (Or.inr ⟨rfl, (List.getElem?_eq_some_iff.mp found).1, rfl⟩)

namespace PoolConfig

variable {workers : Nat} {σ σ' : PoolConfig V ε} {thread w : Nat} {c : PoolCode}

/-! ## Every run -/

section Runs

variable {pair : PoolConfig V ε × Dispatch}

/-- In every run the history is in order. -/
theorem recorded
    (reached : ((poolSystem V ε workers).recording Dispatch.start record).Reachable pair) :
    pair.1.Submissions pair.2 ∧ pair.1.Scanned workers pair.2 := by
  apply reached.invariant
  · intro pair initial
    obtain ⟨⟨outside, same⟩, nothing⟩ := initial
    rw [same, nothing]
    refine ⟨⟨List.Pairwise.nil, List.Sublist.slnil, ?_, List.Sublist.slnil, ?_⟩, ?_⟩
    · intro task inside
      cases start_code inside
    · exact fun _ => List.Sublist.slnil
    · intro w bound c code
      rw [start_code (workerCode_pending code)]
      trivial
  · intro pair event after before both stepped
    obtain ⟨taken, added⟩ := System.recording_step.mp stepped
    have good := ok before.erased
    have turn := good.turn (PoolConfig.staffed before.erased) taken
    rw [added]
    exact ⟨both.1.turn good (PoolConfig.staffed (before.erased.next taken)) turn,
      both.2.turn good (PoolConfig.staffed before.erased) turn⟩

/-- In every run of a program that calls `Execute` with futures of earlier tasks, a worker that is
the only one takes the tasks in order. -/
theorem served
    (reached :
      (((poolSystem V ε 1).under Submits).recording Dispatch.start record).Reachable pair) :
    pair.1.Served pair.2 := by
  apply reached.invariant
  · intro pair initial
    obtain ⟨⟨outside, same⟩, nothing⟩ := initial
    rw [same, nothing]
    exact ⟨nofun, [], rfl, nofun⟩
  · intro pair event after before served stepped
    obtain ⟨taken, added⟩ := System.recording_step.mp stepped
    obtain ⟨inside, ordered⟩ := PoolConfig.ordered before.erased
    have staffed := PoolConfig.staffed inside
    rw [added]
    exact served.turn ordered (ok inside) staffed (recorded before.undisciplined).1
      ((ok inside).turn staffed (System.under_step.mp taken).2)

/-- A statement that calls nothing can be executed whenever the pool lets it. -/
theorem step_statement {woken : Nat} {pool : Pool V ε} {next : List PoolCode}
    {base : List (Instr V ε PoolCode)}
    (found : σ.runtime.threads[thread]? = some (.external c :: base))
    (ran : σ.pool.run σ.runtime.heap σ.finished workers thread woken c = some (pool, next, none)) :
    ∃ after, σ.step workers (.run thread woken) = some after := by
  simp only [PoolConfig.step, found, ran, Option.bind_some, perform, Config.step]
  exact ⟨_, rfl⟩

/-- A worker that is in `NextTask`, or has just returned from it. -/
def Scans (σ : PoolConfig V ε) (w : Nat) : Prop :=
  (∃ index, σ.workerCode w = some (.nextTask index)) ∨ σ.workerCode w = some .noTask ∨
    ∃ task, σ.workerCode w = some (.unlock task)

/-- How many elements `NextTask` has not looked at. -/
def unseen (σ : PoolConfig V ε) (w : Nat) : Nat :=
  match σ.workerCode w with
  | some (.nextTask index) => σ.pool.tasks.length + 1 - index
  | _ => 0

/-- `NextTask` looks at the next element, or returns. -/
theorem scan_advances (bound : w < workers)
    (reached : ((poolSystem V ε workers).recording Dispatch.start record).Reachable pair)
    {index : Nat} (code : pair.1.workerCode w = some (.nextTask index)) :
    ∃ after, ((poolSystem V ε workers).recording Dispatch.start record).step pair (.run w 0) =
      some after ∧ after.1.Scans w ∧ after.1.unseen w < pair.1.unseen w := by
  have staffed := PoolConfig.staffed reached.erased
  have good := ok reached.erased
  have found := staffed.only bound code rfl
  obtain ⟨within, _, _⟩ := (recorded reached).2 w bound _ code
  have before : pair.1.unseen w = pair.1.pool.tasks.length + 1 - index := by
    unfold unseen
    rw [code]
  obtain ⟨σ, stepped⟩ : ∃ σ, pair.1.step workers (.run w 0) = some σ := by
    have ran : ∃ pool next, pair.1.pool.run pair.1.runtime.heap pair.1.finished workers w 0
        (.nextTask index) = some (pool, next, none) := by
      simp only [Pool.run]
      split
      · exact ⟨_, _, rfl⟩
      · split
        · exact ⟨_, _, rfl⟩
        · exact ⟨_, _, rfl⟩
    obtain ⟨pool, next, ran⟩ := ran
    exact step_statement found ran
  refine ⟨(σ, record pair.1 (.run w 0) σ pair.2), ?_, ?_⟩
  · exact System.recording_step.mpr ⟨stepped, rfl⟩
  change σ.Scans w ∧ σ.unseen w < _
  rw [before]
  cases good.turn staffed stepped with
  | quiet silent =>
    rw [executes_eq found] at silent
    cases silent
  | @statement _ _ c base next api top did codes own others =>
    rw [found] at top
    have same := (List.cons.inj (Option.some.inj top)).1
    rw [← Instr.external.inj same] at did own
    have goes := (own rfl).2.2
    have ends (c' : PoolCode) (now : σ.workerCode w = some c') (apart : ∀ i, c' ≠ .nextTask i) :
        σ.unseen w < pair.1.pool.tasks.length + 1 - index := by
      unfold unseen
      rw [now]
      cases c' with
      | nextTask i => exact absurd rfl (apart i)
      | _ => exact Nat.sub_pos_of_lt (Nat.lt_succ_of_le within)
    cases did.scan with
    | inl leaves =>
      rw [leaves] at goes
      refine ⟨Or.inr (Or.inl goes), ends _ goes ?_⟩
      intro i same
      cases same
    | inr goesOn =>
      cases goesOn with
      | inl taken =>
        obtain ⟨task, taken⟩ := taken
        rw [taken] at goes
        refine ⟨Or.inr (Or.inr ⟨task, goes⟩), ends _ goes ?_⟩
        intro i same
        cases same
      | inr skipped =>
        obtain ⟨skipped, inside, tasks⟩ := skipped
        rw [skipped] at goes
        refine ⟨Or.inl ⟨_, goes⟩, ?_⟩
        unfold unseen
        rw [goes, tasks]
        change pair.1.pool.tasks.length + 1 - (index + 1) < _
        omega

/-- `NextTask` returns after some steps of its worker. -/
theorem scan_returns (bound : w < workers)
    (reached : ((poolSystem V ε workers).recording Dispatch.start record).Reachable pair)
    {index : Nat} (code : pair.1.workerCode w = some (.nextTask index)) :
    ∃ steps last, ((poolSystem V ε workers).recording Dispatch.start record).replay pair
        (List.replicate steps (.run w 0)) = some last ∧
      (last.1.workerCode w = some .noTask ∨ ∃ task, last.1.workerCode w = some (.unlock task)) := by
  let runs (pair : PoolConfig V ε × Dispatch) : Prop :=
    ((poolSystem V ε workers).recording Dispatch.start record).Reachable pair ∧ pair.1.Scans w
  let returned (pair : PoolConfig V ε × Dispatch) : Prop :=
    pair.1.workerCode w = some .noTask ∨ ∃ task, pair.1.workerCode w = some (.unlock task)
  have advances (pair : PoolConfig V ε × Dispatch) (goes : runs pair) : returned pair ∨
      ∃ after, ((poolSystem V ε workers).recording Dispatch.start record).step pair (.run w 0) =
        some after ∧ runs after ∧ after.1.unseen w < pair.1.unseen w := by
    obtain ⟨reached, scans⟩ := goes
    cases scans with
    | inl scanning =>
      right
      obtain ⟨index, code⟩ := scanning
      obtain ⟨after, stepped, scans, fewer⟩ := scan_advances bound reached code
      exact ⟨after, stepped, ⟨reached.next stepped, scans⟩, fewer⟩
    | inr leaves => exact Or.inl leaves
  obtain ⟨steps, last, replayed, _, ended⟩ :=
    System.replay_until advances pair ⟨reached, Or.inl ⟨index, code⟩⟩
  exact ⟨steps, last, replayed, ended⟩

end Runs

end PoolConfig

/-- `NextTask` returns; it has then taken the first task of the queue, in the order of submission,
that it saw ready, or has left the queue alone and saw none ready. And the callables of a pool with
one worker are invoked in the order of submission, in every run of a program that calls `Execute`
with futures of earlier tasks. -/
theorem first_come_first_served :
    (∀ (workers : Nat) (pair : PoolConfig V ε × Dispatch),
      ((poolSystem V ε workers).recording Dispatch.start PoolConfig.record).Reachable pair →
      ∀ w < workers,
        (∀ index, pair.1.workerCode w = some (.nextTask index) → ∃ steps last,
          ((poolSystem V ε workers).recording Dispatch.start PoolConfig.record).replay pair
            (List.replicate steps (.run w 0)) = some last ∧
          (last.1.workerCode w = some .noTask ∨
            ∃ task, last.1.workerCode w = some (.unlock task))) ∧
        (∀ task, pair.1.workerCode w = some (.unlock task) →
          (pair.2.scans w).Took task pair.1.pool.tasks) ∧
        (pair.1.workerCode w = some .noTask → (pair.2.scans w).Missed pair.1.pool.tasks) ∧
        (pair.2.scans w).tasks.Sublist pair.2.submitted) ∧
    ∀ pair : PoolConfig V ε × Dispatch,
      (((poolSystem V ε 1).under PoolConfig.Submits).recording Dispatch.start
        PoolConfig.record).Reachable pair → pair.2.called <+: pair.2.submitted := by
  constructor
  · intro workers pair reached w bound
    obtain ⟨submissions, scanned⟩ := PoolConfig.recorded reached
    refine ⟨?_, ?_, ?_, submissions.scanned w⟩
    · exact fun index code => PoolConfig.scan_returns bound reached code
    · exact fun task code => scanned w bound _ code
    · exact fun code => scanned w bound _ code
  · intro pair reached
    obtain ⟨cleared, all, _⟩ := (PoolConfig.served reached).served
    rw [all, List.append_assoc, List.append_assoc]
    exact List.prefix_append _ _

/-- The first of two tasks throws, and the worker goes on to the one that depends on it. -/
def orderedRun : List (PoolEvent Nat String) :=
  dependentRun ++ [PoolEvent.funcReturn 0 (.error (.user "thrown"))] ++
    List.replicate 24 (PoolEvent.run 0 0)

/-- The run can be replayed. -/
theorem orderedRun_replays :
    ((((poolSystem Nat String 1).under PoolConfig.Submits).recording Dispatch.start
      PoolConfig.record).replay (PoolConfig.start 1 1, Dispatch.start) orderedRun).isSome =
        true := by
  decide +kernel

/-- The configuration and the history after the run. -/
def orderedCalls : PoolConfig Nat String × Dispatch :=
  ((((poolSystem Nat String 1).under PoolConfig.Submits).recording Dispatch.start
    PoolConfig.record).replay (PoolConfig.start 1 1, Dispatch.start) orderedRun).get
      orderedRun_replays

/-- Both callables were invoked, in the order of submission. -/
theorem orderedCalls_served : orderedCalls.2.called = [⟨1, some 0, []⟩, ⟨4, some 2, [1]⟩] ∧
    orderedCalls.2.called <+: orderedCalls.2.submitted := by
  have initial : (((poolSystem Nat String 1).under PoolConfig.Submits).recording Dispatch.start
      PoolConfig.record).initial (PoolConfig.start 1 1, Dispatch.start) := ⟨⟨1, rfl⟩, rfl⟩
  refine ⟨by decide +kernel, ?_⟩
  exact first_come_first_served.2 _ (System.Reachable.of_replay initial orderedRun_replays)

end Azul.Async
