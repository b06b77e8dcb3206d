import Azul.Async.PoolSteps

/-!
# Every reachable pool

The steps of a program with a pool are steps of the runtime that keep its promises in order, and
they move tasks as the ledger allows. What the library does to the promise of a task is what the
pool's code has begun: a completing call of it runs above the worker that will lock again, and its
end above the worker's loop or above the destructor. Once the workers are joined and the queue is
cleared no code of the pool is left.
-/

namespace Azul.Async

open Foundation

variable {V ε : Type}

/-! ## The invariant -/

/-- What runs for the promise of a task needs the pool's code that began it below it. -/
def Pool.needs (pool : Pool V ε) (x : Instr V ε PoolCode) (below : Instr V ε PoolCode → Prop) :
    Prop :=
  ∀ task ∈ pool.made,
    (x.completes task.promise = true → below (.external (.relock task))) ∧
    (x = .aboutToDestroyPromise task.promise →
      below (.external .loop) ∨ below (.external .shutdownDestroyRemainingTasks))

/-- A thread may execute code: workers the loop, the program's threads the destructor, and both
`Execute`, but the program's only before the destructor. -/
def PoolCode.Assigned (workers : Nat) (pool : Pool V ε) (thread : Nat) (c : PoolCode) : Prop :=
  if c.isExecute = true then thread < workers ∨ pool.destroying = false
  else if c.isDestructor = true then workers ≤ thread
  else thread < workers

namespace PoolConfig

/-- Which code is on which thread. -/
structure Placed (workers : Nat) (σ : PoolConfig V ε) : Prop where
  assigned : ∀ thread stack, σ.runtime.threads[thread]? = some stack →
    ∀ c : PoolCode, Instr.external c ∈ stack → c.Assigned workers σ.pool thread
  joined : ∀ c ∈ poolCode σ.runtime.pending, ∀ worker < workers, c.joined worker = true →
    σ.finished worker = true
  destroyed : σ.pool.destroyed = true →
    σ.pool.tasks = [] ∧ ∀ worker < workers, σ.finished worker = true
  destructor : Stacks.count (poolCode σ.runtime.pending) PoolCode.isDestructor +
    σ.pool.destroyed.toNat = σ.pool.destroying.toNat

/-- The invariant of a program with a pool. -/
structure Ok (workers : Nat) (σ : PoolConfig V ε) : Prop where
  reached : (Async.runtime V ε PoolCode).Reachable σ.runtime
  ledger : σ.pool.Ledger σ.runtime.heap (poolCode σ.runtime.pending)
  nested : ∀ stack ∈ σ.runtime.threads, Stacks.Nested σ.pool.needs stack
  placed : σ.Placed workers

variable {workers : Nat} {σ σ' : PoolConfig V ε}

/-! ## Finished workers -/

/-- A thread is finished when its stack is empty. -/
theorem finished_iff {thread : Nat} :
    σ.finished thread = true ↔ σ.runtime.threads[thread]? = some [] := by
  unfold finished
  split <;> simp_all

/-- Nothing starts on a worker that has finished. -/
theorem finished_kept {thread worker : Nat} {old new base : List (Instr V ε PoolCode)}
    (replaced : Replaced σ.runtime σ'.runtime thread old new base)
    (awake : workers ≤ thread ∨ old ++ base ≠ []) (bound : worker < workers)
    (finished : σ.finished worker = true) : σ'.finished worker = true := by
  rw [finished_iff] at finished ⊢
  rw [replaced.threads, if_neg]
  · exact finished
  · rintro rfl
    rcases awake with outside | busy
    · exact Nat.not_le_of_lt bound outside
    · exact busy (Option.some.inj (replaced.found.symm.trans finished))

/-- A thread on which the program is in control is not a finished worker. -/
theorem awake_of_inProgram {thread : Nat} {stack : List (Instr V ε PoolCode)}
    (found : σ.runtime.threads[thread]? = some stack)
    (control : σ.inProgram workers thread = true) : workers ≤ thread ∨ stack ≠ [] := by
  unfold inProgram at control
  rw [found] at control
  cases stack with
  | nil => exact Or.inl (by simpa using control)
  | cons => exact Or.inr (by simp)

/-! ## Placement is kept -/

/-- What a thread that replaces code of the pool owes to the placement of code. -/
theorem Placed.replace {thread : Nat} {old new base : List (Instr V ε PoolCode)}
    {left next : List PoolCode} (placed : σ.Placed workers)
    (replaced : Replaced σ.runtime σ'.runtime thread old new base)
    (awake : workers ≤ thread ∨ old ++ base ≠ [])
    (gone : poolCode (old : Multiset (Instr V ε PoolCode)) = left)
    (come : poolCode (new : Multiset (Instr V ε PoolCode)) = next)
    (kept : ∀ thread stack, σ.runtime.threads[thread]? = some stack →
      ∀ c : PoolCode, Instr.external c ∈ stack → c.Assigned workers σ'.pool thread)
    (assigned : ∀ c ∈ next, c.Assigned workers σ'.pool thread)
    (joined : ∀ c ∈ next, ∀ worker < workers, c.joined worker = true →
      σ.finished worker = true)
    (destroyed : σ'.pool.destroyed = true →
      σ'.pool.tasks = [] ∧ ∀ worker < workers, σ.finished worker = true)
    (destructor : next.countP PoolCode.isDestructor + σ'.pool.destroyed.toNat +
        σ.pool.destroying.toNat =
      left.countP PoolCode.isDestructor + σ.pool.destroyed.toNat + σ'.pool.destroying.toNat) :
    σ'.Placed workers := by
  obtain ⟨rest, before, after⟩ := replaced.pending
  have finished {worker : Nat} (bound : worker < workers) :
      σ.finished worker = true → σ'.finished worker = true := finished_kept replaced awake bound
  constructor
  · intro other stack found c inside
    rw [replaced.threads] at found
    split_ifs at found with same
    · cases found
      subst same
      rcases List.mem_append.mp inside with new | inside
      · apply assigned
        rw [← Multiset.mem_coe, ← come]
        exact mem_poolCode.mpr new
      · exact kept thread _ replaced.found c (List.mem_append_right old inside)
    · exact kept other stack found c inside
  · intro c inside worker bound ended
    apply finished bound
    rw [after, poolCode_add, come] at inside
    rcases Multiset.mem_add.mp inside with new | inside
    · exact joined c new worker bound ended
    · refine placed.joined c ?_ worker bound ended
      rw [before, poolCode_add]
      exact Multiset.mem_add.mpr (Or.inr inside)
  · intro gone
    obtain ⟨empty, all⟩ := destroyed gone
    exact ⟨empty, fun worker bound => finished bound (all worker bound)⟩
  · have was := placed.destructor
    rw [before, poolCode_add, gone, Stacks.count_add, Stacks.count_coe] at was
    rw [after, poolCode_add, come, Stacks.count_add, Stacks.count_coe]
    omega

/-- The program is in control of threads that exist. -/
theorem stack_of_inProgram {thread : Nat} (control : σ.inProgram workers thread = true) :
    ∃ stack, σ.runtime.threads[thread]? = some stack := by
  cases found : σ.runtime.threads[thread]? with
  | none => simp [inProgram, found] at control
  | some stack => exact ⟨stack, rfl⟩

end PoolConfig

/-! ## The invariant is kept -/

section Needs

variable {pool pool' : Pool V ε} {x : Instr V ε PoolCode}

/-- Needs are met by more instructions below. -/
theorem Pool.needs_grow (x : Instr V ε PoolCode) (below wider : Instr V ε PoolCode → Prop)
    (wide : ∀ y, below y → wider y) (needs : pool.needs x below) : pool.needs x wider :=
  fun task made => ⟨fun completes => wide _ ((needs task made).1 completes),
    fun breaks => ((needs task made).2 breaks).imp (wide _) (wide _)⟩

/-- The pool's own code needs nothing. -/
theorem Pool.needs_external (c : PoolCode) (below : Instr V ε PoolCode → Prop) :
    pool.needs (.external c) below :=
  fun _ _ => ⟨fun completes => (by cases completes), fun breaks => (by cases breaks)⟩

/-- Code of the pool may be put on any stack. -/
theorem Pool.nested_external {base : List (Instr V ε PoolCode)} (code : List PoolCode)
    (nested : Stacks.Nested pool.needs base) :
    Stacks.Nested pool.needs (code.map .external ++ base) :=
  nested.append fun y inside below _ => by
    obtain ⟨c, -, rfl⟩ := List.mem_map.mp inside
    exact Pool.needs_external c below

/-- An instruction in order completes or ends no promise that is not allocated. -/
theorem Instr.Typed.elsewhere {X : Type} {h : Heap V ε} {P : Multiset (Instr V ε X)}
    (layout : Layout h P) {x : Instr V ε X} (typed : x.Typed h) :
    x.completes h.next = false ∧ x ≠ .aboutToDestroyPromise h.next := by
  have apart {s : StateId} (old : s < h.next) : s ≠ h.next := Nat.ne_of_lt old
  cases x with
  | setValue s value => simpa [completes] using apart typed.2.1
  | resolve s value => simpa [completes] using apart (layout.derived_lt typed.2)
  | setException s error => simpa [completes] using apart (layout.promised_lt typed)
  | walk s index => simpa [completes] using apart typed
  | aboutToDestroyPromise s => simpa [completes] using apart (layout.promised_lt typed)
  | _ => simp [completes]

/-- A step makes no task but one with a new promise. -/
theorem TaskMove.made_cases {h h' : Heap V ε} {C C' : Multiset PoolCode}
    (move : TaskMove pool h C pool' h' C') :
    ∀ task ∈ pool'.made, task ∈ pool.made ∨ task.promise = h.next := by
  intro task made
  cases move with
  | makeTask promise =>
    rcases List.mem_append.mp made with made | new
    · exact Or.inl made
    · exact Or.inr (List.mem_singleton.mp new ▸ promise)
  | other same | advance same | emplaceBack same => exact Or.inl (same.made ▸ made)
  | _ => exact Or.inl made

end Needs

/-! ## Kinds of steps -/

namespace PoolConfig

/-- What a step of the runtime below the pool does. -/
structure LibraryStep (workers : Nat) (σ : PoolConfig V ε) (thread : Nat)
    (next : Config V ε PoolCode) (old new base : List (Instr V ε PoolCode)) : Prop where
  replaced : Replaced σ.runtime next thread old new base
  awake : workers ≤ thread ∨ old ++ base ≠ []
  met : ∀ x ∈ old, σ.pool.needs x (· ∈ base)
  own : ∀ x ∈ old, x.code = none
  spares : Spares σ.runtime.heap next.heap (· ∈ σ.pool.made.map Task.promise) old new

/-- Why the runtime below the pool replaces some code on a thread. -/
inductive Reason (workers : Nat) (σ : PoolConfig V ε) (thread : Nat) :
    List (Instr V ε PoolCode) → PoolEvent V ε → Event V ε PoolCode → Prop
  /-- An instruction of the library. -/
  | run (x : Instr V ε PoolCode) (woken : Nat) :
    Reason workers σ thread [x] (.run thread woken) (.run thread)
  /-- The end of a callable that `Then` attached. -/
  | ret (d : StateId) (result : Result V ε) :
    Reason workers σ thread [.inCallable d] (.ret thread result) (.ret thread result)
  /-- A call by the program. -/
  | call (api : Api V ε) (control : σ.inProgram workers thread = true) :
    Reason workers σ thread [] (.call thread api) (.call thread api)

/-- What the events of a program with a pool come down to. -/
inductive Stepped (workers : Nat) (σ σ' : PoolConfig V ε) : PoolEvent V ε → Prop
  /-- The runtime below the pool goes on. -/
  | library {event below thread old new base} (disciplined : Disciplined σ.runtime below)
      (running : σ.runtime.step below = some σ'.runtime) (same : σ'.pool = σ.pool)
      (step : LibraryStep workers σ thread σ'.runtime old new base)
      (reason : Reason workers σ thread old event below) : Stepped workers σ σ' event
  | statement {thread woken c base pool next api}
      (found : σ.runtime.threads[thread]? = some (.external c :: base))
      (ran : σ.pool.run σ.runtime.heap σ.finished workers thread woken c = some (pool, next, api))
      (performed : σ.perform thread true pool next api = some σ') :
      Stepped workers σ σ' (.run thread woken)
  | funcReturn {thread task base result}
      (found : σ.runtime.threads[thread]? = some (.external (.func task) :: base))
      (performed : σ.perform thread true
        { σ.pool with results := Function.update σ.pool.results task.promise (some result) }
        [.relock task] (some (.complete task.promise result)) = some σ') :
      Stepped workers σ σ' (.funcReturn thread result)
  | execute {thread base isVoid dependencies}
      (found : σ.runtime.threads[thread]? = some base)
      (control : σ.inProgram workers thread = true)
      (allowed : thread < workers ∨ σ.pool.destroying = false)
      (performed : σ.perform thread false σ.pool [.execute isVoid dependencies] none = some σ') :
      Stepped workers σ σ' (.execute thread isVoid dependencies)
  | destroy {thread base} (found : σ.runtime.threads[thread]? = some base)
      (control : σ.inProgram workers thread = true) (outside : workers ≤ thread)
      (first : σ.pool.destroying = false) (idle : σ.noExecute workers)
      (performed : σ.perform thread false { σ.pool with destroying := true }
        [.shutdownNotifyThreads] none = some σ') : Stepped workers σ σ' (.destroy thread)

end PoolConfig

namespace PoolConfig.Ok

variable {workers : Nat} {σ σ' : PoolConfig V ε} {thread : Nat}

/-- What is pending for the promise of a task finds the code that began it. -/
theorem needs (ok : σ.Ok workers) {x : Instr V ε PoolCode} (inside : x ∈ σ.runtime.pending) :
    σ.pool.needs x (· ∈ σ.runtime.pending) := by
  obtain ⟨stack, member, held⟩ := Stacks.mem_pending.mp inside
  exact Pool.needs_grow x _ _ (fun y below => Stacks.mem_pending.mpr ⟨stack, member, below⟩)
    ((ok.nested stack member).needs Pool.needs_grow held)

/-- While a completing call of a task's promise runs, a worker is going to lock again for it. -/
theorem relocks (ok : σ.Ok workers) {x : Instr V ε PoolCode} (inside : x ∈ σ.runtime.pending)
    {task : Task} (made : task ∈ σ.pool.made) (completes : x.completes task.promise = true) :
    .relock task ∈ poolCode σ.runtime.pending :=
  mem_poolCode.mpr ((ok.needs inside task made).1 completes)

/-- The needs of a pending instruction do not change when a task is made. -/
theorem needs_kept (ok : σ.Ok workers) {pool' : Pool V ε}
    (made : ∀ task ∈ pool'.made, task ∈ σ.pool.made ∨ task.promise = σ.runtime.heap.next)
    {x : Instr V ε PoolCode} (inside : x ∈ σ.runtime.pending)
    {below : Instr V ε PoolCode → Prop} (needs : σ.pool.needs x below) : pool'.needs x below := by
  have layout := (Config.ok ok.reached).inv.layout
  obtain ⟨completes, breaks⟩ := (layout.typed x inside).elsewhere layout
  intro task known
  rcases made task known with old | new
  · exact needs task old
  · rw [new]
    exact ⟨fun clash => by simp [completes] at clash, fun clash => absurd clash breaks⟩

/-- Nested stacks stay nested when one of them is replaced. -/
theorem nested_replaced (ok : σ.Ok workers) {old new base : List (Instr V ε PoolCode)}
    (replaced : Replaced σ.runtime σ'.runtime thread old new base)
    (made : ∀ task ∈ σ'.pool.made, task ∈ σ.pool.made ∨ task.promise = σ.runtime.heap.next)
    (nested : Stacks.Nested σ'.pool.needs base → Stacks.Nested σ'.pool.needs (new ++ base)) :
    ∀ stack ∈ σ'.runtime.threads, Stacks.Nested σ'.pool.needs stack :=
  replaced.nested ok.nested (fun _ inside _ _ => ok.needs_kept made inside) nested

/-- Nothing has happened to the next state. -/
theorem blank (ok : σ.Ok workers) : σ.runtime.heap.Blank σ.runtime.heap.next :=
  (Config.ok ok.reached).inv.layout.blank _ (le_refl _)

/-- A step of the library keeps the invariant. -/
theorem library (ok : σ.Ok workers) {old new base : List (Instr V ε PoolCode)}
    (reached : (Async.runtime V ε PoolCode).Reachable σ'.runtime)
    (later : σ.runtime.heap.Later σ'.runtime.heap) (same : σ'.pool = σ.pool)
    (replaced : Replaced σ.runtime σ'.runtime thread old new base)
    (awake : workers ≤ thread ∨ old ++ base ≠ []) (met : ∀ x ∈ old, σ.pool.needs x (· ∈ base))
    (own : ∀ x ∈ old, x.code = none)
    (spares : Spares σ.runtime.heap σ'.runtime.heap (· ∈ σ.pool.made.map Task.promise) old new) :
    σ'.Ok workers := by
  have spared {task : Task} (made : task ∈ σ.pool.made) :
      task.promise ∈ σ.pool.made.map Task.promise := List.mem_map_of_mem made
  constructor
  case reached => exact reached
  case ledger =>
    obtain ⟨rest, before, after⟩ := replaced.pending
    have ledger := ok.ledger
    rw [before, poolCode_add, poolCode_library own] at ledger
    rw [after, poolCode_add, poolCode_library spares.library, same]
    have move : TaskMove σ.pool σ.runtime.heap (0 + poolCode rest) σ.pool σ'.runtime.heap
        (0 + poolCode rest) :=
      .other ⟨⟨rfl, rfl, rfl⟩, rfl⟩ (fun task made => spares.destroyed _ (spared made))
        (fun task made => spares.received _ (spared made)) (by simp) (by simp)
    exact move.ledger later ok.blank ledger
  case nested =>
    refine ok.nested_replaced replaced (fun task made => Or.inl (same ▸ made)) fun nested => ?_
    refine nested.append fun y inside below wide task made => ?_
    rw [same] at made
    constructor
    · intro completes
      obtain ⟨x, member, earlier⟩ := spares.completes y inside _ (spared made) completes
      exact wide _ ((met x member task made).1 earlier)
    · rintro rfl
      exact absurd inside (spares.breaks _ (spared made))
  case placed =>
    have gone : poolCode (old : Multiset (Instr V ε PoolCode)) = ([] : List PoolCode) :=
      poolCode_library own
    have come : poolCode (new : Multiset (Instr V ε PoolCode)) = ([] : List PoolCode) :=
      poolCode_library spares.library
    apply ok.placed.replace replaced awake gone come
    · rw [same]
      exact ok.placed.assigned
    · simp
    · simp
    · rw [same]
      exact ok.placed.destroyed
    · rw [same]

/-- What the pool owes to the promise of a task that it destroys. -/
theorem owed (ok : σ.Ok workers) {task : Task} (made : task ∈ σ.pool.made)
    (alive : σ.runtime.heap.destroyed task.promise = false)
    (ended : .relock task ∉ poolCode σ.runtime.pending) :
    Owed σ.runtime (some (.destroyPromise task.promise)) := by
  refine ⟨alive, fun x inside => ?_⟩
  by_contra completes
  exact ended (ok.relocks inside made (by simpa using completes))

/-- The code on top of a stack is pending. -/
theorem poolCode_split {c : PoolCode} {base : List (Instr V ε PoolCode)}
    (found : σ.runtime.threads[thread]? = some (.external c :: base)) :
    ∃ R, poolCode σ.runtime.pending = c ::ₘ R := by
  obtain ⟨others, split, -⟩ := Stacks.pending_split found
  refine ⟨poolCode ((base : Multiset (Instr V ε PoolCode)) + others), ?_⟩
  rw [Config.pending, split, Stacks.coe_cons_add, poolCode_cons]

/-- Code of the pool that replaces code keeps the invariant, if it owes nothing, moves at most one
task, puts library calls above what they need, and keeps to its threads. -/
theorem performed (ok : σ.Ok workers) {pool : Pool V ε} {next : List PoolCode}
    {api : Option (Api V ε)} {c : PoolCode} {base : List (Instr V ε PoolCode)}
    (found : σ.runtime.threads[thread]? = some (.external c :: base))
    (performed : σ.perform thread true pool next api = some σ') (owed : Owed σ.runtime api)
    (move : ∀ R h' code, Begun σ.runtime.heap api h' code →
      TaskMove σ.pool σ.runtime.heap (c ::ₘ R) pool h' ((next : Multiset PoolCode) + R))
    (met : ∀ h' code, Begun σ.runtime.heap api h' code → ∀ y ∈ code,
      ∀ below : Instr V ε PoolCode → Prop, (∀ other ∈ next, below (.external other)) →
        pool.needs y below)
    (placed : ∀ new, Replaced σ.runtime σ'.runtime thread [.external c] new base →
      poolCode (new : Multiset (Instr V ε PoolCode)) = next → σ'.pool = pool →
      σ'.Placed workers) : σ'.Ok workers := by
  obtain ⟨code, replaced, same, begun⟩ := perform_statement found performed
  obtain ⟨rest, before, after⟩ := replaced.pending
  have come : poolCode ((code ++ next.map .external : List (Instr V ε PoolCode)) :
      Multiset (Instr V ε PoolCode)) = next := by
    rw [← Multiset.coe_add, poolCode_add, poolCode_library begun.spares.library, zero_add,
      poolCode_external]
  obtain ⟨reached, later⟩ := perform_reached ok.reached owed performed
  have moved := move (poolCode rest) _ code begun
  constructor
  case reached => exact reached
  case ledger =>
    have ledger := ok.ledger
    rw [before, Stacks.coe_cons_add, Stacks.coe_nil_add, poolCode_cons] at ledger
    rw [after, poolCode_add, come, same]
    exact moved.ledger later ok.blank ledger
  case nested =>
    refine ok.nested_replaced replaced (same ▸ moved.made_cases) fun nested => ?_
    rw [List.append_assoc]
    refine (Pool.nested_external next nested).append fun y inside below wide => ?_
    rw [same]
    refine met _ code begun y inside below fun other member => wide _ ?_
    exact List.mem_append_left base (List.mem_map_of_mem member)
  case placed => exact placed _ replaced come same

/-- The pool owes nothing to a promise but when a task is destroyed, and then it has ended. -/
theorem statement_owed (ok : σ.Ok workers) {pool : Pool V ε} {next : List PoolCode}
    {api : Option (Api V ε)} {c : PoolCode} {base : List (Instr V ε PoolCode)}
    (found : σ.runtime.threads[thread]? = some (.external c :: base))
    (spec : σ.pool.Ran pool σ.finished workers c next api) : Owed σ.runtime api := by
  cases api with
  | none => trivial
  | some api =>
    cases api with
    | complete s result => exact absurd rfl (spec.completes s result)
    | destroyPromise s =>
      rcases spec.destroys s rfl with ⟨task, rfl, rfl, -⟩ | ⟨task, queued, rfl, rfl, -⟩
      · obtain ⟨R, codes⟩ := poolCode_split found
        have holding : (PoolCode.release task).holding = some (task, .finished) := rfl
        have ledger := ok.ledger
        rw [codes] at ledger
        obtain ⟨-, alone, alive⟩ := ledger.held_alone holding
        refine ok.owed (ledger.held _ (Multiset.mem_cons_self _ _) task _ holding).1 alive ?_
        rw [codes]
        intro relocks
        rcases Multiset.mem_cons.mp relocks with clash | relocks
        · cases clash
        · exact absurd (alone _ relocks) (by simp [PoolCode.holds, PoolCode.holding])
      · obtain ⟨-, alone, alive⟩ := ok.ledger.queued_alone queued
        refine ok.owed (ok.ledger.queued task queued).1 alive fun relocks => ?_
        exact absurd (alone _ relocks) (by simp [PoolCode.holds, PoolCode.holding])
    | _ => trivial

/-- A library call of a statement finds the code below it that its promise needs. -/
theorem statement_met {pool pool' : Pool V ε} {h h' : Heap V ε} {finished : Nat → Bool}
    {c : PoolCode} {next : List PoolCode} {api : Option (Api V ε)}
    {code : List (Instr V ε PoolCode)} (spec : pool.Ran pool' finished workers c next api)
    (begun : Begun h api h' code) {y : Instr V ε PoolCode} (inside : y ∈ code)
    {below : Instr V ε PoolCode → Prop} (above : ∀ other ∈ next, below (.external other)) :
    pool'.needs y below := by
  intro task _
  by_cases about : ∀ call, api = some call → task.promise ∉ call.promise
  · constructor
    · intro completes
      obtain ⟨_, clash, -⟩ := begun.spares.completes y inside _ about completes
      cases clash
    · rintro rfl
      exact absurd inside (begun.spares.breaks _ about)
  · push Not at about
    obtain ⟨call, rfl, own⟩ := about
    cases call with
    | complete s result => exact absurd rfl (spec.completes s result)
    | destroyPromise s =>
      obtain ⟨-, made⟩ := Option.ite_none_right_eq_some.mp begun
      obtain rfl : [.aboutToDestroyPromise s] = code := congrArg Prod.snd (Option.some.inj made)
      obtain rfl := List.mem_singleton.mp inside
      refine ⟨fun completes => (by cases completes), fun _ => ?_⟩
      rcases spec.destroys s rfl with ⟨-, -, -, single⟩ | ⟨-, -, -, -, single⟩
      · exact Or.inl (above _ (by simp [single]))
      · exact Or.inr (above _ (by simp [single]))
    | _ => cases own

/-- A statement keeps to its thread. -/
theorem statement_placed (ok : σ.Ok workers) {pool : Pool V ε} {next : List PoolCode}
    {api : Option (Api V ε)} {c : PoolCode} {new base : List (Instr V ε PoolCode)}
    (spec : σ.pool.Ran pool σ.finished workers c next api)
    (replaced : Replaced σ.runtime σ'.runtime thread [.external c] new base)
    (come : poolCode (new : Multiset (Instr V ε PoolCode)) = next) (same : σ'.pool = pool) :
    σ'.Placed workers := by
  have here := ok.placed.assigned thread _ replaced.found c List.mem_cons_self
  have pending : c ∈ poolCode σ.runtime.pending := mem_poolCode.mpr
    (Stacks.mem_pending.mpr ⟨_, List.mem_of_getElem? replaced.found, List.mem_cons_self⟩)
  have balance := ok.placed.destructor
  apply ok.placed.replace replaced (Or.inr (by simp)) (poolCode_external [c]) come
  case kept =>
    intro thread stack found c inside
    have assigned := ok.placed.assigned thread stack found c inside
    rwa [PoolCode.Assigned, same, spec.destroying]
  case assigned =>
    intro other inside
    obtain ⟨execute, destructor⟩ := spec.kind other inside
    rwa [PoolCode.Assigned, same, spec.destroying, execute, destructor]
  case joined => exact spec.joined (ok.placed.joined c pending)
  case destroyed =>
    rw [same]
    intro gone
    rcases spec.destroyed with ⟨kept, -⟩ | ⟨rfl, -, empty, -⟩
    · obtain ⟨empty, finished⟩ := ok.placed.destroyed (kept.symm.trans gone)
      refine ⟨spec.tasks ?_ empty, finished⟩
      rintro task rfl
      -- nobody is left that could submit a task
      rcases here with worker | before
      · have ended := PoolConfig.finished_iff.mp (finished thread worker)
        cases replaced.found.symm.trans ended
      · rw [before, ← kept, gone, Bool.toNat_true, Bool.toNat_false] at balance
        omega
    · exact ⟨empty, fun worker bound => ok.placed.joined _ pending worker bound rfl⟩
  case destructor =>
    rw [same, spec.destroying]
    rcases spec.destroyed with ⟨kept, stays⟩ | ⟨rfl, gone, -, rfl⟩
    · have counted : next.countP PoolCode.isDestructor = [c].countP PoolCode.isDestructor := by
        match next, spec.single with
        | [], _ => simp [show c.isDestructor = false by simpa using stays]
        | [other], _ => simp [(spec.kind other List.mem_cons_self).2]
      rw [kept, counted]
    · have counted : 0 < Stacks.count (poolCode σ.runtime.pending) PoolCode.isDestructor :=
        Stacks.count_pos.mpr ⟨_, pending, rfl⟩
      have bound : σ.pool.destroying.toNat ≤ 1 := Bool.toNat_le _
      rw [gone, Bool.toNat_true, List.countP_nil, List.countP_singleton]
      simp only [PoolCode.isDestructor, if_true]
      omega

/-- A statement of the pool keeps the invariant. -/
theorem statement (ok : σ.Ok workers) {pool : Pool V ε} {next : List PoolCode}
    {api : Option (Api V ε)} {c : PoolCode} {base : List (Instr V ε PoolCode)} {woken : Nat}
    (found : σ.runtime.threads[thread]? = some (.external c :: base))
    (ran : σ.pool.run σ.runtime.heap σ.finished workers thread woken c = some (pool, next, api))
    (performed : σ.perform thread true pool next api = some σ') : σ'.Ok workers := by
  have spec := Pool.run_ran ran
  apply ok.performed found performed (ok.statement_owed found spec)
  · exact fun R h' code begun => Pool.run_move ran begun
  · exact fun h' code begun y inside below above => statement_met spec begun inside above
  · exact fun new replaced come same => ok.statement_placed spec replaced come same

/-- The end of a task's callable keeps the invariant. -/
theorem funcReturn (ok : σ.Ok workers) {task : Task} {result : Result V ε}
    {base : List (Instr V ε PoolCode)}
    (found : σ.runtime.threads[thread]? = some (.external (.func task) :: base))
    (performed : σ.perform thread true
      { σ.pool with results := Function.update σ.pool.results task.promise (some result) }
      [.relock task] (some (.complete task.promise result)) = some σ') : σ'.Ok workers := by
  obtain ⟨R, codes⟩ := poolCode_split found
  have ledger := ok.ledger
  rw [codes] at ledger
  have holding : (PoolCode.func task).holding = some (task, .running) := rfl
  have known := (ledger.held _ (Multiset.mem_cons_self _ R) task _ holding).1
  apply ok.performed found performed (ledger.held_alone holding).2.2
  · intro R h' code begun
    obtain ⟨-, made⟩ := Option.ite_none_right_eq_some.mp begun
    obtain rfl : σ.runtime.heap.receive task.promise result = h' :=
      congrArg Prod.fst (Option.some.inj made)
    exact .funcReturn
  · intro h' code begun y inside below above other made
    by_cases about : other.promise = task.promise
    · obtain rfl : other = task :=
        List.inj_on_of_nodup_map ok.ledger.distinct made known about
      refine ⟨fun _ => above _ List.mem_cons_self, ?_⟩
      rintro rfl
      obtain ⟨-, made⟩ := Option.ite_none_right_eq_some.mp begun
      obtain rfl := congrArg Prod.snd (Option.some.inj made)
      cases result <;> simp at inside
    · have spares := begin_spares begun
      have apart : other.promise ∉ (Api.complete task.promise result).promise :=
        fun same => about (Option.some.inj same).symm
      constructor
      · intro completes
        obtain ⟨_, clash, -⟩ := spares.completes y inside _ apart completes
        cases clash
      · rintro rfl
        exact absurd inside (spares.breaks _ apart)
  · intro new replaced come same
    have here := ok.placed.assigned thread _ found _ List.mem_cons_self
    apply ok.placed.replace replaced (Or.inr (by simp)) (poolCode_external [.func task]) come
    · rw [same]
      exact ok.placed.assigned
    · intro c inside
      obtain rfl := List.mem_singleton.mp inside
      exact here
    · intro c inside worker bound clash
      obtain rfl := List.mem_singleton.mp inside
      cases clash
    · rw [same]
      exact ok.placed.destroyed
    · rw [same]
      rfl

/-- Entering a member function of the pool keeps the invariant, if its code keeps to its thread. -/
theorem entry (ok : σ.Ok workers) {pool : Pool V ε} {c : PoolCode}
    {base : List (Instr V ε PoolCode)} (found : σ.runtime.threads[thread]? = some base)
    (control : σ.inProgram workers thread = true)
    (performed : σ.perform thread false pool [c] none = some σ') (same : σ.pool.SameTasks pool)
    (plain : c.isPlain = true) (begins : ∀ worker, c.joined worker = false)
    (kept : ∀ thread stack, σ.runtime.threads[thread]? = some stack →
      ∀ c : PoolCode, Instr.external c ∈ stack → c.Assigned workers pool thread)
    (assigned : c.Assigned workers pool thread) (destroyed : pool.destroyed = σ.pool.destroyed)
    (destructor : c.isDestructor.toNat + σ.pool.destroying.toNat = pool.destroying.toNat) :
    σ'.Ok workers := by
  obtain ⟨replaced, now, heap⟩ := perform_entry found performed
  have nothing : Owed σ.runtime none := trivial
  obtain ⟨reached, later⟩ := perform_reached ok.reached nothing performed
  obtain ⟨rest, before, after⟩ := replaced.pending
  constructor
  case reached => exact reached
  case ledger =>
    have ledger := ok.ledger
    rw [before, poolCode_add] at ledger
    rw [after, poolCode_add, poolCode_external, now, heap]
    have move : TaskMove σ.pool σ.runtime.heap (0 + poolCode rest) pool σ.runtime.heap
        ((([c] : List PoolCode) : Multiset PoolCode) + poolCode rest) :=
      .other same (fun _ _ => rfl) (fun _ _ => rfl) (by simp) (by simpa using plain)
    exact move.ledger (heap ▸ later) ok.blank ledger
  case nested =>
    refine ok.nested_replaced replaced (fun task made => Or.inl ?_) fun nested =>
      Pool.nested_external [c] nested
    rw [now, same.made] at made
    exact made
  case placed =>
    have gone : poolCode (([] : List (Instr V ε PoolCode)) : Multiset (Instr V ε PoolCode)) =
        ([] : List PoolCode) := rfl
    apply ok.placed.replace replaced (awake_of_inProgram found control) gone (poolCode_external [c])
    · rw [now]
      exact kept
    · intro other inside
      obtain rfl := List.mem_singleton.mp inside
      rwa [now]
    · intro other inside worker _ clash
      obtain rfl := List.mem_singleton.mp inside
      rw [begins worker] at clash
      cases clash
    · rw [now, destroyed, same.tasks]
      exact ok.placed.destroyed
    · rw [now, destroyed, ← destructor, List.countP_singleton, List.countP_nil]
      cases c.isDestructor
      · simp
      · simp
        omega

/-- The promise of a task is a promise. -/
theorem promise (ok : σ.Ok workers) {s : StateId} (known : s ∈ σ.pool.made.map Task.promise) :
    σ.runtime.heap.origin s = some .promise := by
  obtain ⟨task, made, rfl⟩ := List.mem_map.mp known
  exact (ok.ledger.made task made).1

/-- An instruction of the library is a step below the pool. -/
theorem run (ok : σ.Ok workers) {x : Instr V ε PoolCode} {base : List (Instr V ε PoolCode)}
    {next : Config V ε PoolCode} (found : σ.runtime.threads[thread]? = some (x :: base))
    (own : x.code = none) (stepped : σ.runtime.step (.run thread) = some next) :
    ∃ new, LibraryStep workers σ thread next [x] new base := by
  have good := Config.ok ok.reached
  have member := List.mem_of_getElem? found
  have executed := stepped
  simp only [Config.step, found] at executed
  obtain ⟨⟨heap, new⟩, executed, same⟩ := Option.map_eq_some_iff.mp executed
  have typed := good.inv.layout.typed x (Stacks.mem_pending.mpr ⟨_, member, List.mem_cons_self⟩)
  have spares := execute_spares good.inv.layout typed executed
  cases same
  refine ⟨new, ⟨found, rfl⟩, Or.inr (by simp), ?_, ?_,
    ⟨fun s task => spares.destroyed s (ok.promise task),
      fun s task => spares.received s (ok.promise task),
      fun y inside s task => spares.completes y inside s (ok.promise task),
      fun s task => spares.breaks s (ok.promise task), spares.library⟩⟩
  · intro y inside
    obtain rfl := List.mem_singleton.mp inside
    exact (ok.nested _ member).1
  · intro y inside
    obtain rfl := List.mem_singleton.mp inside
    exact own

/-- The end of a callable that `Then` attached is a step below the pool. -/
theorem ret (ok : σ.Ok workers) {result : Result V ε} {next : Config V ε PoolCode}
    (stepped : σ.runtime.step (.ret thread result) = some next) :
    ∃ d new base, LibraryStep workers σ thread next [.inCallable d] new base := by
  have good := Config.ok ok.reached
  have returned := stepped
  simp only [Config.step] at returned
  split at returned
  case h_1 d base found =>
    obtain ⟨-, same⟩ := Option.ite_none_right_eq_some.mp returned
    have member := List.mem_of_getElem? found
    have typed := good.inv.layout.typed _ (Stacks.mem_pending.mpr ⟨_, member, List.mem_cons_self⟩)
    have ended {y : Instr V ε PoolCode} (decision : y.decision = some (d, result))
        (same : σ.runtime.update thread (σ.runtime.heap.receive d result) (y :: base) = next) :
        LibraryStep workers σ thread next [.inCallable d] [y] base := by
      have spares := ret_spares typed decision
      cases same
      refine ⟨⟨found, rfl⟩, Or.inr (by simp), ?_, ?_,
        ⟨fun s task => spares.destroyed s (ok.promise task),
          fun s task => spares.received s (ok.promise task),
          fun y inside s task => spares.completes y inside s (ok.promise task),
          fun s task => spares.breaks s (ok.promise task), spares.library⟩⟩
      · intro y inside
        obtain rfl := List.mem_singleton.mp inside
        exact (ok.nested _ member).1
      · intro y inside
        obtain rfl := List.mem_singleton.mp inside
        rfl
    cases result
    · exact ⟨_, _, _, ended rfl (Option.some.inj same)⟩
    · exact ⟨_, _, _, ended rfl (Option.some.inj same)⟩
  case h_2 => cases returned

/-- A call of the library by the program is a step below the pool. -/
theorem call {api : Api V ε} {next : Config V ε PoolCode}
    (control : σ.inProgram workers thread = true)
    (apart : ∀ s ∈ api.promise, s ∉ σ.pool.made.map Task.promise)
    (stepped : σ.runtime.step (.call thread api) = some next) :
    ∃ new base, LibraryStep workers σ thread next [] new base := by
  have called := stepped
  simp only [Config.step] at called
  split at called
  case h_1 stack found =>
    obtain ⟨-, same⟩ := Option.ite_none_right_eq_some.mp called
    obtain ⟨⟨heap, new⟩, begun, same⟩ := Option.map_eq_some_iff.mp same
    have spares := begin_spares begun
    have other {s : StateId} (task : s ∈ σ.pool.made.map Task.promise) : s ∉ api.promise :=
      fun own => apart s own task
    cases same
    exact ⟨new, stack, ⟨found, rfl⟩, awake_of_inProgram found control, by simp, by simp,
      ⟨fun s task => spares.destroyed s (other task),
        fun s task => spares.received s (other task),
        fun y inside s task => spares.completes y inside s (other task),
        fun s task => spares.breaks s (other task), spares.library⟩⟩
  case h_2 => cases called

/-- Every step is of one of these kinds. -/
theorem stepped (ok : σ.Ok workers) {event : PoolEvent V ε}
    (taken : σ.step workers event = some σ') : Stepped workers σ σ' event := by
  cases event with
  | run thread woken =>
    simp only [PoolConfig.step] at taken
    split at taken
    case h_1 c base found =>
      obtain ⟨⟨pool, next, api⟩, ran, performed⟩ := Option.bind_eq_some_iff.mp taken
      exact .statement found ran performed
    case h_2 other =>
      obtain ⟨next, running, rfl⟩ := Option.map_eq_some_iff.mp taken
      have executed := running
      simp only [Config.step] at executed
      split at executed
      case h_1 x base found =>
        have own : x.code = none := by
          cases x with
          | external c => exact absurd found (other c base)
          | _ => rfl
        obtain ⟨new, library⟩ := ok.run found own running
        have disciplined : Disciplined σ.runtime (.run thread) := trivial
        exact .library disciplined running rfl library (.run x woken)
      case h_2 => cases executed
  | ret thread result =>
    obtain ⟨next, returned, rfl⟩ := Option.map_eq_some_iff.mp taken
    obtain ⟨d, new, base, library⟩ := ok.ret returned
    have disciplined : Disciplined σ.runtime (.ret thread result) := trivial
    exact .library disciplined returned rfl library (.ret d result)
  | call thread api =>
    obtain ⟨⟨control, disciplined, apart⟩, called⟩ := Option.ite_none_right_eq_some.mp taken
    obtain ⟨next, begun, rfl⟩ := Option.map_eq_some_iff.mp called
    obtain ⟨new, base, library⟩ := call control apart begun
    exact .library disciplined begun rfl library (.call api control)
  | execute thread isVoid dependencies =>
    obtain ⟨⟨control, allowed⟩, performed⟩ := Option.ite_none_right_eq_some.mp taken
    obtain ⟨stack, found⟩ := stack_of_inProgram control
    exact .execute found control allowed performed
  | funcReturn thread result =>
    simp only [PoolConfig.step] at taken
    split at taken
    case h_1 task base found => exact .funcReturn found taken
    case h_2 => cases taken
  | destroy thread =>
    obtain ⟨⟨control, outside, first, idle⟩, performed⟩ :=
      Option.ite_none_right_eq_some.mp taken
    obtain ⟨stack, found⟩ := stack_of_inProgram control
    exact .destroy found control outside first idle performed

/-- The start of the destructor takes no `Execute` of the program's threads by surprise. -/
theorem destroy_assigned (ok : σ.Ok workers) (idle : σ.noExecute workers) :
    ∀ thread stack, σ.runtime.threads[thread]? = some stack →
      ∀ c : PoolCode, Instr.external c ∈ stack →
        c.Assigned workers { σ.pool with destroying := true } thread := by
  intro thread stack found c inside
  have assigned := ok.placed.assigned thread stack found c inside
  unfold PoolCode.Assigned at assigned ⊢
  split_ifs at assigned ⊢ with execute destructor
  · by_contra program
    have beyond : workers ≤ thread := by simpa using program
    have drawn : stack ∈ σ.runtime.threads.drop workers := by
      apply List.mem_of_getElem?
      rw [List.getElem?_drop (j := thread - workers), Nat.add_sub_cancel' beyond]
      exact found
    have quiet := idle stack drawn c (List.mem_filterMap.mpr ⟨_, inside, rfl⟩)
    rw [execute] at quiet
    cases quiet
  · exact assigned
  · exact assigned

/-- Every step keeps the invariant. -/
theorem step (ok : σ.Ok workers) {event : PoolEvent V ε}
    (taken : σ.step workers event = some σ') : σ'.Ok workers := by
  cases ok.stepped taken with
  | library disciplined running same library =>
    have later : (Async.runtime V ε PoolCode).step σ.runtime _ = some σ'.runtime :=
      System.under_step.mpr ⟨disciplined, running⟩
    exact ok.library (ok.reached.next later) (step_later ok.reached later) same library.replaced
      library.awake library.met library.own library.spares
  | statement found ran performed => exact ok.statement found ran performed
  | funcReturn found performed => exact ok.funcReturn found performed
  | execute found control allowed performed =>
    exact ok.entry found control performed ⟨⟨rfl, rfl, rfl⟩, rfl⟩ rfl (fun _ => rfl)
      ok.placed.assigned allowed rfl (Nat.zero_add _)
  | destroy found control outside first idle performed =>
    exact ok.entry found control performed ⟨⟨rfl, rfl, rfl⟩, rfl⟩ rfl (fun _ => rfl)
      (ok.destroy_assigned idle) outside rfl (by rw [first]; rfl)

end PoolConfig.Ok

/-! ## The start -/

namespace PoolConfig

variable {workers : Nat}

/-- Threads that the runtime starts idle may be started in `ThreadLoop`. -/
theorem start_reached (outside count : Nat) (within : count ≤ workers) :
    (Async.runtime V ε PoolCode).Reachable
      { heap := .empty
        threads := List.replicate count [.external .threadLoop] ++
          List.replicate (workers - count + outside) [] } := by
  induction count with
  | zero =>
    refine .start ⟨workers + outside, ?_⟩
    rfl
  | succ count ih =>
    have before := ih (by omega)
    rw [show workers - count + outside = (workers - (count + 1) + outside) + 1 by omega,
      List.replicate_succ (n := workers - (count + 1) + outside)] at before
    generalize List.replicate (workers - (count + 1) + outside) ([] : List (Instr V ε PoolCode)) =
      rest at before ⊢
    have here : (List.replicate count [Instr.external (V := V) (ε := ε) PoolCode.threadLoop] ++
        [] :: rest)[count]? = some [] := by
      rw [List.getElem?_append_right (by simp), List.length_replicate, Nat.sub_self]
      rfl
    suffices entered : (Async.runtime V ε PoolCode).step _ (.enter count false [.threadLoop]) = _
      from before.next entered
    refine System.under_step.mpr ⟨trivial, ?_⟩
    simp only [Config.step, here, Instr.userLevel, if_true, Config.update]
    rw [List.set_append_right _ _ (by simp), List.length_replicate, Nat.sub_self,
      List.replicate_succ', List.append_assoc]
    rfl

/-- The stacks at the start. -/
theorem start_stack {outside thread : Nat} {stack : List (Instr V ε PoolCode)}
    (found : (start workers outside : PoolConfig V ε).runtime.threads[thread]? = some stack) :
    stack = [.external .threadLoop] ∧ thread < workers ∨ stack = [] := by
  change (List.replicate workers [Instr.external PoolCode.threadLoop] ++
    List.replicate outside [])[thread]? = some stack at found
  rw [List.getElem?_append, List.length_replicate] at found
  split_ifs at found with worker
  · rw [List.getElem?_replicate, if_pos worker] at found
    exact Or.inl ⟨(Option.some.inj found).symm, worker⟩
  · rw [List.getElem?_replicate] at found
    split_ifs at found
    exact Or.inr (Option.some.inj found).symm

/-- The pool code at the start. -/
theorem start_code {outside : Nat} {c : PoolCode}
    (inside : c ∈ poolCode (start workers outside : PoolConfig V ε).runtime.pending) :
    c = .threadLoop := by
  obtain ⟨stack, member, held⟩ := Stacks.mem_pending.mp (mem_poolCode.mp inside)
  obtain ⟨thread, found⟩ := List.getElem?_of_mem member
  rcases start_stack found with ⟨rfl, -⟩ | rfl
  · cases List.mem_singleton.mp held
    rfl
  · cases held

/-- The invariant holds when the constructor has returned. -/
theorem start_ok (outside : Nat) : (start workers outside : PoolConfig V ε).Ok workers := by
  constructor
  case reached => simpa [start] using start_reached outside workers (le_refl workers)
  case ledger =>
    constructor
    case held =>
      intro c inside task stage holding
      cases start_code inside
      cases holding
    case making =>
      intro isVoid dependencies dependency inside
      cases start_code inside
    case distinct => exact List.nodup_nil
    case unmade => exact fun _ _ => rfl
    all_goals exact fun _ clash => absurd clash List.not_mem_nil
  case nested =>
    intro stack member
    obtain ⟨thread, found⟩ := List.getElem?_of_mem member
    rcases start_stack found with ⟨rfl, -⟩ | rfl
    · exact ⟨Pool.needs_external _ _, trivial⟩
    · trivial
  case placed =>
    constructor
    case assigned =>
      intro thread stack found c inside
      rcases start_stack found with ⟨rfl, worker⟩ | rfl
      · cases List.mem_singleton.mp inside
        exact worker
      · cases inside
    case joined =>
      intro c inside worker _ clash
      cases start_code inside
      cases clash
    case destroyed => exact fun clash => by cases clash
    case destructor =>
      have none : Stacks.count (poolCode (start workers outside : PoolConfig V ε).runtime.pending)
          PoolCode.isDestructor = 0 :=
        Stacks.count_eq_zero.mpr fun c inside => by rw [start_code inside]; rfl
      rw [none]
      rfl

/-- Every reachable configuration is in order. -/
theorem ok {σ : PoolConfig V ε} (reached : (poolSystem V ε workers).Reachable σ) : σ.Ok workers :=
  reached.invariant (fun _ ⟨outside, same⟩ => same ▸ start_ok outside)
    fun _ _ _ _ ok stepped => ok.step stepped

end PoolConfig

end Azul.Async
