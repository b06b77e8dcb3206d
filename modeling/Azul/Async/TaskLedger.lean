import Azul.Async.StaticThreadPool

/-!
# Where every task is

A task whose promise was constructed is in exactly one place: in the queue, held by the code that
submits it or by the worker that took it, or destroyed. Where it is says what its callable has
done. A step of the pool moves at most one task from one place to the next, and these moves depend
on the threads only through the multiset of pool code that they still have to execute.
-/

namespace Azul.Async

open Foundation

variable {V ε : Type}

/-! ## Code that holds a task -/

/-- How far a task has come that some code holds. -/
inductive Stage
  /-- It was not submitted yet. -/
  | fresh
  /-- A worker took it from the queue. -/
  | taken
  /-- Its callable is running. -/
  | running
  /-- Its callable has ended. -/
  | finished
  deriving DecidableEq, Repr

/-- The task that code holds, and how far that has come. -/
def PoolCode.holding : PoolCode → Option (Task × Stage)
  | .emplaceBack task => some (task, .fresh)
  | .unlock task | .call task => some (task, .taken)
  | .func task => some (task, .running)
  | .relock task | .notify task _ | .release task => some (task, .finished)
  | _ => none

/-- Code holds a task. -/
def PoolCode.holds (task : Task) (c : PoolCode) : Bool := c.holding.any fun held => held.1 == task

/-- Code neither holds a task nor is about to make one. -/
def PoolCode.isPlain : PoolCode → Bool
  | .makeTask _ _ _ => false
  | c => c.holding.isNone

/-- The pool's code that is still going to be executed. -/
def poolCode (P : Multiset (Instr V ε PoolCode)) : Multiset PoolCode := P.filterMap Instr.code

@[simp]
theorem poolCode_add (P Q : Multiset (Instr V ε PoolCode)) :
    poolCode (P + Q) = poolCode P + poolCode Q := Multiset.filterMap_add _ P Q

@[simp]
theorem poolCode_external (code : List PoolCode) :
    poolCode ((code.map .external : List (Instr V ε PoolCode)) : Multiset (Instr V ε PoolCode)) =
      code := by
  simp [poolCode, List.filterMap_map, Function.comp_def, Instr.code]

@[simp]
theorem poolCode_cons (c : PoolCode) (P : Multiset (Instr V ε PoolCode)) :
    poolCode (.external c ::ₘ P) = c ::ₘ poolCode P := Multiset.filterMap_cons_some _ _ _ rfl

/-- Code of the library is not the pool's. -/
theorem poolCode_library {code : List (Instr V ε PoolCode)} (library : ∀ x ∈ code, x.code = none) :
    poolCode (code : Multiset (Instr V ε PoolCode)) = 0 := by
  rw [poolCode, Multiset.filterMap_coe, List.filterMap_eq_nil_iff.mpr library]
  rfl

/-- Pool code is pending as external code. -/
theorem mem_poolCode {P : Multiset (Instr V ε PoolCode)} {c : PoolCode} :
    c ∈ poolCode P ↔ .external c ∈ P := by
  rw [poolCode, Multiset.mem_filterMap]
  constructor
  · rintro ⟨x, inside, same⟩
    cases x <;> cases same
    exact inside
  · exact fun inside => ⟨_, inside, rfl⟩

/-! ## The ledger -/

/-- The futures that a task waits for are decided. -/
def Task.Ready (task : Task) (h : Heap V ε) : Prop :=
  ∀ dependency, task.dependency = some dependency → h.Decided dependency

/-- `IsReady` reads whether the dependency is decided. -/
theorem Task.ready_of_isReady {task : Task} {h : Heap V ε} (ready : task.isReady h = true) :
    task.Ready h := by
  intro dependency valid undecided
  rw [isReady, valid] at ready
  change (h.cell dependency).outcome = none at undecided
  rw [FutureState.outcome_eq_none] at undecided
  simp [FutureState.isReady, undecided] at ready

namespace Pool

variable (pool : Pool V ε) (h : Heap V ε)

/-- The callable of a task was not invoked. -/
structure Fresh (task : Task) : Prop where
  invocations : pool.invocations task.promise = 0
  received : h.received task.promise = []

/-- The callable of a task was invoked and has not ended. -/
structure Running (task : Task) : Prop where
  invocations : pool.invocations task.promise = 1
  received : h.received task.promise = []

/-- The callable of a task has ended, and the promise was given its result. -/
structure Finished (task : Task) : Prop where
  invocations : pool.invocations task.promise = 1
  received : ∃ result, pool.results task.promise = some result ∧
    h.received task.promise = [result]

/-- What the stage of a task says. -/
def StageOk (task : Task) : Stage → Prop
  | .fresh => pool.Fresh h task
  | .taken => pool.Fresh h task ∧ task.Ready h
  | .running => pool.Running h task ∧ task.Ready h
  | .finished => pool.Finished h task

/-- Every task is in one place, which says what its callable has done. -/
structure Ledger (C : Multiset PoolCode) : Prop where
  made : ∀ task ∈ pool.made, h.origin task.promise = some .promise ∧
    ∃ dependency, task.dependency = some dependency ∧
      h.origin dependency = some (.whenAll task.dependencies)
  distinct : (pool.made.map Task.promise).Nodup
  unmade : ∀ s, s ∉ pool.made.map Task.promise → pool.invocations s = 0
  /-- In the queue, held by code, or destroyed. -/
  place : ∀ task ∈ pool.made, pool.tasks.count task + Stacks.count C (PoolCode.holds task) +
    (h.destroyed task.promise).toNat = 1
  queued : ∀ task ∈ pool.tasks, task ∈ pool.made ∧ pool.Fresh h task
  held : ∀ c ∈ C, ∀ task stage, c.holding = some (task, stage) →
    task ∈ pool.made ∧ pool.StageOk h task stage
  making : ∀ isVoid dependencies dependency, .makeTask isVoid dependencies dependency ∈ C →
    h.origin dependency = some (.whenAll dependencies)
  ended : ∀ task ∈ pool.made, h.destroyed task.promise = true →
    pool.Fresh h task ∨ pool.Finished h task

/-- The same tasks were made, and have the same past. -/
structure SamePast (pool' : Pool V ε) : Prop where
  made : pool'.made = pool.made
  invocations : pool'.invocations = pool.invocations
  results : pool'.results = pool.results

/-- The same tasks are queued, too. -/
structure SameTasks (pool' : Pool V ε) : Prop extends pool.SamePast pool' where
  tasks : pool'.tasks = pool.tasks

end Pool

/-! ## Moves -/

/-- What a step does to the tasks. -/
inductive TaskMove (pool : Pool V ε) (h : Heap V ε) :
    Multiset PoolCode → Pool V ε → Heap V ε → Multiset PoolCode → Prop
  /-- Nothing that concerns a task. -/
  | other {old next R pool' h'} (same : pool.SameTasks pool')
      (destroyed : ∀ task ∈ pool.made, h'.destroyed task.promise = h.destroyed task.promise)
      (received : ∀ task ∈ pool.made, h'.received task.promise = h.received task.promise)
      (left : ∀ c ∈ old, c.holding = none) (plain : ∀ c ∈ next, c.isPlain = true) :
      TaskMove pool h (old + R) pool' h' (next + R)
  /-- The code that holds a task goes on. -/
  | advance {c c' R pool'} (same : pool.SameTasks pool') (holds : c'.holding = c.holding)
      (held : c.holding ≠ none) : TaskMove pool h (c ::ₘ R) pool' h (c' ::ₘ R)
  | whenAll {isVoid dependencies dependency R h'}
      (made : h'.origin dependency = some (.whenAll dependencies))
      (destroyed : h'.destroyed = h.destroyed) (received : h'.received = h.received) :
      TaskMove pool h (.whenAll isVoid dependencies ::ₘ R) pool h'
        (.makeTask isVoid dependencies dependency ::ₘ R)
  | makeTask {isVoid dependencies dependency R} {task : Task} (promise : task.promise = h.next)
      (waits : task.dependency = some dependency) (passed : task.dependencies = dependencies) :
      TaskMove pool h (.makeTask isVoid dependencies dependency ::ₘ R)
        { pool with made := pool.made ++ [task] } (h.allocate isVoid .promise)
        (.emplaceBack task ::ₘ R)
  | emplaceBack {task R pool'} (same : pool.SamePast pool')
      (tasks : pool'.tasks = pool.tasks ++ [task]) :
      TaskMove pool h (.emplaceBack task ::ₘ R) pool' h (.getFuture task.promise ::ₘ R)
  | nextTask {task index R} (found : pool.tasks[index]? = some task)
      (ready : task.isReady h = true) :
      TaskMove pool h (.nextTask index ::ₘ R)
        { pool with tasks := pool.tasks.eraseIdx index } h (.unlock task ::ₘ R)
  | call {task R} :
      TaskMove pool h (.call task ::ₘ R)
        { pool with invocations :=
            Function.update pool.invocations task.promise (pool.invocations task.promise + 1) }
        h (.func task ::ₘ R)
  | funcReturn {task result R} :
      TaskMove pool h (.func task ::ₘ R)
        { pool with results := Function.update pool.results task.promise (some result) }
        (h.receive task.promise result) (.relock task ::ₘ R)
  | release {task R} :
      TaskMove pool h (.release task ::ₘ R) pool
        { h with destroyed := Function.update h.destroyed task.promise true } (.loop ::ₘ R)
  | clear {task rest R} (found : pool.tasks = task :: rest) :
      TaskMove pool h (.shutdownDestroyRemainingTasks ::ₘ R) { pool with tasks := rest }
        { h with destroyed := Function.update h.destroyed task.promise true }
        (.shutdownDestroyRemainingTasks ::ₘ R)

/-! ## The ledger is kept -/

/-- Code holds a task at some stage. -/
theorem PoolCode.holds_iff {c : PoolCode} {task : Task} :
    c.holds task = true ↔ ∃ stage, c.holding = some (task, stage) := by
  simp [holds, Option.any_eq_true]

/-- What a step of the runtime never takes back. -/
structure Heap.Later (h h' : Heap V ε) : Prop where
  origin : ∀ s origin, h.origin s = some origin → h'.origin s = some origin
  decided : ∀ s, h.Decided s → h'.Decided s

/-- Decided dependencies stay decided. -/
theorem Task.Ready.later {task : Task} {h h' : Heap V ε} (ready : task.Ready h)
    (later : h.Later h') : task.Ready h' :=
  fun dependency waits => later.decided dependency (ready dependency waits)

/-- A step leaves the past of a task alone. -/
structure Pool.Kept (pool pool' : Pool V ε) (h h' : Heap V ε) (task : Task) : Prop where
  invocations : pool'.invocations task.promise = pool.invocations task.promise
  results : pool'.results task.promise = pool.results task.promise
  received : h'.received task.promise = h.received task.promise

section Kept

variable {pool pool' : Pool V ε} {h h' : Heap V ε} {task : Task}

theorem Pool.Fresh.kept (fresh : pool.Fresh h task) (kept : pool.Kept pool' h h' task) :
    pool'.Fresh h' task :=
  ⟨kept.invocations.trans fresh.invocations, kept.received.trans fresh.received⟩

theorem Pool.Running.kept (running : pool.Running h task) (kept : pool.Kept pool' h h' task) :
    pool'.Running h' task :=
  ⟨kept.invocations.trans running.invocations, kept.received.trans running.received⟩

theorem Pool.Finished.kept (finished : pool.Finished h task) (kept : pool.Kept pool' h h' task) :
    pool'.Finished h' task := by
  obtain ⟨result, returned, received⟩ := finished.received
  exact ⟨kept.invocations.trans finished.invocations, result, kept.results.trans returned,
    kept.received.trans received⟩

theorem Pool.StageOk.kept {stage : Stage} (ok : pool.StageOk h task stage)
    (kept : pool.Kept pool' h h' task) (later : h.Later h') : pool'.StageOk h' task stage := by
  cases stage with
  | fresh => exact Pool.Fresh.kept ok kept
  | taken => exact ⟨ok.1.kept kept, ok.2.later later⟩
  | running => exact ⟨ok.1.kept kept, ok.2.later later⟩
  | finished => exact Pool.Finished.kept ok kept

theorem Pool.SamePast.kept (same : pool.SamePast pool')
    (received : h'.received task.promise = h.received task.promise) :
    pool.Kept pool' h h' task :=
  ⟨congrFun same.invocations _, congrFun same.results _, received⟩

end Kept

namespace Pool.Ledger

variable {pool pool' : Pool V ε} {h h' : Heap V ε} {C R : Multiset PoolCode}

/-- Different tasks have different promises. -/
theorem promise_ne (ledger : pool.Ledger h C) {first second : Task} (one : first ∈ pool.made)
    (two : second ∈ pool.made) (different : first ≠ second) : first.promise ≠ second.promise :=
  fun same => different (List.inj_on_of_nodup_map ledger.distinct one two same)

/-- The end of one task's promise is not the end of another's. -/
theorem destroyed_update (ledger : pool.Ledger h C) {task other : Task} (one : task ∈ pool.made)
    (two : other ∈ pool.made) : Function.update h.destroyed task.promise true other.promise =
      if task = other then true else h.destroyed other.promise := by
  split_ifs with same
  · rw [same, Function.update_self]
  · exact Function.update_of_ne (ledger.promise_ne two one fun clash => same clash.symm) _ _

/-- A task that code holds is nowhere else. -/
theorem held_alone {c : PoolCode} (ledger : pool.Ledger h (c ::ₘ R)) {task : Task} {stage : Stage}
    (holding : c.holding = some (task, stage)) :
    task ∉ pool.tasks ∧ (∀ c ∈ R, c.holds task = false) ∧ h.destroyed task.promise = false := by
  have made := (ledger.held c (Multiset.mem_cons_self c R) task stage holding).1
  have place := ledger.place task made
  have holds : c.holds task = true := PoolCode.holds_iff.mpr ⟨stage, holding⟩
  rw [Stacks.count_cons, if_pos holds] at place
  refine ⟨fun queued => ?_, fun other inside => ?_, ?_⟩
  · have some := List.count_pos_iff.mpr queued
    omega
  · by_contra held
    have some : 0 < Stacks.count R (PoolCode.holds task) :=
      Stacks.count_pos.mpr ⟨other, inside, by simpa using held⟩
    omega
  · by_contra gone
    rw [Bool.eq_true_of_not_eq_false gone, Bool.toNat_true] at place
    omega

/-- No other code holds a task that code holds. -/
theorem held_ne {c other : PoolCode} (ledger : pool.Ledger h (c ::ₘ R)) {active task : Task}
    {here there : Stage} (holding : c.holding = some (active, here)) (inside : other ∈ R)
    (holds : other.holding = some (task, there)) : task ≠ active := by
  rintro rfl
  have alone := (ledger.held_alone holding).2.1 other inside
  rw [PoolCode.holds_iff.mpr ⟨there, holds⟩] at alone
  cases alone

/-- A queued task is not the one that code holds. -/
theorem queued_ne {c : PoolCode} (ledger : pool.Ledger h (c ::ₘ R)) {active task : Task}
    {stage : Stage} (holding : c.holding = some (active, stage)) (queued : task ∈ pool.tasks) :
    task ≠ active := by
  rintro rfl
  exact (ledger.held_alone holding).1 queued

/-- A destroyed task is not the one that code holds. -/
theorem destroyed_ne {c : PoolCode} (ledger : pool.Ledger h (c ::ₘ R)) {active task : Task}
    {stage : Stage} (holding : c.holding = some (active, stage))
    (gone : h.destroyed task.promise = true) : task ≠ active := by
  rintro rfl
  rw [(ledger.held_alone holding).2.2] at gone
  cases gone

/-- A queued task is nowhere else, and only once in the queue. -/
theorem queued_alone (ledger : pool.Ledger h C) {task : Task} (queued : task ∈ pool.tasks) :
    pool.tasks.count task = 1 ∧ (∀ c ∈ C, c.holds task = false) ∧
      h.destroyed task.promise = false := by
  have place := ledger.place task (ledger.queued task queued).1
  have some := List.count_pos_iff.mpr queued
  refine ⟨by omega, fun other inside => ?_, ?_⟩
  · by_contra held
    have more : 0 < Stacks.count C (PoolCode.holds task) :=
      Stacks.count_pos.mpr ⟨other, inside, by simpa using held⟩
    omega
  · by_contra gone
    rw [Bool.eq_true_of_not_eq_false gone, Bool.toNat_true] at place
    omega

/-- Nothing refers to a task that was not made. -/
theorem unknown (ledger : pool.Ledger h C) {task : Task} (unmade : task ∉ pool.made) :
    pool.tasks.count task = 0 ∧ Stacks.count C (PoolCode.holds task) = 0 := by
  constructor
  · exact List.count_eq_zero_of_not_mem fun queued => unmade (ledger.queued task queued).1
  · refine Stacks.count_eq_zero.mpr fun c inside => ?_
    by_contra held
    obtain ⟨stage, holding⟩ := PoolCode.holds_iff.mp (by simpa using held)
    exact unmade (ledger.held c inside task stage holding).1

end Pool.Ledger

namespace TaskMove

variable {pool pool' : Pool V ε} {h h' : Heap V ε} {C C' : Multiset PoolCode}

/-- The promise of a new task was not there before. -/
theorem unmade_next (ledger : pool.Ledger h C) (blank : h.Blank h.next) :
    ∀ task ∈ pool.made, task.promise ≠ h.next := by
  intro task made same
  have origin := (ledger.made task made).1
  rw [same, blank.origin] at origin
  cases origin

theorem made (ledger : pool.Ledger h C) (later : h.Later h')
    (move : TaskMove pool h C pool' h' C') :
    ∀ task ∈ pool'.made, h'.origin task.promise = some .promise ∧
      ∃ dependency, task.dependency = some dependency ∧
        h'.origin dependency = some (.whenAll task.dependencies) := by
  have old : ∀ task ∈ pool.made, h'.origin task.promise = some .promise ∧
      ∃ dependency, task.dependency = some dependency ∧
        h'.origin dependency = some (.whenAll task.dependencies) := by
    intro task made
    obtain ⟨promise, dependency, waits, origin⟩ := ledger.made task made
    exact ⟨later.origin _ _ promise, dependency, waits, later.origin _ _ origin⟩
  cases move with
  | @makeTask isVoid dependencies dependency R task promise waits passed =>
    intro other made
    rcases List.mem_append.mp made with made | made
    · exact old other made
    · obtain rfl := List.mem_singleton.mp made
      have origin := ledger.making isVoid _ dependency (Multiset.mem_cons_self _ R)
      refine ⟨?_, dependency, waits, ?_⟩
      · rw [promise]
        exact Function.update_self h.next _ _
      · rw [passed]
        exact later.origin _ _ origin
  | other same | advance same | emplaceBack same => exact same.made ▸ old
  | _ => exact old

theorem distinct (ledger : pool.Ledger h C) (blank : h.Blank h.next)
    (move : TaskMove pool h C pool' h' C') : (pool'.made.map Task.promise).Nodup := by
  have old := ledger.distinct
  cases move with
  | makeTask promise =>
    rw [List.map_append, List.map_singleton, promise]
    refine old.append (List.nodup_singleton _) ?_
    rw [List.disjoint_singleton]
    intro inside
    obtain ⟨task, made, same⟩ := List.mem_map.mp inside
    exact unmade_next ledger blank task made same
  | other same | advance same | emplaceBack same => exact same.made ▸ old
  | _ => exact old

theorem unmade (ledger : pool.Ledger h C) (move : TaskMove pool h C pool' h' C') :
    ∀ s, s ∉ pool'.made.map Task.promise → pool'.invocations s = 0 := by
  have old := ledger.unmade
  cases move with
  | makeTask =>
    intro s unmade
    refine old s fun inside => unmade ?_
    rw [List.map_append]
    exact List.mem_append_left _ inside
  | @call task R =>
    intro s unmade
    have made := (ledger.held _ (Multiset.mem_cons_self _ R) task .taken rfl).1
    have other : s ≠ task.promise := by
      rintro rfl
      exact unmade (List.mem_map_of_mem made)
    exact (Function.update_of_ne other _ _).trans (old s unmade)
  | other same | advance same | emplaceBack same => exact same.made ▸ same.invocations ▸ old
  | _ => exact old

theorem making (ledger : pool.Ledger h C) (later : h.Later h')
    (move : TaskMove pool h C pool' h' C') :
    ∀ isVoid dependencies dependency, .makeTask isVoid dependencies dependency ∈ C' →
      h'.origin dependency = some (.whenAll dependencies) := by
  intro isVoid dependencies dependency inside
  have old (inside : .makeTask isVoid dependencies dependency ∈ C) :
      h'.origin dependency = some (.whenAll dependencies) :=
    later.origin _ _ (ledger.making isVoid dependencies dependency inside)
  -- new code that is about to make a task comes from `WhenAll` only
  have next {c c' : PoolCode} {R : Multiset PoolCode} (same : C = c ::ₘ R)
      (other : c' ≠ .makeTask isVoid dependencies dependency)
      (inside : .makeTask isVoid dependencies dependency ∈ c' ::ₘ R) :
      h'.origin dependency = some (.whenAll dependencies) := by
    rcases Multiset.mem_cons.mp inside with clash | inside
    · exact absurd clash.symm other
    · exact old (same ▸ Multiset.mem_cons_of_mem inside)
  cases move with
  | other same destroyed received left plain =>
    rcases Multiset.mem_add.mp inside with new | inside
    · cases plain _ new
    · exact old (Multiset.mem_add.mpr (Or.inr inside))
  | @advance c c' R pool' same holds held =>
    apply next rfl _ inside
    rintro rfl
    exact held holds.symm
  | whenAll made =>
    rcases Multiset.mem_cons.mp inside with new | inside
    · cases new
      exact made
    · exact old (Multiset.mem_cons_of_mem inside)
  | _ => exact next rfl (by simp) inside

/-- Code without a task holds none. -/
theorem count_none {code : Multiset PoolCode} (none : ∀ c ∈ code, c.holding = none) (task : Task) :
    Stacks.count code (PoolCode.holds task) = 0 :=
  Stacks.count_eq_zero.mpr fun c inside => by simp [PoolCode.holds, none c inside]

/-- Plain code holds no task. -/
theorem holding_plain {c : PoolCode} (plain : c.isPlain = true) : c.holding = none := by
  cases c <;> first | rfl | cases plain

/-- Whatever moves, every task stays in one place. -/
theorem place (ledger : pool.Ledger h C) (blank : h.Blank h.next)
    (move : TaskMove pool h C pool' h' C') :
    ∀ task ∈ pool'.made, pool'.tasks.count task + Stacks.count C' (PoolCode.holds task) +
      (h'.destroyed task.promise).toNat = 1 := by
  have old := ledger.place
  cases move with
  | other same destroyed received left plain =>
    intro task made
    rw [same.made] at made
    have was := old task made
    rw [Stacks.count_add, count_none left] at was
    rw [Stacks.count_add, count_none fun c inside => holding_plain (plain c inside), same.tasks,
      destroyed task made]
    exact was
  | advance same holds held =>
    intro task made
    rw [same.made] at made
    have was := old task made
    rw [Stacks.count_cons] at was ⊢
    rw [same.tasks, PoolCode.holds, holds]
    exact was
  | whenAll origin destroyed received =>
    intro task made
    have was := old task made
    rw [Stacks.count_cons] at was ⊢
    rw [destroyed]
    exact was
  | @makeTask isVoid dependencies dependency R task promise waits passed =>
    have unmade : task ∉ pool.made := fun made => unmade_next ledger blank task made promise
    obtain ⟨unqueued, unheld⟩ := ledger.unknown unmade
    rw [Stacks.count_cons] at unheld
    intro other made
    rcases List.mem_append.mp made with made | made
    · have was := old other made
      have different : task ≠ other := fun same => unmade (same ▸ made)
      rw [Stacks.count_cons] at was ⊢
      simp only [PoolCode.holds, PoolCode.holding, Option.any_none, Option.any_some, beq_iff_eq,
        different, Bool.false_eq_true, if_false] at was ⊢
      exact was
    · obtain rfl := List.mem_singleton.mp made
      rw [Stacks.count_cons]
      simp only [PoolCode.holds, PoolCode.holding, Option.any_some, beq_self_eq_true, if_true]
      rw [unqueued, promise, blank.destroyed, Bool.toNat_false]
      omega
  | @emplaceBack task R pool' same tasks =>
    intro other made
    have was := old other (same.made ▸ made)
    rw [Stacks.count_cons] at was ⊢
    simp only [PoolCode.holds, PoolCode.holding, Option.any_none, Option.any_some, beq_iff_eq,
      Bool.false_eq_true, if_false] at was ⊢
    rw [tasks, List.count_append, List.count_singleton]
    simp only [beq_iff_eq]
    omega
  | @nextTask task index R found ready =>
    intro other made
    have was := old other made
    obtain ⟨bound, here⟩ := List.getElem?_eq_some_iff.mp found
    have taken := (List.getElem_cons_eraseIdx_perm bound).count_eq other
    rw [here, List.count_cons] at taken
    rw [Stacks.count_cons] at was ⊢
    simp only [PoolCode.holds, PoolCode.holding, Option.any_none, Option.any_some, beq_iff_eq,
      Bool.false_eq_true, if_false] at was taken ⊢
    omega
  | call =>
    intro task made
    have was := old task made
    rw [Stacks.count_cons] at was ⊢
    exact was
  | funcReturn =>
    intro task made
    have was := old task made
    rw [Stacks.count_cons] at was ⊢
    exact was
  | @release task R =>
    have holding : (PoolCode.release task).holding = some (task, .finished) := rfl
    have known := (ledger.held _ (Multiset.mem_cons_self _ R) task _ holding).1
    have alive := (ledger.held_alone holding).2.2
    intro other made
    have was := old other made
    rw [Stacks.count_cons] at was ⊢
    simp only [PoolCode.holds, PoolCode.holding, Option.any_none, Option.any_some, beq_iff_eq,
      Bool.false_eq_true, if_false] at was ⊢
    rw [ledger.destroyed_update known made]
    by_cases same : task = other
    · rw [← same, alive, if_pos rfl, Bool.toNat_false] at was
      rw [← same, if_pos rfl, Bool.toNat_true]
      omega
    · rw [if_neg same] at was ⊢
      exact was
  | @clear task rest R found =>
    have inside : task ∈ pool.tasks := found ▸ List.mem_cons_self
    have known := (ledger.queued task inside).1
    have alive := (ledger.queued_alone inside).2.2
    intro other made
    have was := old other made
    rw [found, List.count_cons] at was
    simp only [beq_iff_eq] at was
    change rest.count other + _ + (Function.update h.destroyed task.promise true _).toNat = 1
    rw [ledger.destroyed_update known made]
    by_cases same : task = other
    · rw [← same, alive, if_pos rfl, Bool.toNat_false] at was
      rw [← same, if_pos rfl, Bool.toNat_true]
      omega
    · rw [if_neg same] at was ⊢
      exact was

/-- Queued tasks are fresh. -/
theorem queued (ledger : pool.Ledger h C) (move : TaskMove pool h C pool' h' C') :
    ∀ task ∈ pool'.tasks, task ∈ pool'.made ∧ pool'.Fresh h' task := by
  have old := ledger.queued
  cases move with
  | other same destroyed received left plain =>
    intro task inside
    obtain ⟨made, fresh⟩ := old task (same.tasks ▸ inside)
    exact ⟨same.made.symm ▸ made, fresh.kept (same.kept (received task made))⟩
  | advance same holds held =>
    intro task inside
    obtain ⟨made, fresh⟩ := old task (same.tasks ▸ inside)
    exact ⟨same.made.symm ▸ made, fresh.kept (same.kept rfl)⟩
  | whenAll origin destroyed received =>
    intro task inside
    obtain ⟨made, fresh⟩ := old task inside
    exact ⟨made, fresh.kept ⟨rfl, rfl, congrFun received _⟩⟩
  | makeTask promise waits passed =>
    intro task inside
    obtain ⟨made, fresh⟩ := old task inside
    exact ⟨List.mem_append_left _ made, fresh.kept ⟨rfl, rfl, rfl⟩⟩
  | @emplaceBack task R pool' same tasks =>
    intro other inside
    have held := ledger.held _ (Multiset.mem_cons_self _ R) task .fresh rfl
    rcases List.mem_append.mp (tasks ▸ inside) with inside | inside
    · obtain ⟨made, fresh⟩ := old other inside
      exact ⟨same.made.symm ▸ made, fresh.kept (same.kept rfl)⟩
    · obtain rfl := List.mem_singleton.mp inside
      exact ⟨same.made.symm ▸ held.1, Pool.Fresh.kept held.2 (same.kept rfl)⟩
  | nextTask found ready =>
    intro task inside
    obtain ⟨made, fresh⟩ := old task (List.mem_of_mem_eraseIdx inside)
    exact ⟨made, fresh.kept ⟨rfl, rfl, rfl⟩⟩
  | @call task R =>
    intro other inside
    obtain ⟨made, fresh⟩ := old other inside
    have holding : (PoolCode.call task).holding = some (task, .taken) := rfl
    have known := (ledger.held _ (Multiset.mem_cons_self _ R) task _ holding).1
    have different := ledger.queued_ne holding inside
    exact ⟨made, fresh.kept
      ⟨Function.update_of_ne (ledger.promise_ne made known different) _ _, rfl, rfl⟩⟩
  | @funcReturn task result R =>
    intro other inside
    obtain ⟨made, fresh⟩ := old other inside
    have holding : (PoolCode.func task).holding = some (task, .running) := rfl
    have known := (ledger.held _ (Multiset.mem_cons_self _ R) task _ holding).1
    have different := ledger.queued_ne holding inside
    have apart := ledger.promise_ne made known different
    exact ⟨made, fresh.kept
      ⟨rfl, Function.update_of_ne apart _ _, Function.update_of_ne apart _ _⟩⟩
  | release =>
    intro task inside
    obtain ⟨made, fresh⟩ := old task inside
    exact ⟨made, fresh.kept ⟨rfl, rfl, rfl⟩⟩
  | clear found =>
    intro task inside
    obtain ⟨made, fresh⟩ := old task (found ▸ List.mem_cons_of_mem _ inside)
    exact ⟨made, fresh.kept ⟨rfl, rfl, rfl⟩⟩

/-- What holds of a task that code holds and the move leaves alone. -/
theorem held_kept {c : PoolCode} {task : Task} {stage : Stage} (ledger : pool.Ledger h C)
    (later : h.Later h') (inside : c ∈ C) (holding : c.holding = some (task, stage))
    (made : task ∈ pool.made → task ∈ pool'.made)
    (kept : task ∈ pool.made → pool.Kept pool' h h' task) :
    task ∈ pool'.made ∧ pool'.StageOk h' task stage := by
  obtain ⟨known, ok⟩ := ledger.held c inside task stage holding
  exact ⟨made known, ok.kept (kept known) later⟩

/-- Code that holds a task knows how far it has come. -/
theorem held (ledger : pool.Ledger h C) (later : h.Later h') (blank : h.Blank h.next)
    (move : TaskMove pool h C pool' h' C') : ∀ c ∈ C', ∀ task stage,
      c.holding = some (task, stage) → task ∈ pool'.made ∧ pool'.StageOk h' task stage := by
  intro c inside task stage holding
  cases move with
  | other same destroyed received left plain =>
    rcases Multiset.mem_add.mp inside with new | inside
    · cases (holding_plain (plain c new)).symm.trans holding
    · exact held_kept ledger later (Multiset.mem_add.mpr (Or.inr inside)) holding
        (fun made => same.made.symm ▸ made) fun made => same.kept (received task made)
  | @advance first next R pool' same holds held =>
    have back : ∃ c ∈ first ::ₘ R, c.holding = some (task, stage) := by
      rcases Multiset.mem_cons.mp inside with rfl | inside
      · exact ⟨first, Multiset.mem_cons_self first R, holds.symm.trans holding⟩
      · exact ⟨c, Multiset.mem_cons_of_mem inside, holding⟩
    obtain ⟨c, inside, holding⟩ := back
    exact held_kept ledger later inside holding (fun made => same.made.symm ▸ made)
      fun _ => same.kept rfl
  | whenAll origin destroyed received =>
    rcases Multiset.mem_cons.mp inside with rfl | inside
    · cases holding
    · exact held_kept ledger later (Multiset.mem_cons_of_mem inside) holding id
        fun _ => ⟨rfl, rfl, congrFun received _⟩
  | @makeTask isVoid dependencies dependency R new promise waits passed =>
    rcases Multiset.mem_cons.mp inside with rfl | inside
    · cases holding
      refine ⟨List.mem_append_right _ (List.mem_singleton_self _), ?_, ?_⟩
      · refine ledger.unmade _ fun known => ?_
        obtain ⟨old, made, same⟩ := List.mem_map.mp known
        exact unmade_next ledger blank old made (same.trans promise)
      · rw [promise]
        exact blank.received
    · exact held_kept ledger later (Multiset.mem_cons_of_mem inside) holding
        (fun made => List.mem_append_left _ made) fun _ => ⟨rfl, rfl, rfl⟩
  | emplaceBack same tasks =>
    rcases Multiset.mem_cons.mp inside with rfl | inside
    · cases holding
    · exact held_kept ledger later (Multiset.mem_cons_of_mem inside) holding
        (fun made => same.made.symm ▸ made) fun _ => same.kept rfl
  | @nextTask first index R found ready =>
    rcases Multiset.mem_cons.mp inside with rfl | inside
    · cases holding
      obtain ⟨made, fresh⟩ := ledger.queued task (List.mem_of_getElem? found)
      exact ⟨made, fresh.kept ⟨rfl, rfl, rfl⟩, Task.ready_of_isReady ready⟩
    · exact held_kept ledger later (Multiset.mem_cons_of_mem inside) holding id
        fun _ => ⟨rfl, rfl, rfl⟩
  | @call active R =>
    have here : (PoolCode.call active).holding = some (active, .taken) := rfl
    obtain ⟨known, fresh, ready⟩ := ledger.held _ (Multiset.mem_cons_self _ R) active _ here
    rcases Multiset.mem_cons.mp inside with rfl | other
    · cases holding
      refine ⟨known, ⟨?_, fresh.received⟩, ready⟩
      change Function.update pool.invocations task.promise _ task.promise = 1
      rw [Function.update_self, fresh.invocations]
    · have different := ledger.held_ne here other holding
      exact held_kept ledger later (Multiset.mem_cons_of_mem other) holding id fun made =>
        ⟨Function.update_of_ne (ledger.promise_ne made known different) _ _, rfl, rfl⟩
  | @funcReturn active result R =>
    have here : (PoolCode.func active).holding = some (active, .running) := rfl
    obtain ⟨known, running, ready⟩ := ledger.held _ (Multiset.mem_cons_self _ R) active _ here
    rcases Multiset.mem_cons.mp inside with rfl | other
    · cases holding
      refine ⟨known, running.invocations, result, ?_, ?_⟩
      · exact Function.update_self task.promise _ _
      · change Function.update h.received task.promise _ task.promise = [result]
        rw [Function.update_self, running.received, List.nil_append]
    · have different := ledger.held_ne here other holding
      exact held_kept ledger later (Multiset.mem_cons_of_mem other) holding id fun made =>
        have apart := ledger.promise_ne made known different
        ⟨rfl, Function.update_of_ne apart _ _, Function.update_of_ne apart _ _⟩
  | release =>
    rcases Multiset.mem_cons.mp inside with rfl | inside
    · cases holding
    · exact held_kept ledger later (Multiset.mem_cons_of_mem inside) holding id
        fun _ => ⟨rfl, rfl, rfl⟩
  | clear found =>
    rcases Multiset.mem_cons.mp inside with rfl | inside
    · cases holding
    · exact held_kept ledger later (Multiset.mem_cons_of_mem inside) holding id
        fun _ => ⟨rfl, rfl, rfl⟩

/-- A destroyed task was not touched, or its callable has ended. -/
theorem ended (ledger : pool.Ledger h C) (blank : h.Blank h.next)
    (move : TaskMove pool h C pool' h' C') :
    ∀ task ∈ pool'.made, h'.destroyed task.promise = true →
      pool'.Fresh h' task ∨ pool'.Finished h' task := by
  have old (task : Task) (made : task ∈ pool.made) (gone : h.destroyed task.promise = true)
      (kept : pool.Kept pool' h h' task) : pool'.Fresh h' task ∨ pool'.Finished h' task :=
    (ledger.ended task made gone).imp (fun fresh => fresh.kept kept)
      fun finished => finished.kept kept
  intro task made gone
  cases move with
  | other same destroyed received left plain =>
    rw [same.made] at made
    rw [destroyed task made] at gone
    exact old task made gone (same.kept (received task made))
  | advance same holds held => exact old task (same.made ▸ made) gone (same.kept rfl)
  | whenAll origin destroyed received =>
    exact old task made (destroyed ▸ gone) ⟨rfl, rfl, congrFun received _⟩
  | makeTask promise waits passed =>
    rcases List.mem_append.mp made with made | new
    · exact old task made gone ⟨rfl, rfl, rfl⟩
    · obtain rfl := List.mem_singleton.mp new
      rw [promise, show h.destroyed h.next = false from blank.destroyed] at gone
      cases gone
  | emplaceBack same tasks => exact old task (same.made ▸ made) gone (same.kept rfl)
  | nextTask found ready => exact old task made gone ⟨rfl, rfl, rfl⟩
  | @call active R =>
    have here : (PoolCode.call active).holding = some (active, .taken) := rfl
    have known := (ledger.held _ (Multiset.mem_cons_self _ R) active _ here).1
    have different := ledger.destroyed_ne here gone
    exact old task made gone
      ⟨Function.update_of_ne (ledger.promise_ne made known different) _ _, rfl, rfl⟩
  | @funcReturn active result R =>
    have here : (PoolCode.func active).holding = some (active, .running) := rfl
    have known := (ledger.held _ (Multiset.mem_cons_self _ R) active _ here).1
    have apart := ledger.promise_ne made known (ledger.destroyed_ne here gone)
    exact old task made gone
      ⟨rfl, Function.update_of_ne apart _ _, Function.update_of_ne apart _ _⟩
  | @release active R =>
    have here : (PoolCode.release active).holding = some (active, .finished) := rfl
    obtain ⟨known, finished⟩ := ledger.held _ (Multiset.mem_cons_self _ R) active _ here
    change Function.update h.destroyed active.promise true task.promise = true at gone
    rw [ledger.destroyed_update known made] at gone
    split_ifs at gone with same
    · exact Or.inr (same ▸ Pool.Finished.kept finished ⟨rfl, rfl, rfl⟩)
    · exact old task made gone ⟨rfl, rfl, rfl⟩
  | @clear active rest R found =>
    obtain ⟨known, fresh⟩ := ledger.queued active (found ▸ List.mem_cons_self)
    change Function.update h.destroyed active.promise true task.promise = true at gone
    rw [ledger.destroyed_update known made] at gone
    split_ifs at gone with same
    · exact Or.inl (same ▸ fresh.kept ⟨rfl, rfl, rfl⟩)
    · exact old task made gone ⟨rfl, rfl, rfl⟩

/-- A move keeps the ledger. -/
theorem ledger (later : h.Later h') (blank : h.Blank h.next) (ledger : pool.Ledger h C)
    (move : TaskMove pool h C pool' h' C') : pool'.Ledger h' C' where
  made := move.made ledger later
  distinct := move.distinct ledger blank
  unmade := move.unmade ledger
  place := move.place ledger blank
  queued := move.queued ledger
  held := move.held ledger later blank
  making := move.making ledger later
  ended := move.ended ledger blank

end TaskMove

end Azul.Async
