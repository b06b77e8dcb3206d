import Azul.Async.TaskNotifications
import Azul.Async.WhenAllCode

/-!
# Tasks that wait for tasks

A program that calls `Execute` with futures of earlier tasks only. The dependencies of a task are
older than the task, and nothing but the pool makes it ready: what works for its `WhenAll` runs
above the `Execute` that constructs the task, or above a worker that completes or destroys the
promise of a dependency.
-/

namespace Azul.Async

open Foundation

variable {V ε : Type}

/-- The futures that a piece of `Execute` was called with. -/
def PoolCode.dependencies : PoolCode → List StateId
  | .execute _ dependencies | .whenAll _ dependencies | .makeTask _ dependencies _ => dependencies
  | _ => []

/-- The code constructs the task that waits for a state. -/
def PoolCode.makes (s : StateId) : PoolCode → Prop
  | .makeTask _ _ dependency => dependency = s
  | _ => False

/-- What a statement does to the order of tasks. -/
inductive Pool.Submitted (pool pool' : Pool V ε) (h : Heap V ε) :
    PoolCode → List PoolCode → Option (Api V ε) → Prop
  /-- `Execute` joins the dependencies. -/
  | joins {isVoid dependencies} (made : pool'.made = pool.made) :
    Submitted pool pool' h (.whenAll isVoid dependencies) [.makeTask isVoid dependencies h.next]
      (some (.whenAll dependencies))
  /-- `Execute` constructs the task. -/
  | makes {isVoid dependencies dependency} {task : Task} (promise : task.promise = h.next)
      (waits : task.dependency = some dependency) (passed : task.dependencies = dependencies)
      (made : pool'.made = pool.made ++ [task]) :
    Submitted pool pool' h (.makeTask isVoid dependencies dependency) [.emplaceBack task]
      (some (.newPromise isVoid))
  | other {c next api} (made : pool'.made = pool.made)
      (kept : ∀ c' ∈ next, (∀ p ∈ c'.dependencies, p ∈ c.dependencies) ∧ (∀ s, ¬ c'.makes s) ∧
        ∀ task, c' ≠ .emplaceBack task)
      (apart : ∀ inputs, api ≠ some (.whenAll inputs)) : Submitted pool pool' h c next api

theorem Pool.Did.submitted {pool pool' : Pool V ε} {h : Heap V ε} {workers thread woken : Nat}
    {c : PoolCode} {next : List PoolCode} {api : Option (Api V ε)}
    (did : pool.Did h workers thread woken c pool' next api) :
    pool.Submitted pool' h c next api := by
  have one {c' : PoolCode} (plain : (∀ p ∈ c'.dependencies, p ∈ c.dependencies) ∧
      (∀ s, ¬ c'.makes s) ∧ ∀ task, c' ≠ .emplaceBack task) :
      ∀ c'' ∈ [c'], (∀ p ∈ c''.dependencies, p ∈ c.dependencies) ∧ (∀ s, ¬ c''.makes s) ∧
        ∀ task, c'' ≠ .emplaceBack task := by
    intro c'' inside
    rw [List.mem_singleton.mp inside]
    exact plain
  cases did with
  | whenAll => exact .joins rfl
  | makeTask promise waits passed => exact .makes promise waits passed rfl
  | execute => exact .other rfl (one ⟨fun p inside => inside, fun _ => id, nofun⟩) nofun
  | getFuture | ends | cleared => exact .other rfl nofun nofun
  | emplaceBack | threadLoop | loop | scanned | takes | skips | unlock | call | relock | notifies
  | notified | release | leaves | sleeps | wakes | returns | shutdownNotifyThreads | joins | joined
  | clears => exact .other rfl (one ⟨nofun, fun _ => id, nofun⟩) nofun

namespace PoolConfig

/-- `Execute` is called with futures of tasks that were made before. -/
def Submits (σ : PoolConfig V ε) : PoolEvent V ε → Prop
  | .execute _ _ dependencies => ∀ p ∈ dependencies, p ∈ σ.pool.made.map Task.promise
  | _ => True

instance (σ : PoolConfig V ε) : (event : PoolEvent V ε) → Decidable (σ.Submits event)
  | .execute _ _ dependencies =>
    inferInstanceAs (Decidable (∀ p ∈ dependencies, p ∈ σ.pool.made.map Task.promise))
  | .run _ _ | .ret _ _ | .call _ _ | .funcReturn _ _ | .destroy _ =>
    inferInstanceAs (Decidable True)

/-- A task waits for a state, or one is about to be made that does. -/
def Joins (σ : PoolConfig V ε) (s : StateId) : Prop :=
  (∃ task ∈ σ.pool.made, task.dependency = some s) ∨
    ∃ c ∈ poolCode σ.runtime.pending, c.makes s

/-- What works for the `WhenAll` of a task runs above the construction of the task, or above a call
on the promise of a dependency; and the continuations of a task are cleared by the pool. -/
def orders (σ : PoolConfig V ε) (x : Instr V ε PoolCode) (below : Instr V ε PoolCode → Prop) :
    Prop :=
  (∀ task ∈ σ.pool.made, x = .clear task.promise →
    below (.external .loop) ∨ below (.external .shutdownDestroyRemainingTasks)) ∧
  ∀ s, σ.Joins s → x.serves σ.runtime.heap s → (∃ c : PoolCode, c.makes s ∧ below (.external c)) ∨
    ∃ inputs, σ.runtime.heap.origin s = some (.whenAll inputs) ∧
      ∃ p ∈ inputs, ∃ y, y.visits p ∧ below y

/-- How tasks depend on tasks. -/
structure Ordered (σ : PoolConfig V ε) : Prop where
  earlier : ∀ task ∈ σ.pool.made, ∀ p ∈ task.dependencies, p ∈ σ.pool.made.map Task.promise
  before : ∀ task ∈ σ.pool.made, ∀ s, task.dependency = some s → s < task.promise
  submitted : ∀ c ∈ poolCode σ.runtime.pending, ∀ p ∈ c.dependencies,
    p ∈ σ.pool.made.map Task.promise
  making : ∀ c ∈ poolCode σ.runtime.pending, ∀ s, c.makes s → ∀ task ∈ σ.pool.made,
    task.dependency ≠ some s
  queueing : ∀ task, .emplaceBack task ∈ poolCode σ.runtime.pending →
    ∀ other ∈ σ.pool.made, task.promise ∉ other.dependencies
  nested : ∀ stack ∈ σ.runtime.threads, Stacks.Nested σ.orders stack

variable {workers : Nat} {σ σ' : PoolConfig V ε} {thread : Nat}
  {s : StateId} {old new base : List (Instr V ε PoolCode)} {c : PoolCode} {next : List PoolCode}

/-! ## Library steps -/

/-- Orders are met by more instructions below. -/
theorem orders_grow (x : Instr V ε PoolCode) (below wider : Instr V ε PoolCode → Prop)
    (wide : ∀ y, below y → wider y) (orders : σ.orders x below) : σ.orders x wider := by
  obtain ⟨clears, serves⟩ := orders
  refine ⟨fun task made same => (clears task made same).imp (wide _) (wide _), ?_⟩
  intro s joins works
  cases serves s joins works with
  | inl makes =>
    obtain ⟨c, makes, under⟩ := makes
    exact Or.inl ⟨c, makes, wide _ under⟩
  | inr visits =>
    obtain ⟨inputs, made, p, input, y, visits, under⟩ := visits
    exact Or.inr ⟨inputs, made, p, input, y, visits, wide _ under⟩

/-- The `WhenAll` of a task has a maker. -/
theorem Joins.made (joins : σ.Joins s) (ok : σ.Ok workers) :
    ∃ inputs, σ.runtime.heap.origin s = some (.whenAll inputs) := by
  cases joins with
  | inl task =>
    obtain ⟨task, made, waits⟩ := task
    obtain ⟨_, dependency, same, origin⟩ := ok.ledger.made task made
    rw [waits] at same
    cases same
    exact ⟨_, origin⟩
  | inr code =>
    obtain ⟨c, inside, makes⟩ := code
    cases c with
    | makeTask isVoid dependencies dependency =>
      have same : dependency = s := makes
      rw [same] at inside
      exact ⟨_, ok.ledger.making _ _ _ inside⟩
    | _ => exact makes.elim

/-- The promise of a task is allocated. -/
theorem Ok.made_lt (ok : σ.Ok workers) {p : StateId} (known : p ∈ σ.pool.made.map Task.promise) :
    p < σ.runtime.heap.next := by
  obtain ⟨task, made, same⟩ := List.mem_map.mp known
  rw [← same]
  exact ok.promise_lt made

/-- Orders stay met while tasks are added. -/
theorem orders_kept (ok : σ.Ok workers) (later : σ.runtime.heap.Later σ'.runtime.heap)
    (made : ∀ task ∈ σ'.pool.made, task ∈ σ.pool.made ∨ task.promise = σ.runtime.heap.next)
    (joins : ∀ s, σ'.Joins s → σ.Joins s ∨ s = σ.runtime.heap.next) {x : Instr V ε PoolCode}
    (inside : x ∈ σ.runtime.pending) {below : Instr V ε PoolCode → Prop}
    (orders : σ.orders x below) : σ'.orders x below := by
  have layout := (Config.ok ok.reached).inv.layout
  have typed := layout.typed x inside
  obtain ⟨clears, serves⟩ := orders
  constructor
  · intro task known same
    cases made task known with
    | inl old => exact clears task old same
    | inr new =>
      rw [same, new] at typed
      exact absurd (layout.promised_lt typed) (Nat.lt_irrefl _)
  · intro s after works
    have before := serves_kept later.origin typed works
    cases joins s after with
    | inl old =>
      cases serves s old before with
      | inl makes => exact Or.inl makes
      | inr visits =>
        obtain ⟨inputs, origin, rest⟩ := visits
        exact Or.inr ⟨inputs, later.origin s _ origin, rest⟩
    | inr new =>
      have bound := serves_lt layout typed before
      rw [new] at bound
      exact absurd bound (Nat.lt_irrefl _)

/-- What neither clears continuations nor works for the `WhenAll` of a task needs nothing. -/
theorem orders_plain {x : Instr V ε PoolCode} {below : Instr V ε PoolCode → Prop}
    (unclear : ∀ s, x ≠ .clear s) (unserved : ∀ s, σ.Joins s → ¬ x.serves σ.runtime.heap s) :
    σ.orders x below :=
  ⟨fun _ _ same => absurd same (unclear _), fun s joins works => absurd works (unserved s joins)⟩

namespace Ordered

/-- What a step of the library puts on a stack is in order there. -/
theorem library_fresh (ordered : σ.Ordered) (ok : σ.Ok workers)
    (later : σ.runtime.heap.Later σ'.runtime.heap) (same : σ'.pool = σ.pool)
    (joins : ∀ s, σ'.Joins s → σ.Joins s) {event : PoolEvent V ε} {below : Event V ε PoolCode}
    (running : σ.runtime.step below = some σ'.runtime)
    (step : LibraryStep workers σ thread σ'.runtime old new base)
    (reason : Reason workers σ thread old event below)
    (nested : Stacks.Nested σ'.orders base) : Stacks.Nested σ'.orders (new ++ base) := by
  have layout := (Config.ok ok.reached).inv.layout
  have found := step.replaced.found
  cases reason with
  | ret d result =>
    cases (step.returned running).2 with
    | inl value =>
      obtain ⟨value, one⟩ := value
      rw [one]
      exact ⟨orders_plain nofun fun _ _ => id, nested⟩
    | inr error =>
      obtain ⟨error, one⟩ := error
      rw [one]
      exact ⟨orders_plain nofun fun _ _ => id, nested⟩
  | call api control =>
    have begun := step.called running
    apply nested.append
    intro y inside under _
    apply orders_plain
    · intro t same
      rw [same] at inside
      exact begin_clear begun inside
    · intro s joined
      obtain ⟨inputs, made⟩ := (joins s joined).made ok
      exact begin_serves made (layout.lt_next made) begun inside
  | run x woken =>
    have executed := step.executed running
    have member := List.mem_of_getElem? found
    have typed := layout.typed x (Stacks.mem_pending.mpr ⟨_, member, List.mem_cons_self⟩)
    have clears := (ok.nested _ member).1
    have orders := (ordered.nested _ member).1
    apply nested.append_split
    intro before y after split under all
    have lower (z : Instr V ε PoolCode) (inside : z ∈ base) : under z :=
      all z (List.mem_append_right after inside)
    constructor
    · intro task made is
      rw [same] at made
      have inside : .clear task.promise ∈ new := by
        rw [split, ← is]
        exact List.mem_append_right before List.mem_cons_self
      cases execute_clear executed inside with
      | inl breaks => exact ((clears task made).2 breaks).imp (lower _) (lower _)
      | inr goes => exact (orders.1 task made goes).imp (lower _) (lower _)
    · intro s joined works
      obtain ⟨inputs, origin⟩ := (joins s joined).made ok
      cases execute_serves layout typed origin executed split works with
      | inl mine =>
        cases orders.2 s (joins s joined) mine with
        | inl makes =>
          obtain ⟨c, makes, inside⟩ := makes
          exact Or.inl ⟨c, makes, lower _ inside⟩
        | inr visits =>
          obtain ⟨others, made, p, input, z, visits, inside⟩ := visits
          exact Or.inr ⟨others, later.origin s _ made, p, input, z, visits, lower _ inside⟩
      | inr visits =>
        obtain ⟨p, input, z, inside, visits⟩ := visits
        exact Or.inr ⟨inputs, later.origin s _ origin, p, input, z, visits,
          all z (List.mem_append_left base inside)⟩

/-- Code that neither constructs nor queues a task keeps the order. -/
theorem goes (ordered : σ.Ordered) (ok : σ.Ok workers)
    (later : σ.runtime.heap.Later σ'.runtime.heap) (made : σ'.pool.made = σ.pool.made)
    (replaced : Replaced σ.runtime σ'.runtime thread old (new ++ next.map .external) base)
    (library : ∀ x ∈ new, x.code = none)
    (plain : ∀ c ∈ next, (∀ p ∈ c.dependencies, p ∈ σ.pool.made.map Task.promise) ∧
      (∀ s, ¬ c.makes s) ∧ ∀ task, c ≠ .emplaceBack task)
    (fresh : (∀ s, σ'.Joins s → σ.Joins s) → Stacks.Nested σ'.orders base →
      Stacks.Nested σ'.orders (new ++ next.map .external ++ base)) : σ'.Ordered := by
  obtain ⟨rest, before, after⟩ := replaced.pending
  have cases_ {c : PoolCode} (inside : c ∈ poolCode σ'.runtime.pending) :
      c ∈ poolCode σ.runtime.pending ∨ c ∈ next := by
    rw [after, poolCode_add, ← Multiset.coe_add, poolCode_add, poolCode_library library, zero_add,
      poolCode_external] at inside
    rw [before, poolCode_add]
    cases Multiset.mem_add.mp inside with
    | inl come => exact Or.inr (Multiset.mem_coe.mp come)
    | inr kept => exact Or.inl (Multiset.mem_add.mpr (Or.inr kept))
  have joins (s : StateId) (joins : σ'.Joins s) : σ.Joins s := by
    cases joins with
    | inl task =>
      rw [made] at task
      exact Or.inl task
    | inr code =>
      obtain ⟨c, inside, makes⟩ := code
      cases cases_ inside with
      | inl old => exact Or.inr ⟨c, old, makes⟩
      | inr new => exact absurd makes ((plain c new).2.1 s)
  constructor
  · rw [made]
    exact ordered.earlier
  · rw [made]
    exact ordered.before
  · intro c inside
    rw [made]
    cases cases_ inside with
    | inl old => exact ordered.submitted c old
    | inr new => exact (plain c new).1
  · intro c inside
    rw [made]
    cases cases_ inside with
    | inl old => exact ordered.making c old
    | inr new => exact fun s makes => absurd makes ((plain c new).2.1 s)
  · intro task inside
    rw [made]
    cases cases_ inside with
    | inl old => exact ordered.queueing task old
    | inr new => exact absurd rfl ((plain _ new).2.2 task)
  · apply replaced.nested ordered.nested _ (fresh joins)
    intro x inside below _ orders
    apply orders_kept ok later _ (fun s after => Or.inl (joins s after)) inside orders
    intro task known
    rw [made] at known
    exact Or.inl known

/-- Code of the pool and of a call that it begins is in order. -/
theorem begun_fresh {h : Heap V ε} {api : Option (Api V ε)}
    (apart : ∀ inputs, api ≠ some (.whenAll inputs)) (begun : Begun h api σ'.runtime.heap new)
    (before : ∀ s, σ'.Joins s → ∃ inputs, h.origin s = some (.whenAll inputs) ∧ s < h.next)
    (nested : Stacks.Nested σ'.orders base) :
    Stacks.Nested σ'.orders (new ++ next.map .external ++ base) := by
  have code : Stacks.Nested σ'.orders (next.map .external ++ base) := by
    apply nested.append
    intro y inside below _
    obtain ⟨c, _, same⟩ := List.mem_map.mp inside
    rw [← same]
    exact orders_plain nofun fun _ _ => id
  rw [List.append_assoc]
  apply code.append
  intro y inside below _
  cases api with
  | none =>
    rw [begun.2] at inside
    cases inside
  | some api =>
    apply orders_plain
    · intro s same
      rw [same] at inside
      exact begin_clear begun inside
    · intro s joins
      obtain ⟨inputs, made, bound⟩ := before s joins
      exact begin_serves made bound begun inside

/-- `Execute` joins the dependencies of a task. -/
theorem joins (ordered : σ.Ordered) (ok : σ.Ok workers)
    (later : σ.runtime.heap.Later σ'.runtime.heap) {isVoid : Bool} {dependencies : List StateId}
    (made : σ'.pool.made = σ.pool.made)
    (replaced : Replaced σ.runtime σ'.runtime thread [.external (.whenAll isVoid dependencies)]
      (new ++ [.external (.makeTask isVoid dependencies σ.runtime.heap.next)]) base)
    (begun : σ.runtime.heap.begin (.whenAll dependencies) = some (σ'.runtime.heap, new)) :
    σ'.Ordered := by
  have library : ∀ x ∈ new, x.code = none := (begin_spares begun).library
  obtain ⟨rest, before, after⟩ := replaced.pending
  have was : poolCode σ.runtime.pending = .whenAll isVoid dependencies ::ₘ poolCode rest := by
    rw [before, Stacks.coe_cons_add, Stacks.coe_nil_add, poolCode_cons]
  have now : poolCode σ'.runtime.pending =
      .makeTask isVoid dependencies σ.runtime.heap.next ::ₘ poolCode rest := by
    rw [after, ← Multiset.coe_add, add_assoc, poolCode_add, poolCode_library library, zero_add,
      Stacks.coe_cons_add, Stacks.coe_nil_add, poolCode_cons]
  have split {c : PoolCode} (inside : c ∈ poolCode σ'.runtime.pending) :
      c = .makeTask isVoid dependencies σ.runtime.heap.next ∨ c ∈ poolCode σ.runtime.pending := by
    rw [now] at inside
    rw [was]
    exact (Multiset.mem_cons.mp inside).imp_right Multiset.mem_cons_of_mem
  have joins (s : StateId) (joins : σ'.Joins s) : σ.Joins s ∨ s = σ.runtime.heap.next := by
    cases joins with
    | inl task =>
      rw [made] at task
      exact Or.inl (Or.inl task)
    | inr code =>
      obtain ⟨c, inside, makes⟩ := code
      cases split inside with
      | inl same =>
        rw [same] at makes
        exact Or.inr (Eq.symm makes)
      | inr old => exact Or.inl (Or.inr ⟨c, old, makes⟩)
  constructor
  · rw [made]
    exact ordered.earlier
  · rw [made]
    exact ordered.before
  · intro c inside
    rw [made]
    cases split inside with
    | inl same =>
      rw [same]
      apply ordered.submitted (.whenAll isVoid dependencies)
      rw [was]
      exact Multiset.mem_cons_self _ _
    | inr old => exact ordered.submitted c old
  · intro c inside s makes task known waits
    rw [made] at known
    cases split inside with
    | inl same =>
      rw [same] at makes
      obtain ⟨_, dependency, is, origin⟩ := ok.ledger.made task known
      rw [waits, ← (show σ.runtime.heap.next = s from makes)] at is
      rw [← Option.some.inj is, ok.blank.origin] at origin
      cases origin
    | inr old => exact ordered.making c old s makes task known waits
  · intro task inside
    rw [made]
    cases split inside with
    | inl same => cases same
    | inr old => exact ordered.queueing task old
  · apply replaced.nested ordered.nested
    · intro x inside below _ orders
      apply orders_kept ok later _ joins inside orders
      intro task known
      rw [made] at known
      exact Or.inl known
    · intro nested
      rw [List.append_assoc]
      have code : Stacks.Nested σ'.orders
          ([.external (.makeTask isVoid dependencies σ.runtime.heap.next)] ++ base) :=
        ⟨orders_plain nofun fun _ _ => id, nested⟩
      apply code.append
      intro y inside below all
      constructor
      · intro task _ same
        rw [same] at inside
        exact absurd inside (begin_clear begun)
      · intro s joined works
        cases joins s joined with
        | inl old =>
          obtain ⟨inputs, origin⟩ := old.made ok
          have bound := (Config.ok ok.reached).inv.layout.lt_next origin
          exact absurd works (begin_serves origin bound begun inside)
        | inr same =>
          exact Or.inl ⟨.makeTask isVoid dependencies σ.runtime.heap.next, same.symm,
            all _ List.mem_cons_self⟩

/-- `Execute` constructs a task. -/
theorem makes (ordered : σ.Ordered) (ok : σ.Ok workers) (staffed : σ.Staffed workers)
    (later : σ.runtime.heap.Later σ'.runtime.heap) {isVoid : Bool} {dependencies : List StateId}
    {dependency : StateId} {task : Task} (promise : task.promise = σ.runtime.heap.next)
    (waits : task.dependency = some dependency) (passed : task.dependencies = dependencies)
    (made : σ'.pool.made = σ.pool.made ++ [task])
    (replaced : Replaced σ.runtime σ'.runtime thread
      [.external (.makeTask isVoid dependencies dependency)] [.external (.emplaceBack task)]
      base) : σ'.Ordered := by
  obtain ⟨rest, before, after⟩ := replaced.pending
  have was : poolCode σ.runtime.pending =
      .makeTask isVoid dependencies dependency ::ₘ poolCode rest := by
    rw [before, Stacks.coe_cons_add, Stacks.coe_nil_add, poolCode_cons]
  have now : poolCode σ'.runtime.pending = .emplaceBack task ::ₘ poolCode rest := by
    rw [after, Stacks.coe_cons_add, Stacks.coe_nil_add, poolCode_cons]
  have here : .makeTask isVoid dependencies dependency ∈ poolCode σ.runtime.pending := by
    rw [was]
    exact Multiset.mem_cons_self _ _
  -- nobody else is in the critical section
  have alone (c : PoolCode) (inside : c ∈ poolCode rest) : c.isCritical = false := by
    apply Bool.eq_false_of_not_eq_true
    intro critical
    have exclusive := staffed.exclusive
    have mine : (PoolCode.makeTask isVoid dependencies dependency).isCritical = true := rfl
    rw [was, Stacks.count_cons, if_pos mine] at exclusive
    have more : 0 < Stacks.count (poolCode rest) PoolCode.isCritical :=
      Stacks.count_pos.mpr ⟨c, inside, critical⟩
    have bound := Bool.toNat_le σ.pool.mutex.isSome
    omega
  have split {c : PoolCode} (inside : c ∈ poolCode σ'.runtime.pending) :
      c = .emplaceBack task ∨ c ∈ poolCode rest := by
    rw [now] at inside
    exact Multiset.mem_cons.mp inside
  have kept {c : PoolCode} (inside : c ∈ poolCode rest) : c ∈ poolCode σ.runtime.pending := by
    rw [was]
    exact Multiset.mem_cons_of_mem inside
  have known {other : Task} (inside : other ∈ σ'.pool.made) :
      other ∈ σ.pool.made ∨ other = task := by
    rw [made] at inside
    exact (List.mem_append.mp inside).imp_right List.mem_singleton.mp
  have wider {p : StateId} (inside : p ∈ σ.pool.made.map Task.promise) :
      p ∈ σ'.pool.made.map Task.promise := by
    rw [made, List.map_append]
    exact List.mem_append_left _ inside
  have own (p : StateId) (inside : p ∈ task.dependencies) : p ∈ σ.pool.made.map Task.promise := by
    rw [passed] at inside
    exact ordered.submitted _ here p inside
  constructor
  · intro other inside p waits
    cases known inside with
    | inl old => exact wider (ordered.earlier other old p waits)
    | inr same =>
      rw [same] at waits
      exact wider (own p waits)
  · intro other inside s waiting
    cases known inside with
    | inl old => exact ordered.before other old s waiting
    | inr same =>
      rw [same, waits] at waiting
      rw [same, promise, ← Option.some.inj waiting]
      exact (Config.ok ok.reached).inv.layout.lt_next (ok.ledger.making _ _ _ here)
  · intro c inside p waits
    cases split inside with
    | inl same =>
      rw [same] at waits
      cases waits
    | inr old => exact wider (ordered.submitted c (kept old) p waits)
  · intro c inside s makes
    cases split inside with
    | inl same =>
      rw [same] at makes
      exact makes.elim
    | inr old =>
      have outside := alone c old
      cases c with
      | makeTask => cases outside
      | _ => exact makes.elim
  · intro fresh inside other known' waits
    cases split inside with
    | inl same =>
      rw [PoolCode.emplaceBack.inj same, promise] at waits
      have bound : σ.runtime.heap.next < σ.runtime.heap.next := by
        cases known known' with
        | inl old => exact ok.made_lt (ordered.earlier other old _ waits)
        | inr same =>
          rw [same] at waits
          exact ok.made_lt (own _ waits)
      exact absurd bound (Nat.lt_irrefl _)
    | inr old => cases alone _ old
  · apply replaced.nested ordered.nested
    · intro x inside below _ orders
      apply orders_kept ok later _ _ inside orders
      · intro other inside
        cases known inside with
        | inl old => exact Or.inl old
        | inr same =>
          rw [same]
          exact Or.inr promise
      · intro s joins
        left
        cases joins with
        | inl task' =>
          obtain ⟨other, inside, waiting⟩ := task'
          cases known inside with
          | inl old => exact Or.inl ⟨other, old, waiting⟩
          | inr same =>
            rw [same, waits] at waiting
            exact Or.inr ⟨_, here, Option.some.inj waiting⟩
        | inr code =>
          obtain ⟨c, inside, makes⟩ := code
          cases split inside with
          | inl same =>
            rw [same] at makes
            exact makes.elim
          | inr old => exact Or.inr ⟨c, kept old, makes⟩
    · exact fun nested => ⟨orders_plain nofun fun _ _ => id, nested⟩

/-- Every step of a program that calls `Execute` with futures of earlier tasks keeps the order. -/
theorem step (ordered : σ.Ordered) (ok : σ.Ok workers) (staffed : σ.Staffed workers)
    {event : PoolEvent V ε} (submits : σ.Submits event)
    (taken : σ.step workers event = some σ') : σ'.Ordered := by
  have later := ok.later (ok.stepped taken)
  have empty : ∀ x ∈ ([] : List (Instr V ε PoolCode)), x.code = none := nofun
  have silent (s : StateId) (joins : σ.Joins s) : ∃ inputs,
      σ.runtime.heap.origin s = some (.whenAll inputs) ∧ s < σ.runtime.heap.next := by
    obtain ⟨inputs, origin⟩ := joins.made ok
    exact ⟨inputs, origin, (Config.ok ok.reached).inv.layout.lt_next origin⟩
  cases ok.stepped taken with
  | @library event below thread old new base disciplined running same step reason =>
    have replaced : Replaced σ.runtime σ'.runtime thread old
        (new ++ ([] : List PoolCode).map .external) base := by
      rw [List.map_nil, List.append_nil]
      exact step.replaced
    apply ordered.goes ok later (congrArg Pool.made same) replaced step.spares.library nofun
    intro joins nested
    rw [List.map_nil, List.append_nil]
    exact ordered.library_fresh ok later same joins running step reason nested
  | @statement thread woken c base pool next api found ran performed =>
    obtain ⟨code, replaced, same, begun⟩ := perform_statement found performed
    have pending : c ∈ poolCode σ.runtime.pending := mem_poolCode.mpr
      (Stacks.mem_pending.mpr ⟨_, List.mem_of_getElem? found, List.mem_cons_self⟩)
    cases (Pool.run_did ran).submitted with
    | joins made =>
      rw [← same] at made
      exact ordered.joins ok later made replaced begun
    | makes promise waits passed made =>
      rw [← same] at made
      have empty : code = [] := (congrArg Prod.snd (Option.some.inj begun)).symm
      rw [empty] at replaced
      exact ordered.makes ok staffed later promise waits passed made replaced
    | other made kept apart =>
      rw [← same] at made
      apply ordered.goes ok later made replaced begun.spares.library
      · intro c' inside
        obtain ⟨fewer, rest⟩ := kept c' inside
        exact ⟨fun p waits => ordered.submitted c pending p (fewer p waits), rest⟩
      · exact fun joins => begun_fresh apart begun fun s after => silent s (joins s after)
  | @funcReturn thread task base result found performed =>
    obtain ⟨code, replaced, same, begun⟩ := perform_statement found performed
    have made : σ'.pool.made = σ.pool.made := by rw [same]
    apply ordered.goes ok later made replaced begun.spares.library
    · intro c inside
      rw [List.mem_singleton.mp inside]
      exact ⟨nofun, fun _ => id, nofun⟩
    · intro joins
      have apart (inputs : List StateId) : some (Api.complete task.promise result) ≠
          some (.whenAll inputs) := nofun
      exact begun_fresh apart begun fun s after => silent s (joins s after)
  | @execute thread base isVoid dependencies found control allowed performed =>
    obtain ⟨replaced, same, heap⟩ := perform_entry found performed
    have entered : Replaced σ.runtime σ'.runtime thread []
        ([] ++ [PoolCode.execute isVoid dependencies].map .external) base := replaced
    apply ordered.goes ok later (congrArg Pool.made same) entered empty
    · intro c inside
      rw [List.mem_singleton.mp inside]
      exact ⟨submits, fun _ => id, nofun⟩
    · exact fun _ nested => ⟨orders_plain nofun fun _ _ => id, nested⟩
  | @destroy thread base found control outside first idle performed =>
    obtain ⟨replaced, same, heap⟩ := perform_entry found performed
    have entered : Replaced σ.runtime σ'.runtime thread []
        ([] ++ [PoolCode.shutdownNotifyThreads].map .external) base := replaced
    have made : σ'.pool.made = σ.pool.made := by rw [same]
    apply ordered.goes ok later made entered empty
    · intro c inside
      rw [List.mem_singleton.mp inside]
      exact ⟨nofun, fun _ => id, nofun⟩
    · exact fun _ nested => ⟨orders_plain nofun fun _ _ => id, nested⟩

end Ordered

/-- No task was made at the start. -/
theorem start_ordered (outside : Nat) : (start workers outside : PoolConfig V ε).Ordered := by
  constructor
  · intro task made
    cases made
  · intro task made
    cases made
  · intro c inside
    rw [start_code inside]
    exact nofun
  · intro c inside s makes
    rw [start_code inside] at makes
    exact makes.elim
  · intro task inside
    cases start_code inside
  · intro stack member
    obtain ⟨thread, found⟩ := List.getElem?_of_mem member
    cases start_stack found with
    | inl loop =>
      rw [loop.1]
      exact ⟨orders_plain nofun fun _ _ => id, trivial⟩
    | inr empty =>
      rw [empty]
      trivial

/-- In every run of a program that calls `Execute` with futures of earlier tasks the tasks are in
order. -/
theorem ordered (reached : ((poolSystem V ε workers).under Submits).Reachable σ) :
    (poolSystem V ε workers).Reachable σ ∧ σ.Ordered := by
  apply reached.invariant
  · intro σ initial
    obtain ⟨outside, same⟩ := initial
    rw [same]
    exact ⟨.start ⟨outside, rfl⟩, start_ordered outside⟩
  · intro σ event σ' _ both stepped
    obtain ⟨submits, taken⟩ := System.under_step.mp stepped
    exact ⟨both.1.next taken, both.2.step (ok both.1) (PoolConfig.staffed both.1) submits taken⟩

/-- A task is ready when its dependencies are decided and no call on them is in progress, whatever
they hold. -/
theorem Ordered.ready (ordered : σ.Ordered) (ok : σ.Ok workers) {task : Task}
    (made : task ∈ σ.pool.made) (decided : ∀ p ∈ task.dependencies, σ.runtime.heap.Decided p)
    (unvisited : ∀ p ∈ task.dependencies, ∀ x ∈ σ.runtime.pending, ¬ x.visits p) :
    task.isReady σ.runtime.heap = true := by
  obtain ⟨_, s, waits, origin⟩ := ok.ledger.made task made
  have unserved (x : Instr V ε PoolCode) (inside : x ∈ σ.runtime.pending) :
      ¬ x.serves σ.runtime.heap s := by
    intro serves
    obtain ⟨stack, member, held⟩ := Stacks.mem_pending.mp inside
    have pending {y : Instr V ε PoolCode} (below : y ∈ stack) : y ∈ σ.runtime.pending :=
      Stacks.mem_pending.mpr ⟨stack, member, below⟩
    have orders := ((ordered.nested stack member).needs orders_grow held).2 s
      (Or.inl ⟨task, made, waits⟩) serves
    cases orders with
    | inl makes =>
      obtain ⟨c, makes, below⟩ := makes
      exact ordered.making c (mem_poolCode.mpr (pending below)) s makes task made waits
    | inr visits =>
      obtain ⟨inputs, joined, p, input, y, visits, below⟩ := visits
      rw [origin] at joined
      rw [← Origin.whenAll.inj (Option.some.inj joined)] at input
      exact unvisited p input y (pending below) visits
  have fired := (Config.ok ok.reached).inv.whenAll_fired origin unserved unvisited decided
  unfold Task.isReady
  rw [waits]
  exact FutureState.isReady_iff.mpr fired

end PoolConfig

end Azul.Async
