import Azul.Async.PoolHistory

/-!
# What the workers do

The code of `ThreadLoop` is at the bottom of the stack of a worker and nowhere else, and something
else is above it only while a callable runs, while a promise is completed, or while one ends. Who is
in a critical section owns the mutex, and a thread that the condition variable has not woken is a
worker inside its wait.
-/

namespace Azul.Async

open Foundation

variable {V ε : Type}

/-- The code belongs to `ThreadLoop`. -/
def PoolCode.isWorker (c : PoolCode) : Bool := !c.isExecute && !c.isDestructor

/-- Other code may run above this code of `ThreadLoop`. -/
def PoolCode.isBase : PoolCode → Bool
  | .func _ | .relock _ | .loop => true
  | _ => false

/-- The code is executed while its thread holds `_mutex`. -/
def PoolCode.isCritical : PoolCode → Bool
  | .whenAll _ _ | .makeTask _ _ _ | .emplaceBack _ | .getFuture _ | .loop | .nextTask _
  | .unlock _ | .notify _ _ | .release _ | .noTask => true
  | _ => false

/-- An instruction is code of `ThreadLoop`. -/
def Instr.isWorker (x : Instr V ε PoolCode) : Bool := x.code.any PoolCode.isWorker

/-- A stack has code of `ThreadLoop` at the bottom, and nowhere else. -/
def Working (stack : List (Instr V ε PoolCode)) (c : PoolCode) : Prop :=
  c.isWorker = true ∧ ∃ above : List (Instr V ε PoolCode), stack = above ++ [.external c] ∧
    (∀ x ∈ above, x.isWorker = false) ∧ (above ≠ [] → c.isBase = true)

/-! ## Statements -/

section Statements

variable {pool pool' : Pool V ε} {h : Heap V ε} {workers thread woken : Nat} {c : PoolCode}
  {next : List PoolCode} {api : Option (Api V ε)}

/-- `ThreadLoop` goes on, and calls the library at the end of an iteration only. -/
theorem Pool.Did.worker (did : pool.Did h workers thread woken c pool' next api)
    (worker : c.isWorker = true) :
    (∃ c', next = [c'] ∧ c'.isWorker = true ∧ (api = none ∨ c'.isBase = true)) ∨
      c = .loop ∧ pool.shutdownInitiated = true ∧ next = [] ∧ api = none := by
  cases did with
  | ends initiated => exact Or.inr ⟨rfl, initiated, rfl, rfl⟩
  | release => exact Or.inl ⟨_, rfl, rfl, Or.inr rfl⟩
  | threadLoop | loop | scanned | takes | skips | unlock | call | relock | notifies | notified
  | leaves | sleeps | wakes | returns => exact Or.inl ⟨_, rfl, rfl, Or.inl rfl⟩
  | execute | whenAll | makeTask | emplaceBack | getFuture | shutdownNotifyThreads | joins
  | joined | clears | cleared => cases worker

/-- What a statement does to `_mutex`: nothing, an acquisition, or a release. -/
inductive Pool.MutexMove (pool pool' : Pool V ε) (thread : Nat) (c : PoolCode)
    (next : List PoolCode) : Prop
  | keeps (same : pool'.mutex = pool.mutex)
      (kind : next.countP PoolCode.isCritical = c.isCritical.toNat)
  | locks (free : pool.mutex = none) (owned : pool'.mutex = some thread)
      (outside : c.isCritical = false) (inside : next.countP PoolCode.isCritical = 1)
  | unlocks (free : pool'.mutex = none) (inside : c.isCritical = true)
      (outside : next.countP PoolCode.isCritical = 0)

theorem Pool.Did.mutex (did : pool.Did h workers thread woken c pool' next api) :
    pool.MutexMove pool' thread c next := by
  cases did with
  | execute free | threadLoop free | relock free | returns _ free => exact .locks free rfl rfl rfl
  | getFuture | ends | unlock | sleeps => exact .unlocks rfl rfl rfl
  | shutdownNotifyThreads free => exact .keeps free.symm rfl
  | whenAll | makeTask | emplaceBack | loop | scanned | takes | skips | call | notifies | notified
  | release | leaves | wakes | joins | joined | clears | cleared => exact .keeps rfl rfl

/-- A thread goes to sleep at the end of `ThreadLoop` only, and wakes up before it goes on. -/
theorem Pool.Did.sleeping (did : pool.Did h workers thread woken c pool' next api) :
    c = .noTask ∧ next = [.waitFor] ∧ pool'.sleeping = insert thread pool.sleeping ∨
      pool'.sleeping ⊆ pool.sleeping ∧ (c = .waitFor → thread ∉ pool'.sleeping) := by
  cases did with
  | sleeps => exact Or.inl ⟨rfl, rfl, rfl⟩
  | wakes => exact Or.inr ⟨Finset.erase_subset _ _, fun _ => Finset.notMem_erase _ _⟩
  | returns awake => exact Or.inr ⟨Finset.Subset.refl _, fun _ => awake⟩
  | emplaceBack | notifies => exact Or.inr ⟨Finset.erase_subset _ _, nofun⟩
  | shutdownNotifyThreads => exact Or.inr ⟨Finset.empty_subset _, nofun⟩
  | execute | whenAll | makeTask | getFuture | threadLoop | ends | loop | scanned | takes | skips
  | unlock | call | relock | notified | release | leaves | joins | joined | clears | cleared =>
    exact Or.inr ⟨Finset.Subset.refl _, nofun⟩

/-- Only the destructor begins the shutdown. -/
theorem Pool.Did.initiated (did : pool.Did h workers thread woken c pool' next api)
    (initiated : pool'.shutdownInitiated = true) :
    pool.shutdownInitiated = true ∨ c.isDestructor = true := by
  cases did with
  | shutdownNotifyThreads => exact Or.inr rfl
  | execute | whenAll | makeTask | emplaceBack | getFuture | threadLoop | ends | loop | scanned
  | takes | skips | unlock | call | relock | notifies | notified | release | leaves | sleeps
  | wakes | returns | joins | joined | clears | cleared => exact Or.inl initiated

/-- A shutdown is not taken back. -/
theorem Pool.Did.initiated_kept (did : pool.Did h workers thread woken c pool' next api)
    (initiated : pool.shutdownInitiated = true) : pool'.shutdownInitiated = true := by
  cases did with
  | shutdownNotifyThreads => rfl
  | execute | whenAll | makeTask | emplaceBack | getFuture | threadLoop | ends | loop | scanned
  | takes | skips | unlock | call | relock | notifies | notified | release | leaves | sleeps
  | wakes | returns | joins | joined | clears | cleared => exact initiated

end Statements

/-! ## The bottom of a stack -/

section Working

variable {old new base stack : List (Instr V ε PoolCode)} {c c' : PoolCode}

/-- A stack has at most one code of `ThreadLoop`. -/
theorem Working.unique (working : Working stack c)
    (inside : .external c' ∈ stack) (worker : c'.isWorker = true) : c' = c := by
  obtain ⟨_, above, same, others, _⟩ := working
  rw [same] at inside
  cases List.mem_append.mp inside with
  | inl higher =>
    have clash := others _ higher
    change c'.isWorker = false at clash
    rw [worker] at clash
    cases clash
  | inr bottom => exact Instr.external.inj (List.mem_singleton.mp bottom)

/-- Code of `ThreadLoop` on top is all there is. -/
theorem Working.alone (working : Working (.external c' :: base) c) (worker : c'.isWorker = true) :
    base = [] ∧ c' = c := by
  have same := working.unique List.mem_cons_self worker
  refine ⟨?_, same⟩
  obtain ⟨_, above, split, others, _⟩ := working
  cases above with
  | nil => exact (List.cons.inj split).2
  | cons x above =>
    have clash := others x List.mem_cons_self
    rw [← (List.cons.inj split).1] at clash
    change c'.isWorker = false at clash
    rw [worker] at clash
    cases clash

/-- Code that is not of `ThreadLoop` may be replaced on top of a stack, and may be put there while
nothing but the code at the bottom has to let it. -/
theorem Working.replace (working : Working (old ++ base) c)
    (plain : ∀ x ∈ old, x.isWorker = false) (fresh : ∀ x ∈ new, x.isWorker = false)
    (lets : old = [] → new ≠ [] → c.isBase = true) : Working (new ++ base) c := by
  obtain ⟨worker, above, same, others, lower⟩ := working
  have split : ∃ middle, above = old ++ middle ∧ base = middle ++ [.external c] := by
    cases List.append_eq_append_iff.mp same with
    | inl longer =>
      obtain ⟨middle, one, two⟩ := longer
      exact ⟨middle, one, two⟩
    | inr shorter =>
      obtain ⟨middle, one, two⟩ := shorter
      cases middle with
      | nil =>
        rw [List.append_nil] at one
        exact ⟨[], by rw [List.append_nil, one], two.symm⟩
      | cons x middle =>
        have bottom := (List.cons.inj two).1
        have inside : .external c ∈ old := by
          rw [one, bottom]
          exact List.mem_append_right _ List.mem_cons_self
        have clash := plain _ inside
        change c.isWorker = false at clash
        rw [worker] at clash
        cases clash
  obtain ⟨middle, aboveIs, baseIs⟩ := split
  refine ⟨worker, new ++ middle, by rw [baseIs, List.append_assoc], ?_, ?_⟩
  · intro x inside
    cases List.mem_append.mp inside with
    | inl early => exact fresh x early
    | inr late =>
      apply others x
      rw [aboveIs]
      exact List.mem_append_right _ late
  · intro some
    by_cases empty : above = []
    · rw [empty] at aboveIs
      obtain ⟨noOld, noMiddle⟩ := List.append_eq_nil_iff.mp aboveIs.symm
      rw [noMiddle, List.append_nil] at some
      exact lets noOld some
    · exact lower empty

/-- Where the program is in control, other code may run above the code at the bottom. -/
theorem Working.base_of_control {workers thread : Nat} {σ : PoolConfig V ε}
    (working : Working base c) (found : σ.runtime.threads[thread]? = some base)
    (control : σ.inProgram workers thread = true) : c.isBase = true := by
  have split := working
  obtain ⟨_, above, same, _, lower⟩ := split
  cases above with
  | cons => exact lower nofun
  | nil =>
    unfold PoolConfig.inProgram at control
    rw [found, same] at control
    cases c with
    | func => rfl
    | _ => cases control

end Working

/-! ## The invariant -/

namespace PoolConfig

/-- The destructor runs only when it was entered. -/
theorem Ok.destroying_of_destructor {workers : Nat} {σ : PoolConfig V ε} (ok : σ.Ok workers)
    {thread : Nat} {stack : List (Instr V ε PoolCode)} {c : PoolCode}
    (found : σ.runtime.threads[thread]? = some stack) (inside : .external c ∈ stack)
    (destructor : c.isDestructor = true) : σ.pool.destroying = true := by
  have pending : c ∈ poolCode σ.runtime.pending :=
    mem_poolCode.mpr (Stacks.mem_pending.mpr ⟨_, List.mem_of_getElem? found, inside⟩)
  have counted : 0 < Stacks.count (poolCode σ.runtime.pending) PoolCode.isDestructor :=
    Stacks.count_pos.mpr ⟨c, pending, destructor⟩
  have placed := ok.placed.destructor
  cases is : σ.pool.destroying with
  | true => rfl
  | false =>
    rw [is, Bool.toNat_false] at placed
    omega

/-- Only workers execute `ThreadLoop`. -/
theorem Ok.worker_lt {workers : Nat} {σ : PoolConfig V ε} (ok : σ.Ok workers) {thread : Nat}
    {stack : List (Instr V ε PoolCode)} {c : PoolCode}
    (found : σ.runtime.threads[thread]? = some stack) (inside : .external c ∈ stack)
    (worker : c.isWorker = true) : thread < workers := by
  have assigned := ok.placed.assigned thread stack found c inside
  obtain ⟨execute, destructor⟩ := Bool.and_eq_true_iff.mp worker
  rw [Bool.not_eq_true'] at execute destructor
  unfold PoolCode.Assigned at assigned
  rw [execute, destructor] at assigned
  exact assigned

/-- What the workers do, who owns the mutex, and who is asleep. -/
structure Staffed (workers : Nat) (σ : PoolConfig V ε) : Prop where
  working : ∀ w < workers, ∃ stack, σ.runtime.threads[w]? = some stack ∧
    (stack = [] ∧ σ.pool.shutdownInitiated = true ∨ ∃ c, Working stack c)
  owner : ∀ (t : Nat) stack, σ.runtime.threads[t]? = some stack → ∀ c : PoolCode,
    .external c ∈ stack → c.isCritical = true → σ.pool.mutex = some t
  exclusive : Stacks.count (poolCode σ.runtime.pending) PoolCode.isCritical =
    σ.pool.mutex.isSome.toNat
  sleeping : ∀ w ∈ σ.pool.sleeping, w < workers ∧
    σ.runtime.threads[w]? = some [.external .waitFor]
  initiated : σ.pool.shutdownInitiated = true → σ.pool.destroying = true

namespace Staffed

variable {workers : Nat} {σ σ' : PoolConfig V ε} {thread : Nat} {c : PoolCode}
  {next : List PoolCode} {code old new base : List (Instr V ε PoolCode)}

/-- Code of the library is in no critical section, and is not of `ThreadLoop`. -/
theorem library_plain {x : Instr V ε PoolCode} (library : x.code = none) :
    x.isWorker = false ∧ ∀ c : PoolCode, x ≠ .external c := by
  constructor
  · unfold Instr.isWorker
    rw [library]
    rfl
  · intro c same
    rw [same] at library
    cases library

/-- Other code than that of `ThreadLoop` is put on a stack, or goes on there. -/
theorem enters (staffed : σ.Staffed workers)
    (replaced : Replaced σ.runtime σ'.runtime thread old (code ++ next.map .external) base)
    (own : ∀ x ∈ old, x.code = none) (library : ∀ x ∈ code, x.code = none)
    (plain : ∀ c ∈ next, c.isWorker = false ∧ c.isCritical = false)
    (control : old = [] → σ.inProgram workers thread = true)
    (mutex : σ'.pool.mutex = σ.pool.mutex) (sleeping : σ'.pool.sleeping = σ.pool.sleeping)
    (initiated : σ'.pool.shutdownInitiated = σ.pool.shutdownInitiated)
    (destroying : σ.pool.destroying = true → σ'.pool.destroying = true) :
    σ'.Staffed workers := by
  have fresh : ∀ x ∈ code ++ next.map .external, x.isWorker = false := by
    intro x inside
    cases List.mem_append.mp inside with
    | inl early => exact (library_plain (library x early)).1
    | inr late =>
      obtain ⟨c, listed, same⟩ := List.mem_map.mp late
      rw [← same]
      exact (plain c listed).1
  have harmless {c : PoolCode} (inside : .external c ∈ code ++ next.map .external) :
      c.isCritical = false := by
    cases List.mem_append.mp inside with
    | inl early => exact absurd rfl ((library_plain (library _ early)).2 c)
    | inr late =>
      obtain ⟨c', listed, same⟩ := List.mem_map.mp late
      rw [← Instr.external.inj same]
      exact (plain c' listed).2
  constructor
  · intro w bound
    obtain ⟨stack, found, kind⟩ := staffed.working w bound
    rw [replaced.threads]
    by_cases same : thread = w
    · rw [if_pos same]
      refine ⟨_, rfl, ?_⟩
      rw [← same, replaced.found] at found
      rw [← Option.some.inj found] at kind
      cases kind with
      | inl empty =>
        obtain ⟨noOld, noBase⟩ := List.append_eq_nil_iff.mp empty.1
        have outside := control noOld
        unfold inProgram at outside
        rw [replaced.found, noOld, noBase] at outside
        exact absurd (of_decide_eq_true outside) (by omega)
      | inr works =>
        obtain ⟨c, works⟩ := works
        refine Or.inr ⟨c, works.replace (fun x inside => (library_plain (own x inside)).1) fresh ?_⟩
        intro empty _
        exact works.base_of_control replaced.found (control empty)
    · rw [if_neg same, initiated]
      exact ⟨stack, found, kind⟩
  · intro t stack found c inside critical
    rw [mutex]
    rw [replaced.threads] at found
    by_cases same : thread = t
    · rw [if_pos same] at found
      rw [← Option.some.inj found] at inside
      cases List.mem_append.mp inside with
      | inl new =>
        rw [harmless new] at critical
        cases critical
      | inr below =>
        rw [← same]
        exact staffed.owner thread _ replaced.found c (List.mem_append_right _ below) critical
    · rw [if_neg same] at found
      exact staffed.owner t stack found c inside critical
  · obtain ⟨rest, before, after⟩ := replaced.pending
    have count := staffed.exclusive
    rw [before, poolCode_add, poolCode_library own, zero_add] at count
    rw [after, poolCode_add, mutex, ← count, Stacks.count_add]
    have none : Stacks.count
        (poolCode ((code ++ next.map .external : List (Instr V ε PoolCode)) :
          Multiset (Instr V ε PoolCode)))
        PoolCode.isCritical = 0 := by
      apply Stacks.count_eq_zero.mpr
      intro c inside
      exact harmless (Multiset.mem_coe.mp (mem_poolCode.mp inside))
    rw [none, Nat.zero_add]
  · intro w asleep
    rw [sleeping] at asleep
    obtain ⟨bound, found⟩ := staffed.sleeping w asleep
    refine ⟨bound, ?_⟩
    rw [replaced.threads]
    by_cases same : thread = w
    · rw [← same, replaced.found] at found
      cases old with
      | nil =>
        have busy := control rfl
        have stack : base = [.external .waitFor] := Option.some.inj found
        unfold inProgram at busy
        rw [replaced.found, stack] at busy
        cases busy
      | cons x old =>
        have top := (List.cons.inj (Option.some.inj found)).1
        exact absurd top ((library_plain (own x List.mem_cons_self)).2 _)
    · rw [if_neg same]
      exact found
  · intro shut
    rw [initiated] at shut
    exact destroying (staffed.initiated shut)

/-- What one code of the pool goes on to. -/
theorem goes (staffed : σ.Staffed workers)
    (replaced : Replaced σ.runtime σ'.runtime thread [.external c] (code ++ next.map .external)
      base)
    (library : ∀ x ∈ code, x.code = none)
    (kind : ∀ c' ∈ next, c'.isWorker = c.isWorker)
    (loops : c.isWorker = true → thread < workers ∧
      ((∃ c', next = [c'] ∧ (code = [] ∨ c'.isBase = true)) ∨
        σ.pool.shutdownInitiated = true ∧ next = [] ∧ code = []))
    (mutex : σ.pool.MutexMove σ'.pool thread c next)
    (sleeping : c = .noTask ∧ next = [.waitFor] ∧
        σ'.pool.sleeping = insert thread σ.pool.sleeping ∨
      σ'.pool.sleeping ⊆ σ.pool.sleeping ∧ (c = .waitFor → thread ∉ σ'.pool.sleeping))
    (kept : σ.pool.shutdownInitiated = true → σ'.pool.shutdownInitiated = true)
    (initiated : σ'.pool.shutdownInitiated = true → σ'.pool.destroying = true) :
    σ'.Staffed workers := by
  have here := staffed.owner thread _ replaced.found c List.mem_cons_self
  have apart {c' : PoolCode} (inside : .external c' ∈ code) : False :=
    (library_plain (library _ inside)).2 c' rfl
  obtain ⟨rest, lower, before, after⟩ := replaced.pending_below
  have exclusive := staffed.exclusive
  rw [before, Stacks.coe_cons_add, Stacks.coe_nil_add, poolCode_cons, Stacks.count_cons]
    at exclusive
  constructor
  · intro w bound
    obtain ⟨stack, found, stands⟩ := staffed.working w bound
    rw [replaced.threads]
    by_cases same : thread = w
    · rw [if_pos same]
      refine ⟨_, rfl, ?_⟩
      rw [← same, replaced.found] at found
      rw [← Option.some.inj found] at stands
      obtain ⟨bottom, works⟩ := stands.resolve_left fun empty => by cases empty.1
      by_cases worker : c.isWorker = true
      · have noBase : base = [] := (works.alone worker).1
        cases (loops worker).2 with
        | inl one =>
          obtain ⟨c', single, lets⟩ := one
          right
          rw [single, noBase, List.append_nil]
          refine ⟨c', ?_, code, rfl, fun x inside => (library_plain (library x inside)).1, ?_⟩
          · rw [kind c' (by rw [single]; exact List.mem_cons_self)]
            exact worker
          · exact lets.resolve_left
        | inr leaves =>
          obtain ⟨shut, noNext, noCode⟩ := leaves
          left
          rw [noNext, noCode, noBase]
          exact ⟨rfl, kept shut⟩
      · right
        refine ⟨bottom, works.replace ?_ ?_ nofun⟩
        · intro x inside
          rw [List.mem_singleton.mp inside]
          exact Bool.eq_false_of_not_eq_true worker
        · intro x inside
          cases List.mem_append.mp inside with
          | inl early => exact (library_plain (library x early)).1
          | inr late =>
            obtain ⟨c', listed, same⟩ := List.mem_map.mp late
            rw [← same]
            exact (kind c' listed).trans (Bool.eq_false_of_not_eq_true worker)
    · rw [if_neg same]
      exact ⟨stack, found, stands.imp_left fun empty => ⟨empty.1, kept empty.2⟩⟩
  · intro t stack found c' inside critical
    rw [replaced.threads] at found
    by_cases same : thread = t
    · rw [if_pos same] at found
      rw [← Option.some.inj found] at inside
      rw [← same]
      cases List.mem_append.mp inside with
      | inl new =>
        have listed : c' ∈ next := by
          cases List.mem_append.mp new with
          | inl early => exact (apart early).elim
          | inr late =>
            obtain ⟨other, listed, same⟩ := List.mem_map.mp late
            rw [← Instr.external.inj same]
            exact listed
        have counted : 0 < next.countP PoolCode.isCritical :=
          List.countP_pos_iff.mpr ⟨c', listed, critical⟩
        cases mutex with
        | keeps same kind =>
          rw [same]
          apply here
          rw [kind] at counted
          cases is : c.isCritical with
          | true => rfl
          | false =>
            rw [is] at counted
            exact absurd counted (Nat.lt_irrefl 0)
        | locks _ owned => exact owned
        | unlocks _ _ outside => omega
      | inr below =>
        have owned := staffed.owner thread _ replaced.found c' (List.mem_cons_of_mem _ below)
          critical
        cases mutex with
        | keeps same => rw [same, owned]
        | locks free =>
          rw [free] at owned
          cases owned
        | unlocks _ critical' =>
          -- two codes in critical sections
          exfalso
          have more : 0 < Stacks.count (poolCode rest) PoolCode.isCritical :=
            Stacks.count_pos.mpr ⟨c', mem_poolCode.mpr (lower _ below), critical⟩
          rw [if_pos critical', owned] at exclusive
          simp only [Option.isSome_some, Bool.toNat_true] at exclusive
          omega
    · rw [if_neg same] at found
      have owned := staffed.owner t stack found c' inside critical
      cases mutex with
      | keeps same => rw [same, owned]
      | locks free =>
        rw [free] at owned
        cases owned
      | unlocks _ critical' =>
        rw [here critical'] at owned
        exact absurd (Option.some.inj owned) same
  · have come : poolCode ((code ++ next.map .external : List (Instr V ε PoolCode)) :
        Multiset (Instr V ε PoolCode)) = next := by
      rw [← Multiset.coe_add, poolCode_add, poolCode_library library, zero_add, poolCode_external]
    rw [after, poolCode_add, Stacks.count_add, come, Stacks.count_coe]
    cases mutex with
    | keeps same kind =>
      rw [kind, same, ← exclusive]
      cases c.isCritical with
      | true => exact Nat.add_comm _ _
      | false => exact Nat.add_comm _ _
    | locks free owned outside inside =>
      rw [free, outside] at exclusive
      rw [inside, owned]
      simp only [Option.isSome_none, Bool.toNat_false] at exclusive
      simp only [Option.isSome_some, Bool.toNat_true]
      omega
    | unlocks free inside outside =>
      rw [here inside, if_pos inside] at exclusive
      rw [outside, free]
      simp only [Option.isSome_some, Bool.toNat_true] at exclusive
      simp only [Option.isSome_none, Bool.toNat_false]
      omega
  · intro w asleep
    rw [replaced.threads]
    have stays (before : w ∈ σ.pool.sleeping) (other : thread ≠ w) : w < workers ∧
        (if thread = w then some (code ++ next.map .external ++ base)
          else σ.runtime.threads[w]?) = some [.external .waitFor] := by
      rw [if_neg other]
      exact staffed.sleeping w before
    cases sleeping with
    | inl falls =>
      obtain ⟨code_, next_, now⟩ := falls
      rw [now] at asleep
      by_cases same : thread = w
      · have worker : c.isWorker = true := by
          rw [code_]
          rfl
        obtain ⟨bound, one⟩ := loops worker
        have noCode : code = [] := by
          cases one with
          | inl one =>
            obtain ⟨c', single, lets⟩ := one
            rw [next_] at single
            rw [← (List.cons.inj single).1] at lets
            exact lets.resolve_right nofun
          | inr leaves => exact leaves.2.2
        obtain ⟨stack, found, stands⟩ := staffed.working thread bound
        rw [replaced.found] at found
        rw [← Option.some.inj found] at stands
        obtain ⟨bottom, works⟩ := stands.resolve_left fun empty => by cases empty.1
        have noBase : base = [] := (works.alone worker).1
        rw [← same, if_pos rfl, noCode, noBase, next_]
        exact ⟨bound, rfl⟩
      · cases Finset.mem_insert.mp asleep with
        | inl here => exact absurd here.symm same
        | inr before => exact stays before same
    | inr fewer =>
      obtain ⟨subset, wakes⟩ := fewer
      apply stays (subset asleep)
      intro same
      have found := (staffed.sleeping w (subset asleep)).2
      rw [← same, replaced.found] at found
      rw [same] at wakes
      exact wakes (Instr.external.inj (List.cons.inj (Option.some.inj found)).1) asleep
  · exact initiated

/-- A statement keeps the workers in order. -/
theorem statement (staffed : σ.Staffed workers) (ok : σ.Ok workers) {pool : Pool V ε} {woken : Nat}
    {api : Option (Api V ε)} (found : σ.runtime.threads[thread]? = some (.external c :: base))
    (ran : σ.pool.run σ.runtime.heap σ.finished workers thread woken c = some (pool, next, api))
    (performed : σ.perform thread true pool next api = some σ') : σ'.Staffed workers := by
  obtain ⟨code, replaced, same, begun⟩ := perform_statement found performed
  have did := Pool.run_did ran
  have spec := Pool.run_ran ran
  have noCall (none : api = none) : code = [] := by
    rw [none] at begun
    exact begun.2
  apply staffed.goes replaced begun.spares.library
  · intro c' listed
    obtain ⟨execute, destructor⟩ := spec.kind c' listed
    unfold PoolCode.isWorker
    rw [execute, destructor]
  · intro worker
    refine ⟨ok.worker_lt found List.mem_cons_self worker, ?_⟩
    cases did.worker worker with
    | inl one =>
      obtain ⟨c', single, _, lets⟩ := one
      exact Or.inl ⟨c', single, lets.imp_left noCall⟩
    | inr leaves =>
      obtain ⟨_, shut, noNext, none⟩ := leaves
      exact Or.inr ⟨shut, noNext, noCall none⟩
  · rw [same]
    exact did.mutex
  · rw [same]
    exact did.sleeping
  · rw [same]
    exact did.initiated_kept
  · intro shut
    rw [same] at shut ⊢
    rw [spec.destroying]
    cases did.initiated shut with
    | inl before => exact staffed.initiated before
    | inr destructor => exact ok.destroying_of_destructor found List.mem_cons_self destructor

/-- Every step keeps the workers in order. -/
theorem step (staffed : σ.Staffed workers) (ok : σ.Ok workers) {event : PoolEvent V ε}
    (taken : σ.step workers event = some σ') : σ'.Staffed workers := by
  cases ok.stepped taken with
  | @library event below thread old new base disciplined running same step reason =>
    have replaced : Replaced σ.runtime σ'.runtime thread old
        (new ++ ([] : List PoolCode).map .external) base := by
      rw [List.map_nil, List.append_nil]
      exact step.replaced
    apply staffed.enters replaced step.own step.spares.library (fun _ listed => by cases listed)
    · intro none
      cases reason with
      | run | ret => cases none
      | call _ control => exact control
    · rw [same]
    · rw [same]
    · rw [same]
    · rw [same]
      exact id
  | statement found ran performed => exact staffed.statement ok found ran performed
  | @funcReturn thread task base result found performed =>
    obtain ⟨code, replaced, same, begun⟩ := perform_statement found performed
    have assigned := ok.placed.assigned thread _ found _ List.mem_cons_self
    apply staffed.goes replaced begun.spares.library
    · intro c' listed
      rw [List.mem_singleton.mp listed]
      rfl
    · exact fun _ => ⟨assigned, Or.inl ⟨_, rfl, Or.inr rfl⟩⟩
    · rw [same]
      exact .keeps rfl rfl
    · rw [same]
      exact Or.inr ⟨Finset.Subset.refl _, nofun⟩
    · rw [same]
      exact id
    · rw [same]
      exact staffed.initiated
  | @execute thread base isVoid dependencies found control allowed performed =>
    obtain ⟨replaced, same, _⟩ := perform_entry found performed
    have nothing : ∀ x ∈ ([] : List (Instr V ε PoolCode)), x.code = none := nofun
    have entered : Replaced σ.runtime σ'.runtime thread []
        ([] ++ [PoolCode.execute isVoid dependencies].map .external) base := replaced
    apply staffed.enters entered nothing nothing
    · intro c listed
      rw [List.mem_singleton.mp listed]
      exact ⟨rfl, rfl⟩
    · exact fun _ => control
    · rw [same]
    · rw [same]
    · rw [same]
    · rw [same]
      exact id
  | @destroy thread base found control outside first idle performed =>
    obtain ⟨replaced, same, _⟩ := perform_entry found performed
    have nothing : ∀ x ∈ ([] : List (Instr V ε PoolCode)), x.code = none := nofun
    have entered : Replaced σ.runtime σ'.runtime thread []
        ([] ++ [PoolCode.shutdownNotifyThreads].map .external) base := replaced
    apply staffed.enters entered nothing nothing
    · intro c listed
      rw [List.mem_singleton.mp listed]
      exact ⟨rfl, rfl⟩
    · exact fun _ => control
    · rw [same]
    · rw [same]
    · rw [same]
    · rw [same]
      exact fun _ => rfl

end Staffed

/-- In every reachable configuration the workers are in order. -/
theorem staffed {workers : Nat} {σ : PoolConfig V ε}
    (reached : (poolSystem V ε workers).Reachable σ) : σ.Staffed workers := by
  induction reached with
  | start initial =>
    obtain ⟨outside, same⟩ := initial
    rw [same]
    constructor
    · intro w bound
      refine ⟨[.external .threadLoop], ?_, Or.inr ⟨.threadLoop, rfl, [], rfl, nofun, nofun⟩⟩
      change (List.replicate workers [Instr.external PoolCode.threadLoop] ++
        List.replicate outside [])[w]? = _
      rw [List.getElem?_append_left (by rw [List.length_replicate]; exact bound),
        List.getElem?_replicate, if_pos bound]
    · intro t stack found c inside critical
      have plain := start_code (mem_poolCode.mpr
        (Stacks.mem_pending.mpr ⟨stack, List.mem_of_getElem? found, inside⟩))
      rw [plain] at critical
      cases critical
    · apply Stacks.count_eq_zero.mpr
      intro c inside
      rw [start_code inside]
      rfl
    · intro w asleep
      cases asleep
    · intro shut
      cases shut
  | next reached stepped ih => exact ih.step (PoolConfig.ok reached) stepped

/-- A thread that runs the callable of a task has run it before, or has just called it. -/
theorem Stepped.func_cases {workers : Nat} {σ σ' : PoolConfig V ε} {event : PoolEvent V ε}
    (stepped : Stepped workers σ σ' event) {t : Nat} {stack : List (Instr V ε PoolCode)}
    {task : Task} (found : σ'.runtime.threads[t]? = some stack)
    (inside : .external (.func task) ∈ stack) :
    (∃ before, σ.runtime.threads[t]? = some before ∧ .external (.func task) ∈ before) ∨
      .external (.call task) ∈ σ.runtime.pending := by
  have changed {thread : Nat} {old new base : List (Instr V ε PoolCode)}
      (replaced : Replaced σ.runtime σ'.runtime thread old new base)
      (fresh : .external (.func task) ∈ new → .external (.call task) ∈ σ.runtime.pending) :
      (∃ before, σ.runtime.threads[t]? = some before ∧ .external (.func task) ∈ before) ∨
        .external (.call task) ∈ σ.runtime.pending := by
    rw [replaced.threads] at found
    by_cases same : thread = t
    · rw [if_pos same] at found
      rw [← Option.some.inj found] at inside
      cases List.mem_append.mp inside with
      | inl new => exact Or.inr (fresh new)
      | inr below =>
        rw [← same]
        exact Or.inl ⟨_, replaced.found, List.mem_append_right _ below⟩
    · rw [if_neg same] at found
      exact Or.inl ⟨stack, found, inside⟩
  have listed {code : List (Instr V ε PoolCode)} {next : List PoolCode}
      (library : ∀ x ∈ code, x.code = none)
      (new : .external (.func task) ∈ code ++ next.map .external) : .func task ∈ next := by
    cases List.mem_append.mp new with
    | inl early => cases library _ early
    | inr late =>
      obtain ⟨c, inside, same⟩ := List.mem_map.mp late
      rw [← Instr.external.inj same]
      exact inside
  cases stepped with
  | library disciplined running same step reason =>
    apply changed step.replaced
    intro new
    cases step.spares.library _ new
  | @statement thread woken c base pool next api found' ran performed =>
    obtain ⟨code, replaced, _, begun⟩ := perform_statement found' performed
    apply changed replaced
    intro new
    have calls := listed begun.spares.library new
    have pending : .external c ∈ σ.runtime.pending :=
      Stacks.mem_pending.mpr ⟨_, List.mem_of_getElem? found', List.mem_cons_self⟩
    cases Pool.run_did ran with
    | call =>
      rw [PoolCode.func.inj (List.mem_singleton.mp calls)]
      exact pending
    | getFuture | ends | cleared => cases calls
    | execute | whenAll | makeTask | emplaceBack | threadLoop | loop | scanned | takes | skips
    | unlock | relock | notifies | notified | release | leaves | sleeps | wakes | returns
    | shutdownNotifyThreads | joins | joined | clears => cases List.mem_singleton.mp calls
  | funcReturn found' performed =>
    obtain ⟨code, replaced, _, begun⟩ := perform_statement found' performed
    apply changed replaced
    intro new
    cases List.mem_singleton.mp (listed begun.spares.library new)
  | execute found' control allowed performed =>
    obtain ⟨replaced, _⟩ := perform_entry found' performed
    apply changed replaced
    intro new
    cases List.mem_singleton.mp new
  | destroy found' control outside first idle performed =>
    obtain ⟨replaced, _⟩ := perform_entry found' performed
    apply changed replaced
    intro new
    cases List.mem_singleton.mp new

end PoolConfig

end Azul.Async
