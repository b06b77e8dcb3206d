import Azul.Async.LockHolders
import Azul.Async.PoolAccounts
import Azul.Async.TaskResults

/-!
# A pool comes to rest

As long as a thread is neither done nor asleep, somebody can go on: the holder of `_mutex` always
can, as it is inside no callable and waits for nobody; when `_mutex` is free, a thread that is not
blocked can; and the destructor waits only for workers, which do not sleep after
`_shutdownInitiated`. As the steps are bounded, the pool comes to rest in whatever order the threads
go on, without any timeout of `wait_for`. A destructor that has begun has then returned, and every
future that the pool handed out is decided; and before a destructor begins, every task that waits
for tasks only has been executed.
-/

namespace Azul.Async

open Foundation

variable {V ε : Type}

/-! ## The shutdown -/

/-- The destructor has told the workers to stop. -/
def PoolCode.closes : PoolCode → Bool
  | .shutdownJoinThreads _ | .shutdownDestroyRemainingTasks => true
  | _ => false

section Statements

variable {pool pool' : Pool V ε} {h : Heap V ε} {finished : Nat → Bool}
  {workers thread woken : Nat} {c : PoolCode} {next : List PoolCode} {api : Option (Api V ε)}

/-- Nobody goes to sleep after the shutdown. -/
theorem Pool.Did.wakeful (did : pool.Did h workers thread woken c pool' next api)
    (awake : pool.shutdownInitiated = true → pool.sleeping = ∅)
    (shut : pool'.shutdownInitiated = true) : pool'.sleeping = ∅ := by
  cases did with
  | sleeps running =>
    rw [← Bool.not_eq_true] at running
    exact absurd shut running
  | shutdownNotifyThreads => rfl
  | emplaceBack | notifies | wakes =>
    change pool.sleeping.erase _ = ∅
    rw [awake shut]
    rfl
  | execute | whenAll | makeTask | getFuture | threadLoop | ends | loop | scanned | takes | skips
  | unlock | call | relock | notified | release | leaves | returns | joins | joined | clears
  | cleared => exact awake shut

/-- The destructor tells the workers to stop before it joins them. -/
theorem Pool.Did.closes (did : pool.Did h workers thread woken c pool' next api)
    (shut : c.closes = true → pool.shutdownInitiated = true) :
    ∀ c' ∈ next, c'.closes = true → pool'.shutdownInitiated = true := by
  have one {other c' : PoolCode} (plain : other.closes = false) (inside : c' ∈ [other])
      (closes : c'.closes = true) : pool'.shutdownInitiated = true := by
    rw [List.mem_singleton.mp inside, plain] at closes
    cases closes
  intro c' inside closes
  cases did with
  | getFuture | ends | cleared => cases inside
  | shutdownNotifyThreads => rfl
  | joins | joined | clears => exact shut rfl
  | execute | whenAll | makeTask | emplaceBack | threadLoop | loop | scanned | takes | skips
  | unlock | call | relock | notifies | notified | release | leaves | sleeps | wakes
  | returns => exact one rfl inside closes

/-- What a thread may have to wait for before it executes a statement. -/
def Pool.Waits (pool : Pool V ε) (finished : Nat → Bool) (workers thread : Nat) :
    PoolCode → Prop
  | .execute _ _ | .threadLoop | .relock _ | .shutdownNotifyThreads => pool.mutex ≠ none
  | .waitFor => thread ∈ pool.sleeping ∨ pool.mutex ≠ none
  | .shutdownJoinThreads index => index < workers ∧ finished index = false
  | _ => False

/-- Some thread can be notified, or nobody needs to be. -/
theorem Pool.notifyOne_enabled (pool : Pool V ε) :
    ∃ woken, (pool.notifyOne woken).isSome = true := by
  cases pool.sleeping.eq_empty_or_nonempty with
  | inl none => exact ⟨0, by simp [notifyOne, none]⟩
  | inr some =>
    obtain ⟨woken, asleep⟩ := some
    exact ⟨woken, by simp [notifyOne, asleep]⟩

/-- A statement that waits for nothing can be executed. -/
theorem Pool.run_enabled (goes : ¬ pool.Waits finished workers thread c)
    (mine : ∀ task, c ≠ .func task) :
    ∃ woken, (pool.run h finished workers thread woken c).isSome = true := by
  have locks (free : ¬ pool.mutex ≠ none) : (pool.lock thread).isSome = true := by
    simp [lock, not_not.mp free]
  cases c with
  | execute | threadLoop | relock | shutdownNotifyThreads =>
    exact ⟨0, by simpa only [run, Option.isSome_map] using locks goes⟩
  | emplaceBack task =>
    obtain ⟨woken, notified⟩ := pool.notifyOne_enabled
    exact ⟨woken, by simpa only [run, Option.isSome_map] using notified⟩
  | notify task index =>
    obtain ⟨woken, notified⟩ := pool.notifyOne_enabled
    refine ⟨woken, ?_⟩
    simp only [run]
    split
    · simpa only [Option.isSome_map] using notified
    · rfl
  | waitFor =>
    obtain ⟨awake, free⟩ := not_or.mp goes
    refine ⟨0, ?_⟩
    simp only [run, if_neg awake, Option.isSome_map]
    exact locks free
  | loop | noTask | shutdownDestroyRemainingTasks =>
    refine ⟨0, ?_⟩
    simp only [run]
    split <;> rfl
  | nextTask index =>
    refine ⟨0, ?_⟩
    simp only [run]
    split
    · rfl
    · split <;> rfl
  | shutdownJoinThreads index =>
    refine ⟨0, ?_⟩
    simp only [run]
    split
    case isTrue more =>
      have ended : finished index = true := by
        by_contra running
        exact goes ⟨more, Bool.eq_false_of_not_eq_true running⟩
      rw [if_pos ended]
      rfl
    case isFalse => rfl
  | func task => exact absurd rfl (mine task)
  | whenAll | makeTask | getFuture | unlock | call | release => exact ⟨0, rfl⟩

end Statements

namespace PoolConfig

variable {workers : Nat} {σ σ' : PoolConfig V ε} {event : PoolEvent V ε} {thread : Nat}
  {x : Instr V ε PoolCode} {base : List (Instr V ε PoolCode)} {c : PoolCode}

/-- After the shutdown nobody sleeps, and the destructor joins the workers only then. -/
structure Closing (σ : PoolConfig V ε) : Prop where
  awake : σ.pool.shutdownInitiated = true → σ.pool.sleeping = ∅
  shut : ∀ c ∈ poolCode σ.runtime.pending, c.closes = true → σ.pool.shutdownInitiated = true

/-- The invariant of the shutdown. -/
theorem closing (reached : (poolSystem V ε workers).Reachable σ) : σ.Closing := by
  apply reached.invariant
  · intro σ initial
    obtain ⟨outside, same⟩ := initial
    rw [same]
    refine ⟨fun _ => rfl, fun c pending closes => ?_⟩
    rw [start_code pending] at closes
    cases closes
  · intro σ event σ' old closing stepped
    have quiet {thread : Nat} {next : List PoolCode} {old code base : List (Instr V ε PoolCode)}
        (replaced : Replaced σ.runtime σ'.runtime thread old (code ++ next.map .external) base)
        (library : ∀ x ∈ code, x.code = none) (plain : ∀ c ∈ next, c.closes = false)
        (shut : σ'.pool.shutdownInitiated = σ.pool.shutdownInitiated)
        (sleeping : σ'.pool.sleeping = σ.pool.sleeping) : σ'.Closing := by
      refine ⟨fun initiated => ?_, fun c pending closes => ?_⟩
      · rw [sleeping]
        exact closing.awake (shut ▸ initiated)
      · rw [shut]
        obtain ⟨rest, before, after⟩ := replaced.pending
        rw [after, ← Multiset.coe_add, poolCode_add, poolCode_add, poolCode_library library,
          zero_add, poolCode_external] at pending
        cases Multiset.mem_add.mp pending with
        | inl new =>
          rw [plain c (Multiset.mem_coe.mp new)] at closes
          cases closes
        | inr still =>
          apply closing.shut c _ closes
          rw [before, poolCode_add]
          exact Multiset.mem_add.mpr (Or.inr still)
    cases (ok old).stepped stepped with
    | @library _ below thread old new base disciplined running same step reason =>
      refine ⟨by rw [same]; exact closing.awake, ?_⟩
      rw [step.codes, same]
      exact closing.shut
    | @statement thread woken c base pool next api found ran performed =>
      obtain ⟨code, replaced, same, begun⟩ := perform_statement found performed
      obtain ⟨rest, before, after⟩ := codes_replaced replaced begun.spares.library
      have did := Pool.run_did ran
      rw [← same] at did
      refine ⟨did.wakeful closing.awake, fun c' pending closes => ?_⟩
      have top : c ∈ poolCode σ.runtime.pending := by
        rw [before]
        exact Multiset.mem_cons_self c rest
      rw [after] at pending
      cases Multiset.mem_add.mp pending with
      | inl new => exact did.closes (closing.shut c top) c' (Multiset.mem_coe.mp new) closes
      | inr still =>
        apply did.initiated_kept
        apply closing.shut c' _ closes
        rw [before]
        exact Multiset.mem_cons_of_mem still
    | funcReturn found performed =>
      obtain ⟨code, replaced, same, begun⟩ := perform_statement found performed
      apply quiet replaced begun.spares.library
      · exact fun c inside => List.mem_singleton.mp inside ▸ rfl
      · rw [same]
      · rw [same]
    | @execute thread base isVoid dependencies found control allowed performed =>
      obtain ⟨replaced, same, -⟩ := perform_entry found performed
      have entered : Replaced σ.runtime σ'.runtime thread []
          ([] ++ [PoolCode.execute isVoid dependencies].map .external) base := replaced
      apply quiet entered (List.forall_mem_nil _)
      · exact fun c inside => List.mem_singleton.mp inside ▸ rfl
      · rw [same]
      · rw [same]
    | @destroy thread base found control outside first idle performed =>
      obtain ⟨replaced, same, -⟩ := perform_entry found performed
      have entered : Replaced σ.runtime σ'.runtime thread []
          ([] ++ [PoolCode.shutdownNotifyThreads].map .external) base := replaced
      apply quiet entered (List.forall_mem_nil _)
      · exact fun c inside => List.mem_singleton.mp inside ▸ rfl
      · rw [same]
      · rw [same]

/-! ## Who can go on -/

/-- What a thread waits for before it goes on. -/
def Waits (workers : Nat) (σ : PoolConfig V ε) (thread : Nat) : Instr V ε PoolCode → Prop
  | .external c => σ.pool.Waits σ.finished workers thread c
  | _ => False

/-- Nobody leaves a wait on `_condition` without having been notified. -/
def Patient (σ : PoolConfig V ε) (event : PoolEvent V ε) : Prop := σ.wakes event = false

instance (σ : PoolConfig V ε) (event : PoolEvent V ε) : Decidable (σ.Patient event) :=
  inferInstanceAs (Decidable (σ.wakes event = false))

/-- The library call of a statement can begin. -/
theorem Ok.begins (ok : σ.Ok workers) (confined : σ.Confined) {pool : Pool V ε}
    {next : List PoolCode} {woken : Nat} {api : Api V ε}
    (found : σ.runtime.threads[thread]? = some (.external c :: base))
    (did : σ.pool.Did σ.runtime.heap workers thread woken c pool next (some api)) :
    (σ.runtime.heap.begin (X := PoolCode) api).isSome = true ∧ ∃ c', next = [c'] := by
  have pending : c ∈ poolCode σ.runtime.pending := mem_poolCode.mpr
    (Stacks.mem_pending.mpr ⟨_, List.mem_of_getElem? found, List.mem_cons_self⟩)
  have promised {task : Task} (made : task ∈ σ.pool.made) :
      (σ.runtime.heap.begin (X := PoolCode)
        (.destroyPromise task.promise : Api V ε)).isSome = true := by
    simp only [Heap.begin, if_pos (ok.made_origin made)]
    rfl
  cases did with
  | @whenAll isVoid dependencies =>
    have known : ∀ s ∈ dependencies, s < σ.runtime.heap.next := fun s inside =>
      (confined s (Or.inr (Or.inr ⟨_, pending, inside⟩))).1
    refine ⟨?_, _, rfl⟩
    simp only [Heap.begin, if_pos known]
    rfl
  | makeTask => exact ⟨rfl, _, rfl⟩
  | @release task => exact ⟨promised (ok.ledger.held _ pending task .finished rfl).1, _, rfl⟩
  | @clears task rest queued =>
    exact ⟨promised (ok.ledger.queued task (queued ▸ List.mem_cons_self)).1, _, rfl⟩

/-- A statement can be replaced by what follows it, if the library call between them can begin. -/
theorem perform_enabled {pool : Pool V ε} {next : List PoolCode} {api : Option (Api V ε)}
    (found : σ.runtime.threads[thread]? = some (.external c :: base))
    (begins : ∀ call, api = some call →
      (σ.runtime.heap.begin (X := PoolCode) call).isSome = true ∧ ∃ c', next = [c']) :
    (σ.perform thread true pool next api).isSome = true := by
  have bound := (List.getElem?_eq_some_iff.mp found).1
  simp only [perform, Config.step, found, Option.bind_some, Option.isSome_map]
  cases api with
  | none => rfl
  | some call =>
    obtain ⟨begun, c', one⟩ := begins call rfl
    have now : (σ.runtime.update thread σ.runtime.heap
        (next.map .external ++ base)).threads[thread]? = some (.external c' :: base) := by
      rw [one]
      simp [Config.update, bound]
    simp only [now, Instr.userLevel, if_true, Option.isSome_map]
    exact begun

/-- A thread that waits for nothing can go on, or its callable can return. -/
theorem Ok.goes_on (ok : σ.Ok workers) (staffed : σ.Staffed workers) (confined : σ.Confined)
    (found : σ.runtime.threads[thread]? = some (x :: base))
    (goes : ¬ σ.Waits workers thread x) :
    ∃ event : PoolEvent V ε, event.continues = true ∧
      (((poolSystem V ε workers).under Patient).step σ event).isSome = true := by
  have enabled {event : PoolEvent V ε} (patient : σ.Patient event)
      (steps : (σ.step workers event).isSome = true) :
      (((poolSystem V ε workers).under Patient).step σ event).isSome = true := by
    simp only [System.under, if_pos patient]
    exact steps
  have awake {woken : Nat} (other : x ≠ .external .waitFor ∨ thread ∉ σ.pool.sleeping) :
      σ.Patient (.run thread woken) :=
    decide_eq_false (other.elim (fun plain => staffed.awake found plain) id)
  have typed : x.Typed σ.runtime.heap := (Config.ok ok.reached).inv.layout.typed x
    (Stacks.mem_pending.mpr ⟨_, List.mem_of_getElem? found, List.mem_cons_self⟩)
  rcases typed.executes with executes | ⟨d, returns⟩ | ⟨c, pool⟩
  · refine ⟨.run thread 0, rfl, enabled (awake (Or.inl ?_)) ?_⟩
    · intro same
      rw [same] at executes
      cases executes
    · cases x with
      | external c => cases executes
      | _ =>
        simp only [PoolConfig.step, found, Config.step, Option.isSome_map]
        exact executes
  · rw [returns] at found
    refine ⟨.ret thread (.error .null), rfl, enabled rfl ?_⟩
    simp only [PoolConfig.step, Config.step, found, Result.fits, if_true, Option.isSome_map]
    rfl
  · rw [pool] at found goes
    by_cases mine : ∃ task, c = .func task
    · obtain ⟨task, same⟩ := mine
      rw [same] at found
      have pending : PoolCode.func task ∈ poolCode σ.runtime.pending := mem_poolCode.mpr
        (Stacks.mem_pending.mpr ⟨_, List.mem_of_getElem? found, List.mem_cons_self⟩)
      have made := (ok.ledger.held _ pending task .running rfl).1
      refine ⟨.funcReturn thread (.error .null), rfl, enabled rfl ?_⟩
      simp only [PoolConfig.step, found]
      apply perform_enabled found
      intro call same
      rw [← Option.some.inj same]
      refine ⟨?_, _, rfl⟩
      simp only [Heap.begin, ok.made_origin made, Result.fits, and_self, if_true]
      rfl
    · push Not at mine
      obtain ⟨woken, runs⟩ := Pool.run_enabled (h := σ.runtime.heap) goes mine
      obtain ⟨⟨pool', next, api⟩, ran⟩ := Option.isSome_iff_exists.mp runs
      refine ⟨.run thread woken, rfl, enabled (awake ?_) ?_⟩
      · by_cases asleep : thread ∈ σ.pool.sleeping
        · left
          intro same
          rw [pool] at same
          rw [Instr.external.inj same] at goes
          exact goes (Or.inl asleep)
        · exact Or.inr asleep
      · simp only [PoolConfig.step, found, ran, Option.bind_some]
        apply perform_enabled found
        intro call same
        have did := Pool.run_did ran
        rw [same] at did
        exact ok.begins confined found did

/-- Nobody is about to do anything: `_mutex` is free, and every thread is done or asleep. -/
def Rests (σ : PoolConfig V ε) : Prop :=
  σ.pool.mutex = none ∧
    ∀ (thread : Nat) stack, σ.runtime.threads[thread]? = some stack → stack = [] ∨ σ.Blocked thread

/-- The pool in an environment that is patient. -/
abbrev resting (V ε : Type) (workers : Nat) : System (PoolConfig V ε) (PoolEvent V ε) :=
  (poolSystem V ε workers).under Patient

section Rest

variable (reached : ((poolSystem V ε workers).under Owns).Reachable σ)
  (none : ∀ event : PoolEvent V ε, event.continues = true →
    (resting V ε workers).step σ event = none)

include reached none

/-- Who cannot go on waits for something. -/
theorem Owns.waits (found : σ.runtime.threads[thread]? = some (x :: base)) :
    σ.Waits workers thread x := by
  obtain ⟨plain, confined, -⟩ := Owns.shielded reached
  by_contra goes
  obtain ⟨event, continues, enabled⟩ := (ok plain).goes_on (staffed plain) confined found goes
  rw [none event continues] at enabled
  cases enabled

/-- The holder of `_mutex` can always go on. -/
theorem Owns.free : σ.pool.mutex = .none := by
  obtain ⟨plain, -, shielded⟩ := Owns.shielded reached
  by_contra held
  obtain ⟨thread, holds⟩ := Option.ne_none_iff_exists'.mp held
  obtain ⟨stack, found, locked⟩ := (staffed plain).locked holds
  cases stack with
  | nil => exact locked (fun c inside => absurd inside List.not_mem_nil)
  | cons x base =>
    have waits := Owns.waits reached none found
    cases x with
    | external c =>
      cases critical : c.isCritical with
      | true =>
        cases c with
        | whenAll | makeTask | emplaceBack | getFuture | loop | nextTask | unlock | notify
        | release | noTask => exact waits
        | _ => cases critical
      | false =>
        have calm := shielded.calm found locked fun c' same => by
          rw [← Instr.external.inj same]
          exact critical
        exact absurd rfl (calm.library.1 c)
    | _ => exact waits

/-- A configuration in which nobody can go on is at rest. -/
theorem Owns.rests : σ.Rests := by
  obtain ⟨plain, -, -⟩ := Owns.shielded reached
  have free := Owns.free reached none
  refine ⟨free, fun thread stack found => ?_⟩
  cases stack with
  | nil => exact Or.inl rfl
  | cons x base =>
    right
    have waits := Owns.waits reached none found
    cases x with
    | external c =>
      cases c with
      | execute | threadLoop | relock | shutdownNotifyThreads => exact absurd free waits
      | waitFor =>
        have asleep := waits.resolve_right fun held => held free
        exact ⟨((staffed plain).sleeping thread asleep).2, asleep⟩
      | shutdownJoinThreads index =>
        exfalso
        obtain ⟨bound, running⟩ := waits
        have pending : PoolCode.shutdownJoinThreads index ∈ poolCode σ.runtime.pending :=
          mem_poolCode.mpr (Stacks.mem_pending.mpr
            ⟨_, List.mem_of_getElem? found, List.mem_cons_self⟩)
        have awake := (closing plain).awake ((closing plain).shut _ pending rfl)
        -- the worker that the destructor joins is not asleep, so it would have to wait for another
        obtain ⟨stack, worker, -⟩ := (staffed plain).working index bound
        cases stack with
        | nil =>
          rw [finished_iff.mpr worker] at running
          cases running
        | cons y above =>
          have blocks := Owns.waits reached none worker
          cases y with
          | external c =>
            cases c with
            | execute | threadLoop | relock | shutdownNotifyThreads => exact blocks free
            | waitFor =>
              have asleep := blocks.resolve_right fun held => held free
              rw [awake] at asleep
              exact Finset.notMem_empty _ asleep
            | shutdownJoinThreads other =>
              have assigned := (ok plain).placed.assigned index _ worker _ List.mem_cons_self
              have outside : workers ≤ index := assigned
              omega
            | _ => exact blocks
          | _ => exact blocks
      | _ => exact waits.elim
    | _ => exact waits.elim

end Rest

namespace Rests

variable {task : Task}

/-- Only waits on `_condition` are pending. -/
theorem waits (rest : σ.Rests) (pending : x ∈ σ.runtime.pending) : x = .external .waitFor := by
  obtain ⟨stack, member, inside⟩ := Stacks.mem_pending.mp pending
  obtain ⟨thread, found⟩ := List.getElem?_of_mem member
  cases rest.2 thread stack found with
  | inl empty =>
    rw [empty] at inside
    cases inside
  | inr blocked =>
    have alone := blocked.1
    rw [found] at alone
    rw [Option.some.inj alone] at inside
    exact List.mem_singleton.mp inside

theorem code (rest : σ.Rests) (pending : c ∈ poolCode σ.runtime.pending) : c = .waitFor :=
  Instr.external.inj (rest.waits (mem_poolCode.mp pending))

/-- The destructor has returned, if there is one. -/
theorem destroyed (rest : σ.Rests) (ok : σ.Ok workers) (destroying : σ.pool.destroying = true) :
    σ.pool.destroyed = true := by
  have balance := ok.placed.destructor
  have left : Stacks.count (poolCode σ.runtime.pending) PoolCode.isDestructor = 0 := by
    apply Stacks.count_eq_zero.mpr
    intro c pending
    rw [rest.code pending]
    rfl
  rw [left, destroying, Nat.zero_add] at balance
  cases gone : σ.pool.destroyed with
  | true => rfl
  | false =>
    rw [gone] at balance
    cases balance

/-- After the destructor every thread is done. -/
theorem done (rest : σ.Rests) (ok : σ.Ok workers) (staffed : σ.Staffed workers)
    (gone : σ.pool.destroyed = true) : ∀ stack ∈ σ.runtime.threads, stack = [] := by
  intro stack member
  obtain ⟨thread, found⟩ := List.getElem?_of_mem member
  apply (rest.2 thread stack found).resolve_right
  intro blocked
  obtain ⟨waits, asleep⟩ := blocked
  have ended := (ok.placed.destroyed gone).2 thread (staffed.sleeping thread asleep).1
  rw [finished_iff.mp ended] at waits
  cases waits

/-- Before the destructor every worker sleeps. -/
theorem asleep (rest : σ.Rests) (staffed : σ.Staffed workers) (running : σ.pool.destroying = false)
    {w : Nat} (bound : w < workers) : σ.Blocked w := by
  obtain ⟨stack, found, works⟩ := staffed.working w bound
  apply (rest.2 w stack found).resolve_left
  intro empty
  rcases works with ⟨-, initiated⟩ | ⟨c, -, above, same, -⟩
  · rw [staffed.initiated initiated] at running
    cases running
  · rw [empty] at same
    exact List.append_ne_nil_of_right_ne_nil above (List.cons_ne_nil _ _) same.symm

/-- A task that is no longer queued has been executed, if there is a worker and no destructor. -/
theorem executed (rest : σ.Rests) (reached : (poolSystem V ε workers).Reachable σ)
    (positive : 0 < workers) (running : σ.pool.destroying = false) (made : task ∈ σ.pool.made)
    (unqueued : task ∉ σ.pool.tasks) :
    σ.pool.invocations task.promise = 1 ∧ ∃ result, σ.pool.results task.promise = some result ∧
      σ.runtime.heap.outcome task.promise = some result.outcome := by
  have good := ok reached
  have gone : σ.runtime.heap.destroyed task.promise = true := by
    rcases good.ledger.place_cases made with queued | ⟨c, pending, stage, holding⟩ | gone
    · exact absurd queued unqueued
    · rw [rest.code pending] at holding
      cases holding
    · exact gone
  have finished := (good.ledger.ended task made gone).resolve_left fun fresh => by
    have ended := uncalled_finished reached made gone fresh.invocations positive
    obtain ⟨waits, -⟩ := rest.asleep (staffed reached) running positive
    rw [finished_iff.mp ended] at waits
    cases waits
  obtain ⟨result, returned, received⟩ := finished.received
  refine ⟨finished.invocations, result, returned, completed reached made returned ?_⟩
  have decisions := (Config.ok good.reached).inv.decisions
  have retired := (Heap.retired_promise (good.made_origin made)).mpr gone
  cases decisions.retired task.promise retired with
  | inl breaking => cases rest.waits breaking
  | inr decided => exact decided.1

end Rests

/-- A patient run that goes on is short, and stays within what the program may do. -/
theorem Owns.goes_on {last : PoolConfig V ε} {events : List (PoolEvent V ε)}
    (reached : ((poolSystem V ε workers).under Owns).Reachable σ)
    (only : ∀ event ∈ events, event.continues = true)
    (replayed : (resting V ε workers).replay σ events = some last) :
    ((poolSystem V ε workers).under Owns).Reachable last ∧
      events.length ≤ σ.work workers σ.size := by
  obtain ⟨plain, -, -⟩ := Owns.shielded reached
  have run := System.replay_of_under replayed
  have owns (state : PoolConfig V ε) (event : PoolEvent V ε) (inside : event ∈ events) :
      state.Owns event := by
    have continues := only event inside
    intro s listed
    cases event with
    | run | ret | funcReturn => cases listed
    | call | execute | destroy => cases continues
  refine ⟨reached.replay (System.replay_under owns run), ?_⟩
  have pays := replay_pays plain run
  have all : events.countP PoolEvent.continues = events.length := List.countP_eq_length.mpr only
  have free : (poolSystem V ε workers).total (charge workers last.size) σ events = 0 := by
    rw [System.total_of_under replayed]
    apply System.total_free _ replayed
    intro state event inside enabled
    obtain ⟨after, stepped⟩ := Option.isSome_iff_exists.mp enabled
    have patient : state.wakes event = false := (System.under_step.mp stepped).1
    have continues := only event inside
    unfold charge
    rw [patient, Bool.toNat_false, Nat.zero_mul]
    cases event with
    | run | ret | funcReturn => rfl
    | call | execute | destroy => cases continues
  rw [all, free, size_kept plain only run] at pays
  omega

/-- Only the program enters the destructor. -/
theorem Owns.destroying_kept {last : PoolConfig V ε} {events : List (PoolEvent V ε)}
    (reached : ((poolSystem V ε workers).under Owns).Reachable σ)
    (only : ∀ event ∈ events, event.continues = true)
    (replayed : (resting V ε workers).replay σ events = some last) :
    last.pool.destroying = σ.pool.destroying := by
  apply (Owns.shielded reached).1.replay_keeps (fun state => state.pool.destroying) _ only
    (System.replay_of_under replayed)
  intro state event after old continues stepped
  cases (ok old).stepped stepped with
  | library disciplined running same step reason => rw [same]
  | statement found ran performed =>
    obtain ⟨code, -, same, -⟩ := perform_statement found performed
    rw [same, (Pool.run_ran ran).destroying]
  | funcReturn found performed =>
    obtain ⟨code, -, same, -⟩ := perform_statement found performed
    rw [same]
  | execute | destroy => cases continues

/-- The program hands out futures that it was handed, and calls `Execute` with futures of tasks. -/
def Delegates (σ : PoolConfig V ε) (event : PoolEvent V ε) : Prop :=
  σ.Owns event ∧ σ.Submits event

instance (σ : PoolConfig V ε) (event : PoolEvent V ε) : Decidable (σ.Delegates event) :=
  inferInstanceAs (Decidable (_ ∧ _))

/-- When tasks wait for tasks only, workers come to every task that is ready. -/
theorem Submits.vigilant (positive : 0 < workers)
    (reached : ((poolSystem V ε workers).under Submits).Reachable σ) :
    σ.pool.destroying = false → σ.Vigilant workers := by
  apply reached.invariant
  · intro σ initial
    obtain ⟨outside, same⟩ := initial
    rw [same]
    exact fun _ => Vigilant.start outside
  · intro σ event σ' before vigilant stepped running
    obtain ⟨plain, ordered⟩ := PoolConfig.ordered before
    obtain ⟨-, taken⟩ := System.under_step.mp stepped
    exact (vigilant (((ok plain).stepped taken).running_before running)).step (ok plain)
      (staffed plain) positive (ordered.noticed (ok plain) event) taken running

end PoolConfig

section Results

variable {workers : Nat} {σ : PoolConfig V ε}

/-- When the program makes no further call, its callables return, and nobody leaves a wait on
`_condition` without a notification, the threads make a bounded number of steps in whatever order
they go on, and they can go on until `_mutex` is free and every thread is done or asleep. -/
theorem pool_rests (reached : ((poolSystem V ε workers).under PoolConfig.Owns).Reachable σ) :
    (PoolConfig.resting V ε workers).Settles (fun event => event.continues = true)
      (σ.work workers σ.size) PoolConfig.Rests σ := by
  intro events last only replayed
  obtain ⟨still, short⟩ := PoolConfig.Owns.goes_on reached only replayed
  exact ⟨short, PoolConfig.Owns.rests still⟩

/-- A task runs and another one waits for it; the program goes on, or destroys the pool. -/
theorem dependentRun_delegates :
    (((poolSystem Nat String 1).under PoolConfig.Delegates).replay (PoolConfig.start 1 1)
      dependentRun).isSome = true := by
  decide +kernel

theorem dependentRun_destroyed :
    (((poolSystem Nat String 1).under PoolConfig.Owns).replay (PoolConfig.start 1 1)
      (dependentRun ++ [.destroy 1])).isSome = true := by
  decide +kernel

/-- The worker and the destructor are still going on, and come to rest. -/
theorem pool_rests_dependent :
    let entered := (((poolSystem Nat String 1).under PoolConfig.Owns).replay
      (PoolConfig.start 1 1) (dependentRun ++ [.destroy 1])).get dependentRun_destroyed
    ∃ events last, (∀ event ∈ events, event.continues = true) ∧
      (PoolConfig.resting Nat String 1).replay entered events = some last ∧ last.Rests := by
  intro entered
  have initial : ((poolSystem Nat String 1).under PoolConfig.Owns).initial
      (PoolConfig.start 1 1) := ⟨1, rfl⟩
  exact (pool_rests (System.Reachable.of_replay initial dependentRun_destroyed)).reaches

/-- A destructor that has been entered returns, whatever is queued or running, if callables return:
all workers have finished, and the future of every task is decided. -/
theorem destructor_returns (reached : ((poolSystem V ε workers).under PoolConfig.Owns).Reachable σ)
    (destroying : σ.pool.destroying = true) :
    (PoolConfig.resting V ε workers).Settles (fun event => event.continues = true)
      (σ.work workers σ.size)
      (fun last => last.pool.destroyed = true ∧ (∀ stack ∈ last.runtime.threads, stack = []) ∧
        ∀ task ∈ last.pool.made, last.runtime.heap.Decided task.promise) σ := by
  intro events last only replayed
  obtain ⟨still, short⟩ := PoolConfig.Owns.goes_on reached only replayed
  refine ⟨short, fun none => ?_⟩
  obtain ⟨plain, -, -⟩ := PoolConfig.Owns.shielded still
  have rest := PoolConfig.Owns.rests still none
  have entered : last.pool.destroying = true := by
    rw [PoolConfig.Owns.destroying_kept reached only replayed, destroying]
  have gone := rest.destroyed (PoolConfig.ok plain) entered
  exact ⟨gone, rest.done (PoolConfig.ok plain) (PoolConfig.staffed plain) gone,
    fun task made => ((PoolConfig.ok plain).accounted gone made).1⟩

/-- Both futures are decided when the destructor returns. -/
theorem destructor_returns_dependent :
    let entered := (((poolSystem Nat String 1).under PoolConfig.Owns).replay
      (PoolConfig.start 1 1) (dependentRun ++ [.destroy 1])).get dependentRun_destroyed
    entered.pool.made.length = 2 ∧
      ∃ events last, (∀ event ∈ events, event.continues = true) ∧
        (PoolConfig.resting Nat String 1).replay entered events = some last ∧
        last.pool.destroyed = true ∧ (∀ stack ∈ last.runtime.threads, stack = []) ∧
        ∀ task ∈ last.pool.made, last.runtime.heap.Decided task.promise := by
  intro entered
  have initial : ((poolSystem Nat String 1).under PoolConfig.Owns).initial
      (PoolConfig.start 1 1) := ⟨1, rfl⟩
  exact ⟨by decide +kernel, (destructor_returns
    (System.Reachable.of_replay initial dependentRun_destroyed) (by decide +kernel)).reaches⟩

/-- With a worker, and tasks that wait for tasks only, all tasks are executed before the pool comes
to rest: the callable of each was invoked once, and its future holds the result. No timeout of
`wait_for` is needed for that. -/
theorem tasks_executed (positive : 0 < workers)
    (reached : ((poolSystem V ε workers).under PoolConfig.Delegates).Reachable σ)
    (running : σ.pool.destroying = false) :
    (PoolConfig.resting V ε workers).Settles (fun event => event.continues = true)
      (σ.work workers σ.size)
      (fun last => last.pool.tasks = [] ∧ ∀ task ∈ last.pool.made,
        last.pool.invocations task.promise = 1 ∧
          ∃ result, last.pool.results task.promise = some result ∧
            last.runtime.heap.outcome task.promise = some result.outcome) σ := by
  intro events last only replayed
  have owns := reached.under_weaker (fun _ _ delegates => delegates.1)
  have submits := reached.under_weaker (fun _ _ delegates => delegates.2)
  obtain ⟨still, short⟩ := PoolConfig.Owns.goes_on owns only replayed
  refine ⟨short, fun none => ?_⟩
  have rest := PoolConfig.Owns.rests still none
  have before : last.pool.destroying = false := by
    rw [PoolConfig.Owns.destroying_kept owns only replayed, running]
  have submitted (state : PoolConfig V ε) (event : PoolEvent V ε) (inside : event ∈ events) :
      state.Submits event := by
    have continues := only event inside
    cases event with
    | execute => cases continues
    | _ => trivial
  have later := submits.replay (System.replay_under submitted (System.replay_of_under replayed))
  obtain ⟨plain, ordered⟩ := PoolConfig.ordered later
  have empty : last.pool.tasks = [] :=
    ordered.asleep_empty (PoolConfig.ok plain) before
      (fun w bound => rest.asleep (PoolConfig.staffed plain) before bound)
      (PoolConfig.Submits.vigilant positive later before)
  refine ⟨empty, fun task made => rest.executed plain positive before made ?_⟩
  rw [empty]
  exact List.not_mem_nil

/-- The second task is executed after the first. -/
theorem tasks_executed_dependent :
    let submitted := (((poolSystem Nat String 1).under PoolConfig.Delegates).replay
      (PoolConfig.start 1 1) dependentRun).get dependentRun_delegates
    submitted.pool.tasks.length = 1 ∧
      ∃ events last, (∀ event ∈ events, event.continues = true) ∧
        (PoolConfig.resting Nat String 1).replay submitted events = some last ∧
        last.pool.tasks = [] ∧ ∀ task ∈ last.pool.made,
          last.pool.invocations task.promise = 1 ∧
            ∃ result, last.pool.results task.promise = some result ∧
              last.runtime.heap.outcome task.promise = some result.outcome := by
  intro submitted
  have initial : ((poolSystem Nat String 1).under PoolConfig.Delegates).initial
      (PoolConfig.start 1 1) := ⟨1, rfl⟩
  exact ⟨by decide +kernel, (tasks_executed Nat.one_pos
    (System.Reachable.of_replay initial dependentRun_delegates) (by decide +kernel)).reaches⟩

end Results

end Azul.Async
