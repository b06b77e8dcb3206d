import Azul.Async.RuntimeSteps
import Azul.Async.TaskLedger

/-!
# The steps of a pool

What one step of a program with a pool does to the runtime and to the tasks. The library leaves the
promises of tasks alone except for the calls that the pool makes; a statement of the pool replaces
itself on its thread, and moves at most one task.
-/

namespace Azul.Async

open Foundation

variable {V ε : Type}

/-! ## The library and the promises of tasks -/

/-- What the library does on behalf of others leaves promises alone. -/
structure Spares (h h' : Heap V ε) (spared : StateId → Prop) (old new : List (Instr V ε PoolCode)) :
    Prop where
  destroyed : ∀ s, spared s → h'.destroyed s = h.destroyed s
  received : ∀ s, spared s → h'.received s = h.received s
  completes : ∀ y ∈ new, ∀ s, spared s → y.completes s = true → ∃ x ∈ old, x.completes s = true
  breaks : ∀ s, spared s → .aboutToDestroyPromise s ∉ new
  library : ∀ y ∈ new, y.code = none

/-- The instruction neither completes nor breaks a promise, and is none of the pool's. -/
def Instr.isQuiet : Instr V ε PoolCode → Bool
  | .setValue _ _ | .resolve _ _ | .setException _ _ | .walk _ _ | .aboutToDestroyPromise _
  | .external _ => false
  | _ => true

section Spares

variable {h h' : Heap V ε} {x : Instr V ε PoolCode} {new : List (Instr V ε PoolCode)}

/-- A step that hands over nothing and ends no promise spares all of them. -/
theorem Spares.of_same {spared : StateId → Prop} {old : List (Instr V ε PoolCode)}
    (destroyed : h'.destroyed = h.destroyed) (received : h'.received = h.received)
    (completes : ∀ y ∈ new, ∀ s, spared s → y.completes s = true → ∃ x ∈ old, x.completes s = true)
    (breaks : ∀ s, spared s → .aboutToDestroyPromise s ∉ new) (library : ∀ y ∈ new, y.code = none) :
    Spares h h' spared old new :=
  ⟨fun _ _ => congrFun destroyed _, fun _ _ => congrFun received _, completes, breaks, library⟩

/-- So does a step that hands over quiet code only. -/
theorem Spares.of_quiet {spared : StateId → Prop} {old : List (Instr V ε PoolCode)}
    (destroyed : h'.destroyed = h.destroyed) (received : h'.received = h.received)
    (quiet : ∀ y ∈ new, y.isQuiet = true) : Spares h h' spared old new := by
  refine .of_same destroyed received ?_ ?_ ?_
  · intro y inside s _ completes
    have silent := quiet y inside
    cases y <;> first | cases completes | cases silent
  · intro s _ inside
    cases quiet _ inside
  · intro y inside
    have silent := quiet y inside
    cases y <;> first | rfl | cases silent

/-- And so does a step of a completing call that also hands over code of the same call. -/
theorem Spares.of_call {spared : StateId → Prop} {t : StateId}
    (destroyed : h'.destroyed = h.destroyed) (received : h'.received = h.received)
    (call : x.completes t = true)
    (goesOn : ∀ y ∈ new, y.isQuiet = true ∨ ∀ s, y.completes s = (t == s)) :
    Spares h h' spared [x] new := by
  refine .of_same destroyed received ?_ ?_ ?_
  · intro y inside s _ completes
    refine ⟨x, List.mem_singleton_self x, ?_⟩
    cases goesOn y inside with
    | inl silent => cases y <;> first | cases completes | cases silent
    | inr same =>
      rw [same, beq_iff_eq] at completes
      rw [← completes]
      exact call
  · intro s _ inside
    cases goesOn _ inside with
    | inl silent => cases silent
    | inr same => cases (same t).trans (beq_self_eq_true t)
  · intro y inside
    cases goesOn y inside with
    | inl silent => cases y <;> first | rfl | cases silent
    | inr same =>
      have loud := (same t).trans (beq_self_eq_true t)
      cases y <;> first | rfl | cases loud

/-- A promise is not derived. -/
theorem Heap.Derived.ne_promise {d s : StateId} (derived : h.Derived d)
    (promise : h.origin s = some .promise) : s ≠ d := by
  rintro rfl
  obtain ⟨antecedent, callable, made⟩ := derived
  cases promise.symm.trans made

/-- Executing an instruction leaves promises alone, except that a completing call goes on. -/
theorem execute_spares {P : Multiset (Instr V ε PoolCode)} (layout : Layout h P)
    (typed : x.Typed h) (executed : execute h x = some (h', new)) :
    Spares h h' (fun s => h.origin s = some .promise) [x] new := by
  cases x with
  | setValue t value =>
    rcases Heap.setValue_cases typed.1 with ⟨-, set⟩ | ⟨-, set⟩ | ⟨-, set⟩
    all_goals
      simp only [execute, set] at executed
      cases executed
    · exact .of_call rfl rfl (beq_self_eq_true t)
        (List.forall_mem_singleton.mpr (Or.inr fun _ => rfl))
    · exact .of_quiet rfl rfl (List.forall_mem_nil _)
    · exact .of_quiet rfl rfl (List.forall_mem_nil _)
  | resolve t value =>
    rcases Heap.setValue_cases typed.1 with ⟨-, set⟩ | ⟨-, set⟩ | ⟨-, set⟩
    all_goals
      simp only [execute, set] at executed
      cases executed
    · exact .of_call rfl rfl (beq_self_eq_true t)
        (List.forall_mem_singleton.mpr (Or.inr fun _ => rfl))
    · exact .of_quiet rfl rfl (List.forall_mem_nil _)
    · exact .of_call rfl rfl (beq_self_eq_true t)
        (List.forall_mem_singleton.mpr (Or.inr fun _ => rfl))
  | setException t error =>
    cases executed
    exact .of_call rfl rfl (beq_self_eq_true t)
      (List.forall_mem_singleton.mpr (Or.inr fun _ => rfl))
  | aboutToDestroyPromise t =>
    cases executed
    exact .of_quiet rfl rfl (List.forall_mem_singleton.mpr rfl)
  | walk t index =>
    simp only [execute] at executed
    split at executed
    all_goals cases executed
    · exact .of_quiet rfl rfl (List.forall_mem_nil _)
    · exact .of_call rfl rfl (beq_self_eq_true t)
        (List.forall_mem_cons.mpr ⟨Or.inl rfl, List.forall_mem_singleton.mpr (Or.inr fun _ => rfl)⟩)
  | clear t =>
    simp only [execute] at executed
    split at executed
    all_goals
      cases executed
      exact .of_quiet rfl rfl (by simp [Instr.isQuiet])
  | invoke d copy =>
    have received (s : StateId) (promise : h.origin s = some .promise) :
        ((h.countInvocation d).receive d (.ok .void)).received s = h.received s :=
      Function.update_of_ne (typed.2.ne_promise promise) _ _
    have other (s : StateId) (promise : h.origin s = some .promise) : d ≠ s :=
      (typed.2.ne_promise promise).symm
    simp only [execute] at executed
    split at executed
    · cases executed
      exact .of_quiet rfl rfl (by simp [Instr.isQuiet])
    · cases executed
      refine ⟨fun _ _ => rfl, received, ?_, by simp, by simp [Instr.code]⟩
      intro y inside s promise completes
      simp only [List.mem_cons, List.not_mem_nil, or_false] at inside
      rcases inside with rfl | rfl
      · cases completes
      · simp [Instr.completes, other s promise] at completes
    case h_3 a any made =>
      cases executed
      obtain ⟨-, ⟨inputs, combinator, -⟩, -⟩ := layout.originOk made
      refine ⟨fun _ _ => rfl, received, ?_, by simp, by simp [Instr.code]⟩
      intro y inside s promise completes
      simp only [List.mem_cons, List.not_mem_nil, or_false] at inside
      rcases inside with rfl | rfl
      · simp only [Instr.completes, beq_iff_eq] at completes
        subst completes
        cases promise.symm.trans combinator
      · simp [Instr.completes, other s promise] at completes
    · cases executed
  | inCallable d => cases executed
  | destroyClosure d copy =>
    cases executed
    -- the last copy of a closure ends the promise of the closure, which is derived
    refine .of_same rfl rfl (fun y inside s promise completes => ?_) (fun s promise inside => ?_)
      fun y inside => ?_
    · rcases mem_dropped inside with ⟨-, rfl⟩ | ⟨_, _, -, rfl⟩ <;> cases completes
    · rcases mem_dropped inside with ⟨-, same⟩ | ⟨_, _, -, clash⟩
      · cases same
        exact typed.ne_promise promise rfl
      · cases clash
    · rcases mem_dropped inside with ⟨-, rfl⟩ | ⟨_, _, -, rfl⟩ <;> rfl
  | thenFunc t callable =>
    cases executed
    exact .of_quiet rfl rfl (by simp [Instr.thenCode, Instr.isQuiet])
  | registerThen d =>
    simp only [execute] at executed
    split at executed
    · split at executed
      all_goals
        cases executed
        exact .of_quiet rfl rfl (by simp [Instr.isQuiet])
    · cases executed
  | releaseActivator all owner =>
    obtain ⟨⟨inputs, made⟩, -⟩ := typed
    cases executed
    split
    · refine .of_same rfl rfl (fun y inside s promise completes => ?_) (by simp)
        (by simp [Instr.code])
      obtain rfl := List.mem_singleton.mp inside
      simp only [Instr.completes, beq_iff_eq] at completes
      subst completes
      cases promise.symm.trans made
    · exact .of_quiet rfl rfl (List.forall_mem_nil _)
  | external c => cases executed

/-- A call of the library leaves the promises alone that it is not about. -/
theorem begin_spares {api : Api V ε} (begun : h.begin api = some (h', new)) :
    Spares h h' (fun s => s ∉ api.promise) [] new := by
  have other {t s : StateId} (apart : s ∉ some t) : s ≠ t := by
    rintro rfl
    exact apart rfl
  cases api with
  | newPromise isVoid =>
    cases begun
    exact .of_quiet rfl rfl (List.forall_mem_nil _)
  | complete t result =>
    obtain ⟨-, made⟩ := Option.ite_none_right_eq_some.mp begun
    cases result <;> cases made
    all_goals
      refine ⟨fun _ _ => rfl, fun s apart => Function.update_of_ne (other apart) _ _, ?_, by simp,
        by simp [Instr.code]⟩
      intro y inside s apart completes
      obtain rfl := List.mem_singleton.mp inside
      simp [Instr.completes, (other apart).symm] at completes
  | destroyPromise t =>
    obtain ⟨-, made⟩ := Option.ite_none_right_eq_some.mp begun
    cases made
    refine ⟨fun s apart => Function.update_of_ne (other apart) _ _, fun _ _ => rfl,
      by simp [Instr.completes], fun s apart inside => ?_, by simp [Instr.code]⟩
    cases List.mem_singleton.mp inside
    exact apart rfl
  | «then» t isVoid =>
    obtain ⟨-, made⟩ := Option.ite_none_right_eq_some.mp begun
    cases made
    exact .of_quiet rfl rfl (by simp [Instr.thenCode, Instr.isQuiet])
  | whenAll inputs =>
    obtain ⟨-, made⟩ := Option.ite_none_right_eq_some.mp begun
    cases made
    refine .of_quiet rfl rfl ?_
    intro y inside
    simp only [List.mem_append, List.mem_map, List.mem_cons, List.not_mem_nil, or_false] at inside
    rcases inside with ⟨s, -, same⟩ | same | same
    · rw [← same]
      rfl
    all_goals
      rw [same]
      rfl
  | whenAny inputs =>
    obtain ⟨-, made⟩ := Option.ite_none_right_eq_some.mp begun
    cases made
    refine .of_quiet rfl rfl ?_
    intro y inside
    obtain ⟨s, -, same⟩ := List.mem_map.mp inside
    rw [← same]
    rfl

/-- The end of a callable that `Then` attached leaves promises alone. -/
theorem ret_spares {d : StateId} {result : Result V ε} {y : Instr V ε PoolCode}
    (typed : (Instr.inCallable d : Instr V ε PoolCode).Typed h)
    (decision : y.decision = some (d, result)) :
    Spares h (h.receive d result) (fun s => h.origin s = some .promise) [.inCallable d] [y] := by
  have other (s : StateId) (promise : h.origin s = some .promise) : s ≠ d :=
    Heap.Derived.ne_promise (typed.imp fun _ made => ⟨_, made⟩) promise
  refine ⟨fun _ _ => rfl, fun s promise => Function.update_of_ne (other s promise) _ _,
    fun z inside s promise completes => ?_, fun s _ inside => ?_, fun z inside => ?_⟩
  · obtain rfl := List.mem_singleton.mp inside
    cases z <;>
      simp only [Instr.decision, Option.some.injEq, Prod.mk.injEq, reduceCtorEq] at decision
    all_goals
      obtain ⟨rfl, rfl⟩ := decision
      simp [Instr.completes, (other s promise).symm] at completes
  · obtain rfl := List.mem_singleton.mp inside
    cases decision
  · obtain rfl := List.mem_singleton.mp inside
    cases z <;> first | rfl | cases decision

end Spares

/-! ## The runtime below the pool -/

/-- A disciplined step of the runtime takes nothing back. -/
theorem step_later {X : Type} {σ σ' : Config V ε X} {event : Event V ε X}
    (reached : (runtime V ε X).Reachable σ)
    (stepped : (runtime V ε X).step σ event = some σ') : σ.heap.Later σ'.heap := by
  have ok := Config.ok reached
  obtain ⟨disciplined, taken⟩ := System.under_step.mp stepped
  obtain ⟨extends_, decided⟩ := ok.step_extends disciplined taken
  exact ⟨fun _ _ => ok.inv.layout.origin_kept extends_, decided⟩

/-! ## Library calls of the pool -/

/-- A library call has begun, if there is one. -/
def Begun (h : Heap V ε) (api : Option (Api V ε)) (h' : Heap V ε)
    (code : List (Instr V ε PoolCode)) : Prop :=
  match api with
  | none => h' = h ∧ code = []
  | some api => h.begin api = some (h', code)

/-- A library call leaves the promises alone that it is not about. -/
theorem Begun.spares {h h' : Heap V ε} {api : Option (Api V ε)} {code : List (Instr V ε PoolCode)}
    (begun : Begun h api h' code) :
    Spares h h' (fun s => ∀ call, api = some call → s ∉ call.promise) [] code := by
  cases api with
  | none =>
    obtain ⟨rfl, rfl⟩ := begun
    exact .of_quiet rfl rfl (List.forall_mem_nil _)
  | some api =>
    have spares := begin_spares begun
    have about {s : StateId} (other : ∀ call, some api = some call → s ∉ call.promise) :
        s ∉ api.promise := other api rfl
    exact ⟨fun s other => spares.destroyed s (about other),
      fun s other => spares.received s (about other),
      fun y inside s other => spares.completes y inside s (about other),
      fun s other => spares.breaks s (about other), spares.library⟩

/-- What the pool owes to a promise that it completes or destroys. -/
def Owed (σ : Config V ε PoolCode) : Option (Api V ε) → Prop
  | some (.complete s _) => σ.heap.destroyed s = false
  | some (.destroyPromise s) => σ.heap.destroyed s = false ∧ ∀ x ∈ σ.pending, x.completes s = false
  | _ => True

namespace PoolConfig

variable {workers : Nat} {σ σ' : PoolConfig V ε} {thread : Nat}

/-- Entering or leaving pool code adds nothing but pool code. -/
theorem enter_cases {σ entered : Config V ε PoolCode} {leave : Bool} {code : List PoolCode}
    (stepped : σ.step (.enter thread leave code) = some entered) :
    entered.heap = σ.heap ∧ ∀ stack ∈ entered.threads, ∀ x ∈ stack,
      x ∈ σ.pending ∨ ∃ c, x = .external c := by
  have replaced {stack base : List (Instr V ε PoolCode)} (found : σ.threads[thread]? = some stack)
      (suffix : ∀ x ∈ base, x ∈ stack) : ∀ other ∈
      (σ.update thread σ.heap (code.map .external ++ base)).threads, ∀ x ∈ other,
        x ∈ σ.pending ∨ ∃ c, x = .external c := by
    intro other member x inside
    rcases List.mem_or_eq_of_mem_set member with old | rfl
    · exact Or.inl (Stacks.mem_pending.mpr ⟨other, old, inside⟩)
    · rcases List.mem_append.mp inside with new | inside
      · obtain ⟨c, -, rfl⟩ := List.mem_map.mp new
        exact Or.inr ⟨c, rfl⟩
      · exact Or.inl (Stacks.mem_pending.mpr
          ⟨stack, List.mem_of_getElem? found, suffix x inside⟩)
  simp only [Config.step] at stepped
  split at stepped
  case h_1 c base found =>
    cases stepped
    exact ⟨rfl, replaced found fun x => List.mem_cons_of_mem _⟩
  case h_2 stack found =>
    obtain ⟨-, same⟩ := Option.ite_none_right_eq_some.mp stepped
    cases same
    exact ⟨rfl, replaced found fun x => id⟩
  case h_3 => cases stepped

/-- Entering pool code is a step of the runtime, and so is the library call above it. -/
theorem perform_replays {leave : Bool} {pool : Pool V ε} {next : List PoolCode}
    {api : Option (Api V ε)} (owed : Owed σ.runtime api)
    (performed : σ.perform thread leave pool next api = some σ') :
    ∃ events, (Async.runtime V ε PoolCode).replay σ.runtime events = some σ'.runtime := by
  obtain ⟨entered, stepped, rest⟩ := Option.bind_eq_some_iff.mp performed
  have allowed : Disciplined σ.runtime (.enter thread leave next) := trivial
  have first : (Async.runtime V ε PoolCode).step σ.runtime (.enter thread leave next) =
      some entered := System.under_step.mpr ⟨allowed, stepped⟩
  cases api with
  | none =>
    cases rest
    refine ⟨[.enter thread leave next], ?_⟩
    rw [System.replay, first]
    rfl
  | some api =>
    obtain ⟨last, called, same⟩ := Option.map_eq_some_iff.mp rest
    cases same
    obtain ⟨heap, old⟩ := enter_cases stepped
    have disciplined : Disciplined entered (.call thread api) := by
      cases api with
      | complete s result =>
        change entered.heap.destroyed s = false
        rw [heap]
        exact owed
      | destroyPromise s =>
        refine ⟨by rw [heap]; exact owed.1, fun stack member x inside => ?_⟩
        rcases old stack member x inside with pending | ⟨c, rfl⟩
        · exact owed.2 x pending
        · rfl
      | _ => trivial
    have second : (Async.runtime V ε PoolCode).step entered (.call thread api) = some last :=
      System.under_step.mpr ⟨disciplined, called⟩
    refine ⟨[.enter thread leave next, .call thread api], ?_⟩
    rw [System.replay, first, Option.bind_some, System.replay, second]
    rfl

/-- A replay of the runtime takes nothing back. -/
theorem replay_later {σ σ' : Config V ε PoolCode} {events : List (Event V ε PoolCode)}
    (reached : (Async.runtime V ε PoolCode).Reachable σ)
    (replayed : (Async.runtime V ε PoolCode).replay σ events = some σ') :
    σ.heap.Later σ'.heap := by
  let relates (first last : Config V ε PoolCode) : Prop := first.heap.Later last.heap
  suffices related : relates σ σ' from related
  apply reached.replay_relates _ _ replayed
  · exact fun _ => ⟨fun _ _ => id, fun _ => id⟩
  · intro first state event after middle related stepped
    have later := step_later middle stepped
    exact ⟨fun s origin made => later.origin s origin (related.origin s origin made),
      fun s decided => later.decided s (related.decided s decided)⟩

/-- So the runtime below stays in order, and takes nothing back. -/
theorem perform_reached {leave : Bool} {pool : Pool V ε} {next : List PoolCode}
    {api : Option (Api V ε)} (reached : (Async.runtime V ε PoolCode).Reachable σ.runtime)
    (owed : Owed σ.runtime api) (performed : σ.perform thread leave pool next api = some σ') :
    (Async.runtime V ε PoolCode).Reachable σ'.runtime ∧
      σ.runtime.heap.Later σ'.runtime.heap := by
  obtain ⟨events, replayed⟩ := perform_replays owed performed
  exact ⟨reached.replay replayed, replay_later reached replayed⟩

/-- A statement replaces itself by the code that follows, below the library call it makes. -/
theorem perform_statement {pool : Pool V ε} {next : List PoolCode} {api : Option (Api V ε)}
    {c : PoolCode} {base : List (Instr V ε PoolCode)}
    (found : σ.runtime.threads[thread]? = some (.external c :: base))
    (performed : σ.perform thread true pool next api = some σ') :
    ∃ code, Replaced σ.runtime σ'.runtime thread [.external c] (code ++ next.map .external) base ∧
      σ'.pool = pool ∧ Begun σ.runtime.heap api σ'.runtime.heap code := by
  have bound := (List.getElem?_eq_some_iff.mp found).1
  simp only [perform, Config.step, found, Option.bind_some] at performed
  cases api with
  | none =>
    cases performed
    exact ⟨[], ⟨found, rfl⟩, rfl, rfl, rfl⟩
  | some api =>
    obtain ⟨last, called, same⟩ := Option.map_eq_some_iff.mp performed
    cases same
    have now :
        (σ.runtime.update thread σ.runtime.heap (next.map .external ++ base)).threads[thread]? =
        some (next.map .external ++ base) := by
      simp [Config.update, bound]
    simp only [now] at called
    obtain ⟨-, begun⟩ := Option.ite_none_right_eq_some.mp called
    obtain ⟨⟨heap, code⟩, begun, made⟩ := Option.map_eq_some_iff.mp begun
    rw [Config.update_update] at made
    refine ⟨code, ⟨found, ?_⟩, rfl, ?_⟩
    · rw [← made, List.append_assoc]
      rfl
    · rw [← made]
      exact begun

/-- Entering a member function of the pool puts its code above what the thread does. -/
theorem perform_entry {pool : Pool V ε} {next : List PoolCode} {base : List (Instr V ε PoolCode)}
    (found : σ.runtime.threads[thread]? = some base)
    (performed : σ.perform thread false pool next none = some σ') :
    Replaced σ.runtime σ'.runtime thread [] (next.map .external) base ∧ σ'.pool = pool ∧
      σ'.runtime.heap = σ.runtime.heap := by
  obtain ⟨entered, stepped, rest⟩ := Option.bind_eq_some_iff.mp performed
  cases rest
  simp only [Config.step, found] at stepped
  obtain ⟨-, made⟩ := Option.ite_none_right_eq_some.mp stepped
  cases made
  exact ⟨⟨found, rfl⟩, rfl, rfl⟩

end PoolConfig

/-! ## Statements -/

/-- Everything that a statement can do. -/
inductive Pool.Did (pool : Pool V ε) (h : Heap V ε) (workers thread woken : Nat) :
    PoolCode → Pool V ε → List PoolCode → Option (Api V ε) → Prop
  | execute {isVoid dependencies} (free : pool.mutex = none) :
    Did pool h workers thread woken (.execute isVoid dependencies)
      { pool with mutex := some thread } [.whenAll isVoid dependencies] none
  | whenAll {isVoid dependencies} :
    Did pool h workers thread woken (.whenAll isVoid dependencies) pool
      [.makeTask isVoid dependencies h.next] (some (.whenAll dependencies))
  | makeTask {isVoid dependencies dependency} {task : Task} (promise : task.promise = h.next)
      (waits : task.dependency = some dependency) (passed : task.dependencies = dependencies) :
    Did pool h workers thread woken (.makeTask isVoid dependencies dependency)
      { pool with made := pool.made ++ [task] } [.emplaceBack task] (some (.newPromise isVoid))
  | emplaceBack {task} (wakes : pool.sleeping = ∅ ∨ woken ∈ pool.sleeping) :
    Did pool h workers thread woken (.emplaceBack task)
      { pool with sleeping := pool.sleeping.erase woken, tasks := pool.tasks ++ [task] }
      [.getFuture task.promise] none
  | getFuture {promise} :
    Did pool h workers thread woken (.getFuture promise) pool.unlock [] none
  | threadLoop (free : pool.mutex = none) :
    Did pool h workers thread woken .threadLoop { pool with mutex := some thread } [.loop] none
  | ends (initiated : pool.shutdownInitiated = true) :
    Did pool h workers thread woken .loop pool.unlock [] none
  | loop (running : pool.shutdownInitiated = false) :
    Did pool h workers thread woken .loop pool [.nextTask 0] none
  /-- `NextTask` has come to the end of `_tasks`. -/
  | scanned {index} (ended : pool.tasks[index]? = none) :
    Did pool h workers thread woken (.nextTask index) pool [.noTask] none
  | takes {index task} (found : pool.tasks[index]? = some task) (ready : task.isReady h = true) :
    Did pool h workers thread woken (.nextTask index)
      { pool with tasks := pool.tasks.eraseIdx index } [.unlock task] none
  | skips {index task} (found : pool.tasks[index]? = some task)
      (unready : task.isReady h = false) :
    Did pool h workers thread woken (.nextTask index) pool [.nextTask (index + 1)] none
  | unlock {task} : Did pool h workers thread woken (.unlock task) pool.unlock [.call task] none
  | call {task} :
    Did pool h workers thread woken (.call task)
      { pool with invocations :=
          Function.update pool.invocations task.promise (pool.invocations task.promise + 1) }
      [.func task] none
  | relock {task} (free : pool.mutex = none) :
    Did pool h workers thread woken (.relock task) { pool with mutex := some thread }
      [.notify task 0] none
  | notifies {task index} (wakes : pool.sleeping = ∅ ∨ woken ∈ pool.sleeping) :
    Did pool h workers thread woken (.notify task index)
      { pool with sleeping := pool.sleeping.erase woken } [.notify task (index + 1)] none
  | notified {task index} :
    Did pool h workers thread woken (.notify task index) pool [.release task] none
  | release {task} :
    Did pool h workers thread woken (.release task) pool [.loop]
      (some (.destroyPromise task.promise))
  | leaves (initiated : pool.shutdownInitiated = true) :
    Did pool h workers thread woken .noTask pool [.loop] none
  | sleeps (running : pool.shutdownInitiated = false) :
    Did pool h workers thread woken .noTask
      { pool.unlock with sleeping := insert thread pool.sleeping } [.waitFor] none
  | wakes (asleep : thread ∈ pool.sleeping) :
    Did pool h workers thread woken .waitFor
      { pool with sleeping := pool.sleeping.erase thread } [.waitFor] none
  | returns (awake : thread ∉ pool.sleeping) (free : pool.mutex = none) :
    Did pool h workers thread woken .waitFor { pool with mutex := some thread } [.loop] none
  | shutdownNotifyThreads (free : pool.mutex = none) :
    Did pool h workers thread woken .shutdownNotifyThreads
      { pool with mutex := none, shutdownInitiated := true, sleeping := ∅ }
      [.shutdownJoinThreads 0] none
  | joins {index} :
    Did pool h workers thread woken (.shutdownJoinThreads index) pool
      [.shutdownJoinThreads (index + 1)] none
  | joined {index} :
    Did pool h workers thread woken (.shutdownJoinThreads index) pool
      [.shutdownDestroyRemainingTasks] none
  | clears {task rest} (found : pool.tasks = task :: rest) :
    Did pool h workers thread woken .shutdownDestroyRemainingTasks { pool with tasks := rest }
      [.shutdownDestroyRemainingTasks] (some (.destroyPromise task.promise))
  | cleared :
    Did pool h workers thread woken .shutdownDestroyRemainingTasks
      { pool with destroyed := true } [] none

section Moves

variable {pool pool' : Pool V ε} {h h' : Heap V ε} {finished : Nat → Bool}
  {workers thread woken : Nat} {c : PoolCode} {next : List PoolCode} {api : Option (Api V ε)}
  {code : List (Instr V ε PoolCode)} {R : Multiset PoolCode}

theorem Pool.lock_eq (locked : pool.lock thread = some pool') :
    pool.mutex = none ∧ pool' = { pool with mutex := some thread } := by
  obtain ⟨free, same⟩ := Option.ite_none_right_eq_some.mp locked
  exact ⟨free, (Option.some.inj same).symm⟩

theorem Pool.notifyOne_eq (notified : pool.notifyOne woken = some pool') :
    (pool.sleeping = ∅ ∨ woken ∈ pool.sleeping) ∧
      pool' = { pool with sleeping := pool.sleeping.erase woken } := by
  obtain ⟨wakes, same⟩ := Option.ite_none_right_eq_some.mp notified
  exact ⟨wakes, (Option.some.inj same).symm⟩

theorem Pool.run_did
    (ran : pool.run h finished workers thread woken c = some (pool', next, api)) :
    pool.Did h workers thread woken c pool' next api := by
  cases c with
  | execute | threadLoop | relock =>
    obtain ⟨locked, lock, made⟩ := Option.map_eq_some_iff.mp ran
    obtain ⟨free, same⟩ := Pool.lock_eq lock
    rw [same] at made
    cases made
    first
    | exact .execute free
    | exact .threadLoop free
    | exact .relock free
  | whenAll =>
    cases ran
    exact .whenAll
  | makeTask =>
    cases ran
    exact .makeTask rfl rfl rfl
  | emplaceBack =>
    obtain ⟨notified, notify, made⟩ := Option.map_eq_some_iff.mp ran
    obtain ⟨wakes, same⟩ := Pool.notifyOne_eq notify
    rw [same] at made
    cases made
    exact .emplaceBack wakes
  | getFuture =>
    cases ran
    exact .getFuture
  | loop =>
    simp only [Pool.run] at ran
    split at ran
    case isTrue initiated =>
      cases ran
      exact .ends initiated
    case isFalse running =>
      cases ran
      exact .loop (Bool.eq_false_of_not_eq_true running)
  | nextTask =>
    simp only [Pool.run] at ran
    split at ran
    case h_1 ended =>
      cases ran
      exact .scanned ended
    case h_2 task found =>
      split at ran
      case isTrue ready =>
        cases ran
        exact .takes found ready
      case isFalse unready =>
        cases ran
        exact .skips found (Bool.eq_false_of_not_eq_true unready)
  | unlock =>
    cases ran
    exact .unlock
  | call =>
    cases ran
    exact .call
  | func => cases ran
  | notify =>
    simp only [Pool.run] at ran
    split at ran
    case isTrue =>
      obtain ⟨notified, notify, made⟩ := Option.map_eq_some_iff.mp ran
      obtain ⟨wakes, same⟩ := Pool.notifyOne_eq notify
      rw [same] at made
      cases made
      exact .notifies wakes
    case isFalse =>
      cases ran
      exact .notified
  | release =>
    cases ran
    exact .release
  | noTask =>
    simp only [Pool.run] at ran
    split at ran
    case isTrue initiated =>
      cases ran
      exact .leaves initiated
    case isFalse running =>
      cases ran
      exact .sleeps (Bool.eq_false_of_not_eq_true running)
  | waitFor =>
    simp only [Pool.run] at ran
    split at ran
    case isTrue asleep =>
      cases ran
      exact .wakes asleep
    case isFalse awake =>
      obtain ⟨locked, lock, made⟩ := Option.map_eq_some_iff.mp ran
      obtain ⟨free, same⟩ := Pool.lock_eq lock
      rw [same] at made
      cases made
      exact .returns awake free
  | shutdownNotifyThreads =>
    obtain ⟨locked, lock, made⟩ := Option.map_eq_some_iff.mp ran
    obtain ⟨free, same⟩ := Pool.lock_eq lock
    rw [same] at made
    cases made
    exact .shutdownNotifyThreads free
  | shutdownJoinThreads =>
    simp only [Pool.run] at ran
    split at ran
    · split at ran
      · cases ran
        exact .joins
      · cases ran
    · cases ran
      exact .joined
  | shutdownDestroyRemainingTasks =>
    simp only [Pool.run] at ran
    split at ran
    case h_1 =>
      cases ran
      exact .cleared
    case h_2 task rest found =>
      cases ran
      exact .clears found

/-- A statement that concerns no task. -/
theorem TaskMove.statement (same : pool.SameTasks pool')
    (left : c.holding = none) (plain : ∀ c ∈ next, c.isPlain = true) :
    TaskMove pool h (c ::ₘ R) pool' h ((next : Multiset PoolCode) + R) := by
  rw [← Multiset.singleton_add]
  refine .other same (fun _ _ => rfl) (fun _ _ => rfl) (fun other inside => ?_) plain
  rw [Multiset.mem_singleton.mp inside]
  exact left

/-- Every statement of the pool moves at most one task. -/
theorem Pool.run_move
    (ran : pool.run h finished workers thread woken c = some (pool', next, api))
    (begun : Begun h api h' code) :
    TaskMove pool h (c ::ₘ R) pool' h' ((next : Multiset PoolCode) + R) := by
  cases Pool.run_did ran with
  | execute | threadLoop | loop | scanned | skips | leaves | sleeps | wakes | returns
  | shutdownNotifyThreads | joins | joined =>
    rw [begun.1]
    exact .statement ⟨⟨rfl, rfl, rfl⟩, rfl⟩ rfl (List.forall_mem_singleton.mpr rfl)
  | getFuture | ends | cleared =>
    rw [begun.1]
    exact .statement ⟨⟨rfl, rfl, rfl⟩, rfl⟩ rfl (List.forall_mem_nil _)
  | whenAll =>
    obtain ⟨-, made⟩ := Option.ite_none_right_eq_some.mp begun
    cases made
    exact .whenAll (Function.update_self h.next _ _) rfl rfl
  | makeTask promise waits passed =>
    cases begun
    exact .makeTask promise waits passed
  | emplaceBack =>
    rw [begun.1]
    exact .emplaceBack ⟨rfl, rfl, rfl⟩ rfl
  | takes found ready =>
    rw [begun.1]
    exact .nextTask found ready
  | unlock | relock | notifies | notified =>
    rw [begun.1]
    exact .advance ⟨⟨rfl, rfl, rfl⟩, rfl⟩ rfl (Option.some_ne_none _)
  | call =>
    rw [begun.1]
    exact .call
  | release =>
    obtain ⟨-, made⟩ := Option.ite_none_right_eq_some.mp begun
    cases made
    exact .release
  | clears found =>
    obtain ⟨-, made⟩ := Option.ite_none_right_eq_some.mp begun
    cases made
    exact .clear found

end Moves

/-! ## What a statement leaves to the others -/

/-- The code belongs to the destructor. -/
def PoolCode.isDestructor : PoolCode → Bool
  | .shutdownNotifyThreads | .shutdownJoinThreads _ | .shutdownDestroyRemainingTasks => true
  | _ => false

/-- The destructor has joined a worker. -/
def PoolCode.joined (worker : Nat) : PoolCode → Bool
  | .shutdownJoinThreads index => worker < index
  | .shutdownDestroyRemainingTasks => true
  | _ => false

/-- What a statement leaves to the rest of the program. -/
structure Pool.Ran (pool pool' : Pool V ε) (finished : Nat → Bool) (workers : Nat) (c : PoolCode)
    (next : List PoolCode) (api : Option (Api V ε)) : Prop where
  destroying : pool'.destroying = pool.destroying
  kind : ∀ c' ∈ next, c'.isExecute = c.isExecute ∧ c'.isDestructor = c.isDestructor
  destroyed : (pool'.destroyed = pool.destroyed ∧ (c.isDestructor = true → next ≠ [])) ∨
    (c = .shutdownDestroyRemainingTasks ∧ pool'.destroyed = true ∧ pool'.tasks = [] ∧ next = [])
  single : next.length ≤ 1
  tasks : (∀ task, c ≠ .emplaceBack task) → pool.tasks = [] → pool'.tasks = []
  joined : (∀ worker < workers, c.joined worker = true → finished worker = true) →
    ∀ c' ∈ next, ∀ worker < workers, c'.joined worker = true → finished worker = true
  completes : ∀ s result, api ≠ some (.complete s result)
  destroys : ∀ s, api = some (.destroyPromise s) →
    (∃ task, c = .release task ∧ task.promise = s ∧ next = [.loop]) ∨
    ∃ task ∈ pool.tasks, c = .shutdownDestroyRemainingTasks ∧ task.promise = s ∧
      next = [.shutdownDestroyRemainingTasks]

/-- A statement that only goes on leaves nothing else to say. -/
theorem Pool.Ran.through {pool pool' : Pool V ε} {finished : Nat → Bool} {workers : Nat}
    {c c' : PoolCode} {api : Option (Api V ε)} (destroying : pool'.destroying = pool.destroying)
    (destroyed : pool'.destroyed = pool.destroyed)
    (kind : c'.isExecute = c.isExecute ∧ c'.isDestructor = c.isDestructor)
    (tasks : (∀ task, c ≠ .emplaceBack task) → pool.tasks = [] → pool'.tasks = [])
    (joined : ∀ worker, c'.joined worker = false)
    (calls : ∀ call ∈ api, call.promise = none) : pool.Ran pool' finished workers c [c'] api where
  destroying := destroying
  kind := List.forall_mem_singleton.mpr kind
  destroyed := Or.inl ⟨destroyed, fun _ => List.cons_ne_nil _ _⟩
  single := Nat.le_refl 1
  tasks := tasks
  joined := by
    intro _ other inside worker _ past
    rw [List.mem_singleton.mp inside, joined worker] at past
    cases past
  completes := by
    intro s result called
    cases calls _ called
  destroys := by
    intro s called
    cases calls _ called

/-- Every statement keeps to its own member function. -/
theorem Pool.run_ran {pool pool' : Pool V ε} {h : Heap V ε} {finished : Nat → Bool}
    {workers thread woken : Nat} {c : PoolCode} {next : List PoolCode} {api : Option (Api V ε)}
    (ran : pool.run h finished workers thread woken c = some (pool', next, api)) :
    pool.Ran pool' finished workers c next api := by
  have silent : ∀ call ∈ (none : Option (Api V ε)), call.promise = none := by
    intro call called
    cases called
  cases Pool.run_did ran with
  | execute | threadLoop | loop | scanned | skips | unlock | call | relock | notifies | notified
  | leaves | sleeps | wakes | returns | shutdownNotifyThreads =>
    exact .through rfl rfl ⟨rfl, rfl⟩ (fun _ empty => empty) (fun _ => rfl) silent
  | whenAll | makeTask =>
    refine .through rfl rfl ⟨rfl, rfl⟩ (fun _ empty => empty) (fun _ => rfl) ?_
    intro call called
    cases called
    rfl
  | emplaceBack =>
    exact .through rfl rfl ⟨rfl, rfl⟩ (fun other => absurd rfl (other _)) (fun _ => rfl) silent
  | takes found =>
    refine .through rfl rfl ⟨rfl, rfl⟩ ?_ (fun _ => rfl) silent
    intro _ empty
    rw [empty] at found
    cases found
  | getFuture | ends =>
    constructor <;> simp [PoolCode.isDestructor, Pool.unlock]
  | release =>
    constructor <;> simp [PoolCode.isExecute, PoolCode.isDestructor, PoolCode.joined]
  | @joins index =>
    have joined : finished index = true := by
      simp only [Pool.run] at ran
      split at ran
      · split at ran
        · assumption
        · cases ran
      · cases ran
    constructor
    case joined =>
      intro before c' inside worker bound past
      obtain rfl := List.mem_singleton.mp inside
      have past : worker < index + 1 := by simpa [PoolCode.joined] using past
      rcases Nat.lt_succ_iff_lt_or_eq.mp past with earlier | rfl
      · exact before worker bound (by simpa [PoolCode.joined] using earlier)
      · exact joined
    all_goals simp [PoolCode.isExecute, PoolCode.isDestructor]
  | @joined index =>
    have all : workers ≤ index := by
      simp only [Pool.run] at ran
      split at ran
      · split at ran
        all_goals cases ran
      · exact Nat.le_of_not_lt ‹_›
    constructor
    case joined =>
      intro before c' inside worker bound _
      have earlier : worker < index := Nat.lt_of_lt_of_le bound all
      exact before worker bound (by simpa [PoolCode.joined] using earlier)
    all_goals simp [PoolCode.isExecute, PoolCode.isDestructor]
  | clears found =>
    constructor <;> simp [PoolCode.isExecute, PoolCode.isDestructor, PoolCode.joined, found]
  | cleared =>
    have empty : pool.tasks = [] := by
      simp only [Pool.run] at ran
      split at ran
      case h_1 empty => exact empty
      case h_2 => exact absurd (congrArg (fun after => after.2.1) (Option.some.inj ran)) (by simp)
    constructor <;> simp [empty]

end Azul.Async
