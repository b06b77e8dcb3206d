import Azul.Async.LockedCallables
import Azul.Async.SettledClosures

/-!
# What runs under the lock

The pool evaluates `WhenAll` and destroys its tasks while it holds `_mutex`. The first registers
closures with futures that are hidden from the program, and the second destroys closures that have
done their work, at any depth. So a callable that the program attaches to the future of a task, or
to a future derived from it, is destroyed under the lock, but no callable is ever called there, and
the holder of `_mutex` is never inside one.
-/

namespace Azul.Async

open Foundation

variable {V ε : Type}

/-- The instruction calls nothing of the program: it keeps to hidden futures, or destroys settled
closures. -/
def Instr.Calm {X : Type} (h : Heap V ε) (hidden : StateId → Prop) (x : Instr V ε X) : Prop :=
  x.Harmless h hidden ∨ x.Tidies h

/-- Above code that holds `_mutex` everything is calm. -/
def Heap.shields (h : Heap V ε) (hidden : StateId → Prop) (x : Instr V ε PoolCode)
    (below : Instr V ε PoolCode → Prop) : Prop :=
  ∀ c : PoolCode, c.isCritical = true → below (.external c) → x.Calm h hidden

section Shields

variable {h h' : Heap V ε} {hidden hidden' : StateId → Prop} {x : Instr V ε PoolCode}
  {code base new : List (Instr V ε PoolCode)} {next : List PoolCode}

theorem Instr.Calm.kept (calm : x.Calm h hidden) (later : h.Later h') (settles : h.Settles h')
    (grows : ∀ s, hidden s → hidden' s) : x.Calm h' hidden' :=
  calm.imp (fun harmless => harmless.kept later settles grows)
    fun tidies => tidies.kept later settles

/-- Neither code of the pool nor a callable is calm. -/
theorem Instr.Calm.library (calm : x.Calm h hidden) :
    (∀ c : PoolCode, x ≠ .external c) ∧ ∀ d, x ≠ .inCallable d := by
  constructor
  · intro c same
    rw [same] at calm
    exact calm.elim id id
  · intro d same
    rw [same] at calm
    exact calm.elim id id

/-- What is not calm is not above code that holds `_mutex`. -/
theorem unlocked_under (nested : Stacks.Nested (h.shields hidden) (x :: base))
    (harms : ¬ x.Calm h hidden) : Unlocked base := by
  intro c inside
  cases critical : c.isCritical with
  | false => rfl
  | true => exact absurd (nested.1 c critical inside) harms

/-- Any code may be put where nobody holds `_mutex`, if none of it does. -/
theorem shielded_unlocked (unlocked : Unlocked (code ++ base))
    (nested : Stacks.Nested (h.shields hidden) base) :
    Stacks.Nested (h.shields hidden) (code ++ base) := by
  apply Stacks.Nested.append_below _ nested
  intro before x after split c critical inside
  have still : .external c ∈ code ++ base := by
    rw [split, List.append_assoc]
    exact List.mem_append_right _ (List.mem_cons_of_mem _ inside)
  rw [unlocked c still] at critical
  cases critical

/-- Calm code may be put anywhere. -/
theorem shielded_calm (calm : ∀ x ∈ code, x.Calm h hidden)
    (nested : Stacks.Nested (h.shields hidden) base) :
    Stacks.Nested (h.shields hidden) (code ++ base) := by
  apply Stacks.Nested.append _ nested
  intro x inside _ _ _ _ _
  exact calm x inside

/-- A statement puts the next one where nobody holds `_mutex`, and a library call above it. -/
theorem shielded_statement (unlocked : Unlocked base) (single : next.length ≤ 1)
    (library : ∀ x ∈ code, x.code = none)
    (calm : ∀ c ∈ next, c.isCritical = true → ∀ x ∈ code, x.Calm h hidden)
    (nested : Stacks.Nested (h.shields hidden) base) :
    Stacks.Nested (h.shields hidden) (code ++ next.map .external ++ base) := by
  have plain {c : PoolCode} (inside : .external c ∈ code) : False := by
    cases library _ inside
  rw [List.append_assoc]
  cases next with
  | nil =>
    apply shielded_unlocked _ nested
    intro c inside
    exact unlocked c ((List.mem_append.mp inside).resolve_left plain)
  | cons c rest =>
    have none : rest = [] := List.eq_nil_of_length_eq_zero (by simpa using single)
    have top : Stacks.Nested (h.shields hidden) (.external c :: base) := by
      refine ⟨fun c' critical inside => ?_, nested⟩
      rw [unlocked c' inside] at critical
      cases critical
    rw [none, List.map_singleton, List.singleton_append]
    cases critical : c.isCritical with
    | true => exact shielded_calm (calm c List.mem_cons_self critical) top
    | false =>
      apply shielded_unlocked _ top
      intro c' inside
      cases List.mem_cons.mp ((List.mem_append.mp inside).resolve_left plain) with
      | inl same =>
        rw [Instr.external.inj same]
        exact critical
      | inr below => exact unlocked c' below

end Shields

namespace PoolConfig

variable {workers : Nat} {σ σ' : PoolConfig V ε} {event : PoolEvent V ε} {task : Task}

/-- When a worker is about to destroy its task, the completing call of the task is over. -/
theorem Ok.release_over (ok : σ.Ok workers) {thread : Nat} {base : List (Instr V ε PoolCode)}
    (found : σ.runtime.threads[thread]? = some (.external (.release task) :: base))
    (alive : σ.runtime.heap.destroyed task.promise = false)
    (ended : ∀ x ∈ σ.runtime.pending, x.completes task.promise = false) :
    σ.runtime.Over task.promise := by
  have inv := (Config.ok ok.reached).inv
  have pending : PoolCode.release task ∈ poolCode σ.runtime.pending := mem_poolCode.mpr
    (Stacks.mem_pending.mpr ⟨_, List.mem_of_getElem? found, List.mem_cons_self⟩)
  obtain ⟨known, finished⟩ := ok.ledger.held _ pending task .finished rfl
  obtain ⟨result, _, received⟩ := Pool.Finished.received finished
  have origin := ok.made_origin known
  have undecided : Stacks.count σ.runtime.pending (Instr.decidesOn task.promise) = 0 := by
    apply count_absent ended
    intro x is
    cases x with
    | setValue | resolve | setException => exact is
    | _ => cases is
  have completed : σ.runtime.heap.received task.promise ≠ [] := by
    rw [received]
    exact List.cons_ne_nil _ _
  have walked := inv.decisions.receivedGe task.promise (Or.inl origin) completed
  rw [undecided, Nat.zero_add] at walked
  refine ⟨fun retired => ?_, ended, walked⟩
  rw [Heap.retired_promise origin, alive] at retired
  cases retired

/-- The library calls that a statement makes under the lock are calm. -/
theorem Ok.statement_calm (ok : σ.Ok workers) {thread woken : Nat} {c : PoolCode}
    {base code : List (Instr V ε PoolCode)} {pool : Pool V ε} {next : List PoolCode}
    {api : Option (Api V ε)} (taken : σ.step workers (.run thread woken) = some σ')
    (found : σ.runtime.threads[thread]? = some (.external c :: base))
    (ran : σ.pool.run σ.runtime.heap σ.finished workers thread woken c = some (pool, next, api))
    (begun : Begun σ.runtime.heap api σ'.runtime.heap code)
    (replaced : Replaced σ.runtime σ'.runtime thread [.external c] (code ++ next.map .external)
      base) :
    ∀ c' ∈ next, c'.isCritical = true → ∀ x ∈ code, x.Calm σ'.runtime.heap σ'.Private := by
  have later := ok.later (ok.stepped taken)
  have settles := ok.settles (ok.stepped taken)
  have owed := ok.statement_owed found (Pool.run_ran ran)
  obtain ⟨rest, before, after⟩ := codes_replaced replaced begun.spares.library
  intro c' follows critical x inside
  cases Pool.run_did ran with
  | @whenAll isVoid dependencies =>
    have hides : σ'.Private σ.runtime.heap.next := by
      refine Or.inr (Or.inr ⟨.makeTask isVoid dependencies σ.runtime.heap.next, ?_, rfl⟩)
      rw [after]
      exact Multiset.mem_add.mpr (Or.inl (Multiset.mem_coe.mpr List.mem_cons_self))
    exact Or.inl (begin_harmless begun hides x inside)
  | @release task =>
    obtain ⟨_, made⟩ := Option.ite_none_right_eq_some.mp begun
    have one : [.aboutToDestroyPromise task.promise] = code :=
      (Prod.mk.inj (Option.some.inj made)).2
    rw [← one] at inside
    rw [List.mem_singleton.mp inside]
    have settled := (ok.release_over found owed.1 owed.2).settled ok.reached
    exact Or.inr (settled.kept later settles)
  | @clears task rest' found' =>
    rw [List.mem_singleton.mp follows] at critical
    cases critical
  | makeTask =>
    have none : [] = code := (Prod.mk.inj (Option.some.inj begun)).2
    rw [← none] at inside
    cases inside
  | _ =>
    rw [begun.2] at inside
    cases inside

/-- Everything above code that holds `_mutex` is calm, on every thread. -/
def Shielded (σ : PoolConfig V ε) : Prop :=
  ∀ stack ∈ σ.runtime.threads, Stacks.Nested (σ.runtime.heap.shields σ.Private) stack

namespace Shielded

variable {thread : Nat} {base : List (Instr V ε PoolCode)}

/-- Where the program is in control nobody holds `_mutex`. -/
theorem unlocked (shielded : σ.Shielded) (found : σ.runtime.threads[thread]? = some base)
    (control : σ.inProgram workers thread = true) : Unlocked base := by
  have nested := shielded base (List.mem_of_getElem? found)
  unfold inProgram at control
  rw [found] at control
  split at control
  case h_1 same =>
    cases same
    intro c inside
    cases inside
  case h_2 d rest same =>
    cases same
    intro c inside
    cases List.mem_cons.mp inside with
    | inl clash => cases clash
    | inr below => exact unlocked_under nested (fun calm => calm.library.2 d rfl) c below
  case h_3 task rest same =>
    cases same
    intro c inside
    cases List.mem_cons.mp inside with
    | inl top =>
      rw [Instr.external.inj top]
      rfl
    | inr below => exact unlocked_under nested (fun calm => calm.library.1 _ rfl) c below
  case h_4 => cases control

/-- Every step keeps the code above the lock calm. -/
theorem step (shielded : σ.Shielded) (ok : σ.Ok workers) (confined : σ.Confined)
    (taken : σ.step workers event = some σ') : σ'.Shielded := by
  have later := ok.later (ok.stepped taken)
  have grows (s : StateId) (hidden : σ.Private s) : σ'.Private s := hidden.kept ok taken
  have settles := ok.settles (ok.stepped taken)
  have kept {thread : Nat} {old new base : List (Instr V ε PoolCode)}
      (replaced : Replaced σ.runtime σ'.runtime thread old new base)
      (fresh : Stacks.Nested (σ'.runtime.heap.shields σ'.Private) base →
        Stacks.Nested (σ'.runtime.heap.shields σ'.Private) (new ++ base)) : σ'.Shielded := by
    apply replaced.nested shielded _ fresh
    intro x _ below _ shields c critical inside
    exact (shields c critical inside).kept later settles grows
  have enters {thread : Nat} {base : List (Instr V ε PoolCode)} {c : PoolCode}
      (replaced : Replaced σ.runtime σ'.runtime thread [] ([c].map .external) base)
      (found : σ.runtime.threads[thread]? = some base)
      (control : σ.inProgram workers thread = true) (free : c.isCritical = false) :
      σ'.Shielded := by
    apply kept replaced
    apply shielded_unlocked
    intro c' inside
    cases List.mem_cons.mp inside with
    | inl top =>
      rw [Instr.external.inj top]
      exact free
    | inr below => exact shielded.unlocked found control c' below
  cases ok.stepped taken with
  | @library event below thread old new base disciplined running same step reason =>
    have library : ∀ x ∈ new, x.code = none := step.spares.library
    have put (unlocked : Unlocked base)
        (nested : Stacks.Nested (σ'.runtime.heap.shields σ'.Private) base) :
        Stacks.Nested (σ'.runtime.heap.shields σ'.Private) (new ++ base) := by
      apply shielded_unlocked _ nested
      intro c inside
      cases List.mem_append.mp inside with
      | inl fresh => cases library _ fresh
      | inr below => exact unlocked c below
    have top := shielded _ (List.mem_of_getElem? step.replaced.found)
    apply kept step.replaced
    cases reason with
    | run x woken =>
      by_cases calm : x.Calm σ.runtime.heap σ.Private
      · apply shielded_calm
        cases calm with
        | inl harmless =>
          intro y inside
          refine Or.inl (execute_harmless (step.executed running) harmless later settles grows ?_ ?_
            y inside)
          · exact fun s hidden => confined.unlisted ok hidden
          · exact fun d s callable made other =>
              Or.inl (Heap.isInner_iff.mpr ⟨s, callable, made, other⟩)
        | inr tidies =>
          intro y inside
          exact Or.inr (execute_tidies (step.executed running) tidies later settles y inside)
      · exact put (unlocked_under top calm)
    | ret d => exact put (unlocked_under top fun calm => calm.library.2 d rfl)
    | call api control => exact put (shielded.unlocked step.replaced.found control)
  | @statement thread woken c base pool next api found ran performed =>
    obtain ⟨code, replaced, same, begun⟩ := perform_statement found performed
    have unlocked := unlocked_under (shielded _ (List.mem_of_getElem? found))
      fun calm => calm.library.1 c rfl
    apply kept replaced
    apply shielded_statement unlocked (Pool.run_ran ran).single begun.spares.library
    exact ok.statement_calm taken found ran begun replaced
  | @funcReturn thread task base result found performed =>
    obtain ⟨code, replaced, same, begun⟩ := perform_statement found performed
    have unlocked := unlocked_under (shielded _ (List.mem_of_getElem? found))
      fun calm => calm.library.1 _ rfl
    apply kept replaced
    have single : [PoolCode.relock task].length ≤ 1 := Nat.le_refl 1
    apply shielded_statement unlocked single begun.spares.library
    intro c listed critical
    rw [List.mem_singleton.mp listed] at critical
    cases critical
  | execute found control allowed performed =>
    exact enters (perform_entry found performed).1 found control rfl
  | destroy found control outside first idle performed =>
    exact enters (perform_entry found performed).1 found control rfl

/-- While a thread holds `_mutex`, what it executes is calm or holds `_mutex` itself. -/
theorem calm (shielded : σ.Shielded) {x : Instr V ε PoolCode}
    (found : σ.runtime.threads[thread]? = some (x :: base)) (locked : ¬ Unlocked (x :: base))
    (plain : ∀ c : PoolCode, x = .external c → c.isCritical = false) :
    x.Calm σ.runtime.heap σ.Private := by
  by_contra harms
  have below := unlocked_under (shielded _ (List.mem_of_getElem? found)) harms
  apply locked
  intro c inside
  cases List.mem_cons.mp inside with
  | inl top => exact plain c top.symm
  | inr under => exact below c under

end Shielded

/-- What holds of every run of a program that hands out the futures that it was handed. -/
theorem Owns.shielded (reached : ((poolSystem V ε workers).under Owns).Reachable σ) :
    (poolSystem V ε workers).Reachable σ ∧ σ.Confined ∧ σ.Shielded := by
  apply reached.invariant
  · intro σ initial
    refine ⟨.start initial, ?_⟩
    obtain ⟨outside, same⟩ := initial
    rw [same]
    refine ⟨start_confined outside, ?_⟩
    intro stack member
    obtain ⟨thread, found⟩ := List.getElem?_of_mem member
    cases start_stack found with
    | inl loop =>
      rw [loop.1]
      exact ⟨fun c _ inside => absurd inside List.not_mem_nil, trivial⟩
    | inr empty =>
      rw [empty]
      trivial
  · intro σ event σ' _ holds stepped
    obtain ⟨reached, confined, shielded⟩ := holds
    obtain ⟨owns, taken⟩ := System.under_step.mp stepped
    have ok := PoolConfig.ok reached
    exact ⟨reached.next taken, confined.step ok owns taken, shielded.step ok confined taken⟩

/-- The next step of a thread calls a callable of the program. -/
def callsNext (σ : PoolConfig V ε) (thread : Nat) : Bool :=
  match σ.runtime.threads[thread]? with
  | some (.invoke d _ :: _) => σ.runtime.heap.isUser d
  | some (.external (.call _) :: _) => true
  | _ => false

end PoolConfig

/-- The thread that holds `_mutex` is never inside a callable of the program, and never about to
call one, if the program hands out only futures that it was handed. -/
theorem no_callable_locked {workers : Nat} {σ : PoolConfig V ε}
    (reached : ((poolSystem V ε workers).under PoolConfig.Owns).Reachable σ) {thread : Nat}
    (held : σ.pool.mutex = some thread) :
    σ.inProgram workers thread = false ∧ σ.callsNext thread = false := by
  obtain ⟨plain, _, shielded⟩ := PoolConfig.Owns.shielded reached
  obtain ⟨stack, found, locked⟩ := (PoolConfig.staffed plain).locked held
  constructor
  · cases control : σ.inProgram workers thread with
    | false => rfl
    | true => exact absurd (shielded.unlocked found control) locked
  · cases stack with
    | nil => simp [PoolConfig.callsNext, found]
    | cons x base =>
      unfold PoolConfig.callsNext
      rw [found]
      cases x with
      | invoke d copy =>
        have calm := shielded.calm found locked fun c clash => by cases clash
        exact (calm.resolve_right id).combined
      | external c =>
        cases c with
        | call task =>
          have calm := shielded.calm found locked fun c same => by
            rw [← Instr.external.inj same]
            rfl
          exact absurd rfl (calm.library.1 _)
        | _ => rfl
      | _ => rfl

/-- The worker is about to destroy the closure of the program's callable, and holds `_mutex`. -/
theorem no_callable_locked_attached :
    let attached := (((poolSystem Nat String 1).under PoolConfig.Owns).replay
      (PoolConfig.start 1 1) attachedRun).get attachedRun_replays
    attached.pool.mutex = some 0 ∧ attached.runsUser (.run 0 0) = true ∧
      attached.inProgram 1 0 = false ∧ attached.callsNext 0 = false := by
  intro attached
  have held : attached.pool.mutex = some 0 := by
    decide +kernel
  have initial : ((poolSystem Nat String 1).under PoolConfig.Owns).initial
      (PoolConfig.start 1 1) := ⟨1, rfl⟩
  exact ⟨held, by decide +kernel,
    no_callable_locked (System.Reachable.of_replay initial attachedRun_replays) held⟩

end Azul.Async
