import Azul.Async.Dispatch

/-!
# Futures that nobody is handed

`WhenAll` and `WhenAny` drop the futures that their own calls of `Then` return, and a task keeps the
future of its `WhenAll` to itself. A program that was never handed such a future cannot attach
anything to it, so its list of continuations stays empty.
-/

namespace Azul.Async

open Foundation

section Runtime

variable {V ε X : Type} {h h' : Heap V ε} {x : Instr V ε X} {new : List (Instr V ε X)}
  {d s : StateId} {callable : Callable}

/-- The futures that a call registers closures with. -/
def Api.futures : Api V ε → List StateId
  | .then s _ => [s]
  | .whenAll inputs | .whenAny inputs => inputs
  | _ => []

/-- The state belongs to a future that a combinator has dropped. -/
def Heap.isInner (h : Heap V ε) (s : StateId) : Bool :=
  match h.origin s with
  | some (.derived _ callable) => callable != .user
  | _ => false

theorem Heap.isInner_iff : h.isInner s = true ↔
    ∃ t callable, h.origin s = some (.derived t callable) ∧ callable ≠ .user := by
  unfold Heap.isInner
  constructor
  · intro inner
    split at inner
    case h_1 t callable origin => exact ⟨t, callable, origin, bne_iff_ne.mp inner⟩
    case h_2 => cases inner
  · intro ⟨t, callable, origin, other⟩
    rw [origin]
    exact bne_iff_ne.mpr other

/-- Only `Then` derives a state. -/
theorem execute_derived (executed : execute h x = some (h', new))
    (made : h'.origin d = some (.derived s callable)) :
    h.origin d = some (.derived s callable) ∨ x = .thenFunc s callable := by
  cases x with
  | thenFunc t other =>
    cases executed
    change Function.update h.origin h.next (some (.derived t other)) d = _ at made
    by_cases same : d = h.next
    · rw [same, Function.update_self] at made
      cases made
      exact Or.inr rfl
    · rw [Function.update_of_ne same] at made
      exact Or.inl made
  | setValue | resolve | walk | clear | invoke =>
    simp only [execute] at executed
    split at executed <;> cases executed <;> exact Or.inl made
  | registerThen =>
    simp only [execute] at executed
    split at executed
    case h_1 => split at executed <;> cases executed <;> exact Or.inl made
    case h_2 => cases executed
  | setException | aboutToDestroyPromise | destroyClosure | releaseActivator =>
    cases executed
    exact Or.inl made
  | inCallable | external => cases executed

/-- Only a combinator calls `Then` for itself. -/
theorem execute_thenFunc (executed : execute h x = some (h', new)) :
    .thenFunc s callable ∉ new := by
  intro inside
  cases x with
  | setValue | resolve | walk | clear | invoke =>
    simp only [execute] at executed
    split at executed <;> cases executed <;> simp at inside
  | registerThen =>
    simp only [execute] at executed
    split at executed
    case h_1 => split at executed <;> cases executed <;> simp at inside
    case h_2 => cases executed
  | setException | aboutToDestroyPromise =>
    cases executed
    simp at inside
  | destroyClosure =>
    cases executed
    cases mem_dropped inside with
    | inl last => cases last.2
    | inr releases =>
      obtain ⟨_, _, _, same⟩ := releases
      cases same
  | thenFunc =>
    cases executed
    simp [Instr.thenCode] at inside
  | releaseActivator =>
    cases executed
    split at inside <;> simp at inside
  | inCallable | external => cases executed

/-- A call derives states from the futures that it is given. -/
theorem begin_derived {api : Api V ε} (begun : h.begin api = some (h', new))
    (made : h'.origin d = some (.derived s callable)) :
    h.origin d = some (.derived s callable) ∨ s ∈ api.futures := by
  have allocated {origin : Origin} (fresh : Function.update h.origin h.next (some origin) d =
      some (.derived s callable)) :
      h.origin d = some (.derived s callable) ∨ origin = .derived s callable := by
    by_cases same : d = h.next
    · rw [same, Function.update_self] at fresh
      exact Or.inr (Option.some.inj fresh)
    · rw [Function.update_of_ne same] at fresh
      exact Or.inl fresh
  cases api with
  | newPromise isVoid =>
    cases begun
    exact Or.inl ((allocated made).resolve_right nofun)
  | complete | destroyPromise =>
    obtain ⟨_, same⟩ := Option.ite_none_right_eq_some.mp begun
    cases same
    exact Or.inl made
  | «then» t isVoid =>
    obtain ⟨_, same⟩ := Option.ite_none_right_eq_some.mp begun
    cases same
    apply (allocated made).imp_right
    intro same
    cases same
    exact List.mem_cons_self
  | whenAll | whenAny =>
    obtain ⟨_, same⟩ := Option.ite_none_right_eq_some.mp begun
    cases same
    exact Or.inl ((allocated made).resolve_right nofun)

/-- A combinator registers closures with its inputs. -/
theorem begin_thenFunc {api : Api V ε} (begun : h.begin api = some (h', new))
    (inside : .thenFunc s callable ∈ new) : s ∈ api.futures := by
  cases api with
  | newPromise isVoid =>
    cases begun
    cases inside
  | complete t result =>
    obtain ⟨_, same⟩ := Option.ite_none_right_eq_some.mp begun
    cases result <;> cases same <;> simp at inside
  | destroyPromise =>
    obtain ⟨_, same⟩ := Option.ite_none_right_eq_some.mp begun
    cases same
    simp at inside
  | «then» =>
    obtain ⟨_, same⟩ := Option.ite_none_right_eq_some.mp begun
    cases same
    simp [Instr.thenCode] at inside
  | whenAll inputs =>
    obtain ⟨_, same⟩ := Option.ite_none_right_eq_some.mp begun
    cases same
    have listed : s ∈ inputs ∧ .release h.next = callable := by simpa using inside
    exact listed.1
  | whenAny inputs =>
    obtain ⟨_, same⟩ := Option.ite_none_right_eq_some.mp begun
    cases same
    have listed : s ∈ inputs ∧ .fire h.next = callable := by simpa using inside
    exact listed.1

end Runtime

variable {V ε : Type}

/-- The futures that the program hands to the library. -/
def PoolEvent.futures : PoolEvent V ε → List StateId
  | .call _ api => api.futures
  | .execute _ _ dependencies => dependencies
  | _ => []

/-- The code that an event puts on a stack, other than what follows a statement. -/
def PoolEvent.enters : PoolEvent V ε → PoolCode → Prop
  | .execute _ isVoid dependencies, c => c = .execute isVoid dependencies
  | .funcReturn _ _, c => ∃ task, c = .relock task
  | .destroy _, c => c = .shutdownNotifyThreads
  | _, _ => False

instance (s : StateId) : (c : PoolCode) → Decidable (c.makes s)
  | .makeTask _ _ dependency => inferInstanceAs (Decidable (dependency = s))
  | .execute _ _ | .whenAll _ _ | .emplaceBack _ | .getFuture _ | .threadLoop | .loop
  | .nextTask _ | .unlock _ | .call _ | .func _ | .relock _ | .notify _ _ | .release _ | .noTask
  | .waitFor | .shutdownNotifyThreads | .shutdownJoinThreads _ | .shutdownDestroyRemainingTasks =>
    inferInstanceAs (Decidable False)

section Statements

variable {pool pool' : Pool V ε} {h : Heap V ε} {workers thread woken : Nat} {c : PoolCode}
  {next : List PoolCode} {api : Option (Api V ε)} {s : StateId}

/-- A statement registers closures with the dependencies of a task only. -/
theorem Pool.Did.futures {call : Api V ε}
    (did : pool.Did h workers thread woken c pool' next (some call)) (inside : s ∈ call.futures) :
    s ∈ c.dependencies := by
  cases did with
  | whenAll => exact inside
  | makeTask | release | clears => cases inside

/-- The code that constructs a task does so. -/
theorem Pool.Did.constructs (did : pool.Did h workers thread woken c pool' next api)
    (makes : c.makes s) : ∃ task ∈ pool'.made, task.dependency = some s := by
  cases did with
  | @makeTask _ _ dependency task promise waits passed =>
    have same : dependency = s := makes
    exact ⟨task, List.mem_append_right _ (List.mem_singleton_self _), by rw [waits, same]⟩
  | _ => exact makes.elim

end Statements

namespace PoolConfig

/-- The state belongs to a future that the program is never handed. -/
def Private (σ : PoolConfig V ε) (s : StateId) : Prop :=
  σ.runtime.heap.isInner s = true ∨ σ.Joins s

instance (σ : PoolConfig V ε) (s : StateId) : Decidable (σ.Joins s) :=
  @instDecidableOr (∃ task ∈ σ.pool.made, task.dependency = some s)
    (∃ c ∈ poolCode σ.runtime.pending, c.makes s) inferInstance Multiset.decidableExistsMultiset

instance (σ : PoolConfig V ε) (s : StateId) : Decidable (σ.Private s) :=
  inferInstanceAs (Decidable (σ.runtime.heap.isInner s = true ∨ σ.Joins s))

/-- The program hands out futures that it was handed. -/
def Owns (σ : PoolConfig V ε) (event : PoolEvent V ε) : Prop :=
  ∀ s ∈ event.futures, s < σ.runtime.heap.next ∧ ¬ σ.Private s

instance (σ : PoolConfig V ε) (event : PoolEvent V ε) : Decidable (σ.Owns event) :=
  inferInstanceAs (Decidable (∀ s ∈ event.futures, s < σ.runtime.heap.next ∧ ¬ σ.Private s))

/-- A closure is registered with a state, or some code was told to register one. -/
def Uses (σ : PoolConfig V ε) (s : StateId) : Prop :=
  (∃ d callable, σ.runtime.heap.origin d = some (.derived s callable)) ∨
  (∃ callable, .thenFunc s callable ∈ σ.runtime.pending) ∨
  ∃ c ∈ poolCode σ.runtime.pending, s ∈ c.dependencies

/-- What is used is not private. -/
def Confined (σ : PoolConfig V ε) : Prop :=
  ∀ s, σ.Uses s → s < σ.runtime.heap.next ∧ ¬ σ.Private s

variable {workers : Nat} {σ σ' : PoolConfig V ε} {event : PoolEvent V ε} {s : StateId}
  {c : PoolCode}

/-! ## Private futures -/

/-- What a step does to the code of the pool and to the tasks. -/
inductive Course (workers : Nat) (σ σ' : PoolConfig V ε) (event : PoolEvent V ε) : Prop
  | statement {thread woken c next api} {rest : Multiset PoolCode}
      (did : σ.pool.Did σ.runtime.heap workers thread woken c σ'.pool next api)
      (before : poolCode σ.runtime.pending = c ::ₘ rest)
      (after : poolCode σ'.runtime.pending = (next : Multiset PoolCode) + rest)
  | quiet (made : σ'.pool.made = σ.pool.made)
      (came : ∀ c ∈ poolCode σ'.runtime.pending, c ∈ poolCode σ.runtime.pending ∨ event.enters c)
      (kept : ∀ c ∈ poolCode σ.runtime.pending, c ∈ poolCode σ'.runtime.pending ∨
        ∃ task, c = .func task)

/-- Code of the pool that is put on a stack. -/
theorem course_entry {thread : Nat} {base : List (Instr V ε PoolCode)}
    (replaced : Replaced σ.runtime σ'.runtime thread [] ([c].map .external) base)
    (made : σ'.pool.made = σ.pool.made) (entered : event.enters c) :
    Course workers σ σ' event := by
  apply Course.quiet made
  · intro c' pending
    apply (replaced.came (mem_poolCode.mp pending)).symm.imp mem_poolCode.mpr
    intro inside
    rw [Instr.external.inj (List.mem_singleton.mp inside)]
    exact entered
  · intro c' pending
    left
    exact mem_poolCode.mpr ((replaced.kept (mem_poolCode.mp pending)).resolve_left List.not_mem_nil)

/-- Every step takes such a course. -/
theorem Ok.course (ok : σ.Ok workers) (taken : σ.step workers event = some σ') :
    Course workers σ σ' event := by
  cases ok.stepped taken with
  | library disciplined running same step reason =>
    have foreign {x : Instr V ε PoolCode} {c : PoolCode} (library : x.code = none) :
        x ≠ .external c := (Staffed.library_plain library).2 c
    apply Course.quiet (congrArg Pool.made same)
    · intro c pending
      left
      apply mem_poolCode.mpr
      apply (step.replaced.came (mem_poolCode.mp pending)).resolve_left
      exact fun inside => foreign (step.spares.library _ inside) rfl
    · intro c pending
      left
      apply mem_poolCode.mpr
      apply (step.replaced.kept (mem_poolCode.mp pending)).resolve_left
      exact fun inside => foreign (step.own _ inside) rfl
  | statement found ran performed =>
    obtain ⟨code, replaced, same, begun⟩ := perform_statement found performed
    obtain ⟨rest, before, after⟩ := codes_replaced replaced begun.spares.library
    have did := Pool.run_did ran
    rw [← same] at did
    exact .statement did before after
  | @funcReturn thread task base result found performed =>
    obtain ⟨code, replaced, same, begun⟩ := perform_statement found performed
    obtain ⟨rest, before, after⟩ := codes_replaced replaced begun.spares.library
    apply Course.quiet (by rw [same])
    · intro c pending
      rw [after] at pending
      rw [before]
      cases Multiset.mem_add.mp pending with
      | inl new => exact Or.inr ⟨task, List.mem_singleton.mp (Multiset.mem_coe.mp new)⟩
      | inr old => exact Or.inl (Multiset.mem_cons_of_mem old)
    · intro c pending
      rw [before] at pending
      rw [after]
      cases Multiset.mem_cons.mp pending with
      | inl returns => exact Or.inr ⟨task, returns⟩
      | inr old => exact Or.inl (Multiset.mem_add.mpr (Or.inr old))
  | execute found control allowed performed =>
    obtain ⟨replaced, same, _⟩ := perform_entry found performed
    exact course_entry replaced (by rw [same]) rfl
  | destroy found control outside first idle performed =>
    obtain ⟨replaced, same, _⟩ := perform_entry found performed
    exact course_entry replaced (by rw [same]) rfl

/-- The future of a task's `WhenAll` stays one. -/
theorem Joins.kept (joins : σ.Joins s) (ok : σ.Ok workers)
    (taken : σ.step workers event = some σ') : σ'.Joins s := by
  cases joins with
  | inl task =>
    obtain ⟨task, made, waits⟩ := task
    exact Or.inl ⟨task, (ok.stepped taken).made made, waits⟩
  | inr code =>
    obtain ⟨c, pending, makes⟩ := code
    cases ok.course taken with
    | quiet made came kept =>
      right
      cases kept c pending with
      | inl still => exact ⟨c, still, makes⟩
      | inr returns =>
        obtain ⟨task, same⟩ := returns
        rw [same] at makes
        exact makes.elim
    | @statement thread woken c' next api rest did before after =>
      rw [before] at pending
      cases Multiset.mem_cons.mp pending with
      | inl same =>
        rw [same] at makes
        exact Or.inl (did.constructs makes)
      | inr still =>
        refine Or.inr ⟨c, ?_, makes⟩
        rw [after]
        exact Multiset.mem_add.mpr (Or.inr still)

/-- Only the next state becomes one. -/
theorem Joins.came (joins : σ'.Joins s) (ok : σ.Ok workers)
    (taken : σ.step workers event = some σ') : σ.Joins s ∨ s = σ.runtime.heap.next := by
  cases ok.course taken with
  | quiet made came kept =>
    left
    cases joins with
    | inl task =>
      rw [made] at task
      exact Or.inl task
    | inr code =>
      obtain ⟨c, pending, makes⟩ := code
      cases came c pending with
      | inl old => exact Or.inr ⟨c, old, makes⟩
      | inr entered =>
        cases event with
        | execute =>
          rw [show c = _ from entered] at makes
          exact makes.elim
        | funcReturn =>
          obtain ⟨task, same⟩ := entered
          rw [same] at makes
          exact makes.elim
        | destroy =>
          rw [show c = _ from entered] at makes
          exact makes.elim
        | _ => exact entered.elim
  | @statement thread woken c next api rest did before after =>
    have here : c ∈ poolCode σ.runtime.pending := by
      rw [before]
      exact Multiset.mem_cons_self _ _
    have split {c' : PoolCode} (pending : c' ∈ poolCode σ'.runtime.pending) :
        c' ∈ next ∨ c' ∈ poolCode σ.runtime.pending := by
      rw [after] at pending
      rw [before]
      exact (Multiset.mem_add.mp pending).imp Multiset.mem_coe.mp Multiset.mem_cons_of_mem
    cases joins with
    | inl task =>
      left
      obtain ⟨task, made, waits⟩ := task
      cases did.submitted with
      | joins same | other same =>
        rw [same] at made
        exact Or.inl ⟨task, made, waits⟩
      | @makes isVoid dependencies dependency fresh promise depends passed grown =>
        rw [grown] at made
        cases List.mem_append.mp made with
        | inl old => exact Or.inl ⟨task, old, waits⟩
        | inr new =>
          rw [List.mem_singleton.mp new, depends] at waits
          exact Or.inr ⟨_, here, Option.some.inj waits⟩
    | inr code =>
      obtain ⟨c', pending, makes⟩ := code
      cases split pending with
      | inr old => exact Or.inl (Or.inr ⟨c', old, makes⟩)
      | inl follows =>
        cases did.submitted with
        | joins =>
          rw [List.mem_singleton.mp follows] at makes
          exact Or.inr (Eq.symm makes)
        | makes =>
          rw [List.mem_singleton.mp follows] at makes
          exact makes.elim
        | other _ kept => exact absurd makes ((kept c' follows).2.1 s)

/-- A private future stays private. -/
theorem Private.kept (hidden : σ.Private s) (ok : σ.Ok workers)
    (taken : σ.step workers event = some σ') : σ'.Private s := by
  cases hidden with
  | inl inner =>
    left
    obtain ⟨t, callable, origin, other⟩ := Heap.isInner_iff.mp inner
    exact Heap.isInner_iff.mpr
      ⟨t, callable, (ok.later (ok.stepped taken)).origin s _ origin, other⟩
  | inr joins => exact Or.inr (joins.kept ok taken)

/-- A future that was there before does not become private. -/
theorem Private.old (hidden : σ'.Private s) (ok : σ.Ok workers)
    (taken : σ.step workers event = some σ') (before : s < σ.runtime.heap.next) :
    σ.Private s := by
  cases hidden with
  | inl inner =>
    left
    obtain ⟨t, callable, origin, other⟩ := Heap.isInner_iff.mp inner
    obtain ⟨made, was, _⟩ := (Config.ok ok.reached).inv.layout.allocated s before
    rw [(ok.later (ok.stepped taken)).origin s made was] at origin
    rw [Option.some.inj origin] at was
    exact Heap.isInner_iff.mpr ⟨t, callable, was, other⟩
  | inr joins =>
    cases joins.came ok taken with
    | inl was => exact Or.inr was
    | inr fresh =>
      rw [fresh] at before
      exact absurd before (Nat.lt_irrefl _)

/-! ## Who uses a future -/

/-- A library call of the pool derives states from the futures that it is given. -/
theorem begun_derived {h h' : Heap V ε} {api : Option (Api V ε)}
    {code : List (Instr V ε PoolCode)} (begun : Begun h api h' code) {d : StateId}
    {callable : Callable} (made : h'.origin d = some (.derived s callable)) :
    h.origin d = some (.derived s callable) ∨ ∃ call, api = some call ∧ s ∈ call.futures := by
  cases api with
  | none =>
    rw [begun.1] at made
    exact Or.inl made
  | some call => exact (begin_derived begun made).imp_right fun inside => ⟨call, rfl, inside⟩

theorem begun_thenFunc {h h' : Heap V ε} {api : Option (Api V ε)}
    {code : List (Instr V ε PoolCode)} (begun : Begun h api h' code) {callable : Callable}
    (inside : .thenFunc s callable ∈ code) : ∃ call, api = some call ∧ s ∈ call.futures := by
  cases api with
  | none =>
    rw [begun.2] at inside
    cases inside
  | some call => exact ⟨call, rfl, begin_thenFunc begun inside⟩

/-- A future comes to be used because the program hands it out. -/
theorem Ok.uses (ok : σ.Ok workers) (taken : σ.step workers event = some σ')
    (uses : σ'.Uses s) : σ.Uses s ∨ s ∈ event.futures := by
  have general {thread : Nat} {old new base : List (Instr V ε PoolCode)} {next : List PoolCode}
      (replaced : Replaced σ.runtime σ'.runtime thread old (new ++ next.map .external) base)
      (library : ∀ x ∈ new, x.code = none)
      (derives : ∀ d callable, σ'.runtime.heap.origin d = some (.derived s callable) →
        σ.Uses s ∨ s ∈ event.futures)
      (registers : ∀ callable, .thenFunc s callable ∈ new → σ.Uses s ∨ s ∈ event.futures)
      (names : ∀ c ∈ next, s ∈ c.dependencies → σ.Uses s ∨ s ∈ event.futures) :
      σ.Uses s ∨ s ∈ event.futures := by
    rcases uses with derived | registered | named
    · obtain ⟨d, callable, made⟩ := derived
      exact derives d callable made
    · obtain ⟨callable, pending⟩ := registered
      cases replaced.came pending with
      | inl come =>
        cases List.mem_append.mp come with
        | inl early => exact registers callable early
        | inr late =>
          obtain ⟨_, _, same⟩ := List.mem_map.mp late
          cases same
      | inr was => exact Or.inl (Or.inr (Or.inl ⟨callable, was⟩))
    · obtain ⟨c, pending, depends⟩ := named
      cases replaced.came (mem_poolCode.mp pending) with
      | inl come =>
        cases List.mem_append.mp come with
        | inl early => exact absurd rfl ((Staffed.library_plain (library _ early)).2 c)
        | inr late =>
          obtain ⟨c', listed, same⟩ := List.mem_map.mp late
          rw [← Instr.external.inj same] at depends
          exact names c' listed depends
      | inr was => exact Or.inl (Or.inr (Or.inr ⟨c, mem_poolCode.mpr was, depends⟩))
  have still {d : StateId} {callable : Callable}
      (made : σ.runtime.heap.origin d = some (.derived s callable)) :
      σ.Uses s ∨ s ∈ event.futures := Or.inl (Or.inl ⟨d, callable, made⟩)
  cases ok.stepped taken with
  | @library event below thread old new base disciplined running same step reason =>
    have replaced : Replaced σ.runtime σ'.runtime thread old
        (new ++ ([] : List PoolCode).map .external) base := by
      rw [List.map_nil, List.append_nil]
      exact step.replaced
    have found := step.replaced.found
    cases reason with
    | run x woken =>
      have executed := step.executed running
      have pending : x ∈ σ.runtime.pending :=
        Stacks.mem_pending.mpr ⟨_, List.mem_of_getElem? found, List.mem_cons_self⟩
      apply general replaced step.spares.library _ _ nofun
      · intro d callable made
        cases execute_derived executed made with
        | inl was => exact still was
        | inr same =>
          rw [same] at pending
          exact Or.inl (Or.inr (Or.inl ⟨callable, pending⟩))
      · exact fun callable inside => absurd inside (execute_thenFunc executed)
    | ret d result =>
      obtain ⟨heap, resolves⟩ := step.returned running
      apply general replaced step.spares.library _ _ nofun
      · intro e callable made
        rw [heap] at made
        exact still made
      · intro callable inside
        cases resolves with
        | inl value =>
          obtain ⟨value, one⟩ := value
          rw [one] at inside
          cases List.mem_singleton.mp inside
        | inr error =>
          obtain ⟨error, one⟩ := error
          rw [one] at inside
          cases List.mem_singleton.mp inside
    | call api control =>
      have begun := step.called running
      apply general replaced step.spares.library _ _ nofun
      · intro d callable made
        cases begin_derived begun made with
        | inl was => exact still was
        | inr given => exact Or.inr given
      · exact fun callable inside => Or.inr (begin_thenFunc begun inside)
  | @statement thread woken c base pool next api found ran performed =>
    obtain ⟨code, replaced, same, begun⟩ := perform_statement found performed
    have did := Pool.run_did ran
    have pending : c ∈ poolCode σ.runtime.pending := mem_poolCode.mpr
      (Stacks.mem_pending.mpr ⟨_, List.mem_of_getElem? found, List.mem_cons_self⟩)
    have given (call : ∃ call, api = some call ∧ s ∈ call.futures) : σ.Uses s := by
      obtain ⟨call, some, inside⟩ := call
      rw [some] at did
      exact Or.inr (Or.inr ⟨c, pending, did.futures inside⟩)
    apply general replaced begun.spares.library _ _ _
    · intro d callable made
      cases begun_derived begun made with
      | inl was => exact still was
      | inr call => exact Or.inl (given call)
    · exact fun callable inside => Or.inl (given (begun_thenFunc begun inside))
    · intro c' follows depends
      left
      cases did.submitted with
      | joins =>
        rw [List.mem_singleton.mp follows] at depends
        exact Or.inr (Or.inr ⟨_, pending, depends⟩)
      | makes =>
        rw [List.mem_singleton.mp follows] at depends
        cases depends
      | other _ kept => exact Or.inr (Or.inr ⟨c, pending, (kept c' follows).1 s depends⟩)
  | @funcReturn thread task base result found performed =>
    obtain ⟨code, replaced, same, begun⟩ := perform_statement found performed
    have nothing (call : ∃ call, some (Api.complete task.promise result) = some call ∧
        s ∈ call.futures) : False := by
      obtain ⟨call, same, inside⟩ := call
      rw [← Option.some.inj same] at inside
      cases inside
    apply general replaced begun.spares.library _ _ _
    · intro d callable made
      cases begun_derived begun made with
      | inl was => exact still was
      | inr call => exact (nothing call).elim
    · exact fun callable inside => (nothing (begun_thenFunc begun inside)).elim
    · intro c listed depends
      rw [List.mem_singleton.mp listed] at depends
      cases depends
  | @execute thread base isVoid dependencies found control allowed performed =>
    obtain ⟨replaced, same, heap⟩ := perform_entry found performed
    have entered : Replaced σ.runtime σ'.runtime thread []
        ([] ++ [PoolCode.execute isVoid dependencies].map .external) base := replaced
    apply general entered nofun _ nofun
    · intro c listed depends
      rw [List.mem_singleton.mp listed] at depends
      exact Or.inr depends
    · intro d callable made
      rw [heap] at made
      exact still made
  | @destroy thread base found control outside first idle performed =>
    obtain ⟨replaced, same, heap⟩ := perform_entry found performed
    have entered : Replaced σ.runtime σ'.runtime thread []
        ([] ++ [PoolCode.shutdownNotifyThreads].map .external) base := replaced
    apply general entered nofun _ nofun
    · intro c listed depends
      rw [List.mem_singleton.mp listed] at depends
      cases depends
    · intro d callable made
      rw [heap] at made
      exact still made

namespace Confined

/-- Every step of a program that hands out what it was handed keeps private futures private. -/
theorem step (confined : σ.Confined) (ok : σ.Ok workers) (owns : σ.Owns event)
    (taken : σ.step workers event = some σ') : σ'.Confined := by
  intro s uses
  have known : s < σ.runtime.heap.next ∧ ¬ σ.Private s := by
    cases ok.uses taken uses with
    | inl was => exact confined s was
    | inr given => exact owns s given
  obtain ⟨before, shown⟩ := known
  refine ⟨?_, fun hidden => shown (hidden.old ok taken before)⟩
  obtain ⟨made, was, _⟩ := (Config.ok ok.reached).inv.layout.allocated s before
  have still := (ok.later (ok.stepped taken)).origin s made was
  exact (Config.ok (ok.step taken).reached).inv.layout.lt_next still

/-- Nothing is attached to a private future. -/
theorem unlisted (confined : σ.Confined) (ok : σ.Ok workers) (hidden : σ.Private s) :
    (σ.runtime.heap.cell s).continuations = [] := by
  apply List.eq_nil_iff_forall_not_mem.mpr
  intro d listed
  obtain ⟨_, callable, made⟩ := (Config.ok ok.reached).inv.layout.listed s d listed
  exact (confined s (Or.inl ⟨d, callable, made⟩)).2 hidden

end Confined

/-- Nothing is used at the start. -/
theorem start_confined (outside : Nat) : (start workers outside : PoolConfig V ε).Confined := by
  intro s uses
  rcases uses with derived | registered | named
  · obtain ⟨d, callable, made⟩ := derived
    cases made
  · obtain ⟨callable, pending⟩ := registered
    obtain ⟨stack, member, inside⟩ := Stacks.mem_pending.mp pending
    obtain ⟨thread, found⟩ := List.getElem?_of_mem member
    cases start_stack found with
    | inl loop =>
      rw [loop.1] at inside
      cases List.mem_singleton.mp inside
    | inr empty =>
      rw [empty] at inside
      cases inside
  · obtain ⟨c, pending, depends⟩ := named
    rw [start_code pending] at depends
    cases depends

end PoolConfig

end Azul.Async
