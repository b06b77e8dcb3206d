import Azul.Async.RuntimeDecisions

/-!
# Activators and registrations

The state of a `WhenAll` is completed by the end of its activator, the state of a `WhenAny` by a
call of one of its closures. The first half of this module says what one step can do to owners,
releases and completions; the second half follows the invariant through these cases.
-/

namespace Azul.Async

open Foundation

variable {V ε X : Type} {h h' : Heap V ε} {P P' : Multiset (Instr V ε X)}

namespace Change

/-! ## What a step can do -/

/-- A state that is decided or about to be stays so. -/
theorem firing_kept (layout : Layout h P) (change : Change h P h' P') {s : StateId}
    (firing : Firing h P s) : Firing h' P' s := by
  rcases firing with decided | pending
  · exact Or.inl (change.decided_kept layout decided)
  · obtain ⟨x, inside, result, decision⟩ := Stacks.decidesOn_pos pending
    have fresh (grew : h.next < h'.next) : x ∈ P' :=
      ((change.allocates layout grew).mem_iff (by cases x <;> first | rfl | cases decision)).mpr
        inside
    have still (inside : x ∈ P') : Firing h' P' s :=
      Or.inr (Stacks.decidesOn_of_mem inside decision)
    have decided (decided : h.Decided s) : Firing h' P' s :=
      Or.inl (change.decided_kept layout decided)
    cases change
    case thenFunc | «then» | newPromise | whenAll | whenAny =>
      exact still (fresh (Nat.lt_succ_self _))
    case decide y t other now undecided =>
      rcases Multiset.mem_cons.mp inside with rfl | inside
      · cases decision.symm.trans now
        left
        rw [Heap.Decided, Heap.outcome_decide, if_pos rfl]
        simp
      · exact still (Multiset.mem_cons_of_mem inside)
    case skip y t other now before =>
      rcases Multiset.mem_cons.mp inside with rfl | inside
      · cases decision.symm.trans now
        exact decided before
      · exact still inside
    case throw t value error before =>
      rcases Multiset.mem_cons.mp inside with rfl | inside
      · cases decision
        exact decided before
      · exact still (Multiset.mem_cons_of_mem inside)
    case complete | destroyPromise => exact still (Multiset.mem_cons_of_mem inside)
    case enter => exact still (Multiset.mem_add.mpr (Or.inr inside))
    case destroyClosure =>
      rcases Multiset.mem_cons.mp inside with rfl | inside
      · cases decision
      · exact still (Multiset.mem_add.mpr (Or.inr inside))
    case walkNext | invokeRelease | invokeFire | clearNext =>
      rcases Multiset.mem_cons.mp inside with rfl | inside
      · cases decision
      · exact still (Multiset.mem_cons_of_mem (Multiset.mem_cons_of_mem inside))
    case walkEnd | clearEnd | storeClosure | releaseOther | leave =>
      rcases Multiset.mem_cons.mp inside with rfl | inside
      · cases decision
      · exact still inside
    all_goals
      rcases Multiset.mem_cons.mp inside with rfl | inside
      · cases decision
      · exact still (Multiset.mem_cons_of_mem inside)

/-- A combinator is about to complete its state because its activator ended or because one of its
closures was called. -/
theorem firing_new (layout : Layout h P) (change : Change h P h' P') {s : StateId}
    (unpromised : ¬ h.Promised s) (firing : Firing h' P' s) :
    Firing h P s ∨ (∃ owner, h.lastOwner s owner ∧ h'.owners s = ∅) ∨
    ∃ d a, h.origin d = some (.derived a (.fire s)) ∧ 0 < h'.invocations d := by
  have before (decided : h.Decided s) : Firing h P s := Or.inl decided
  have was {x : Instr V ε X} (inside : x ∈ P) {result : Result V ε}
      (decision : x.decision = some (s, result)) : Firing h P s :=
    Or.inr (Stacks.decidesOn_of_mem inside decision)
  have fresh (grew : h.next < h'.next) : Firing h P s := by
    have new := change.allocates layout grew
    rwa [Firing, Heap.Decided, new.outcome, new.count_decides] at firing
  rcases firing with decided | pending
  · left
    rcases change.decision_cases layout s with
      ⟨same, -⟩ | ⟨x, inside, result, decision, -⟩ | ⟨breaking, -⟩
    · rw [Heap.Decided, same] at decided
      exact before decided
    · exact was inside decision
    · exact absurd (layout.typed _ breaking) unpromised
  · obtain ⟨x, inside, result, decision⟩ := Stacks.decidesOn_pos pending
    have typed := layout.typed
    cases change
    case thenFunc | «then» | newPromise | whenAll | whenAny =>
      exact Or.inl (fresh (Nat.lt_succ_self _))
    case decide | runInline | invokeUser | breakPromise =>
      rcases Multiset.mem_cons.mp inside with rfl | inside
      · cases decision
      · exact Or.inl (was (Multiset.mem_cons_of_mem inside) decision)
    case throw t value error decided =>
      rcases Multiset.mem_cons.mp inside with rfl | inside
      · cases decision
        exact Or.inl (before decided)
      · exact Or.inl (was (Multiset.mem_cons_of_mem inside) decision)
    case invokeRelease d copy a all origin =>
      simp only [Multiset.mem_cons] at inside
      rcases inside with rfl | rfl | inside
      · cases decision
      · cases decision
        exact absurd (Or.inr ⟨a, _, origin⟩) unpromised
      · exact Or.inl (was (Multiset.mem_cons_of_mem inside) decision)
    case invokeFire d copy a any origin =>
      simp only [Multiset.mem_cons] at inside
      rcases inside with rfl | rfl | inside
      · cases decision
        exact Or.inr (Or.inr ⟨d, a, origin, by simp⟩)
      · cases decision
        exact absurd (Or.inr ⟨a, _, origin⟩) unpromised
      · exact Or.inl (was (Multiset.mem_cons_of_mem inside) decision)
    case callableEnd d other y handed resolves fits =>
      rcases Multiset.mem_cons.mp inside with rfl | inside
      · cases handed.symm.trans decision
        obtain ⟨a, made⟩ := typed _ (Multiset.mem_cons_self ..)
        exact absurd (Or.inr ⟨a, _, made⟩) unpromised
      · exact Or.inl (was (Multiset.mem_cons_of_mem inside) decision)
    case complete t other y origin handed direct fits live =>
      rcases Multiset.mem_cons.mp inside with rfl | inside
      · cases handed.symm.trans decision
        exact absurd (Or.inl origin) unpromised
      · exact Or.inl (was inside decision)
    case releaseLast all owner last =>
      rcases Multiset.mem_cons.mp inside with rfl | inside
      · cases decision
        exact Or.inr (Or.inl ⟨owner, last, (Function.update_self ..).trans last.2⟩)
      · exact Or.inl (was (Multiset.mem_cons_of_mem inside) decision)
    case destroyClosure d copy =>
      rcases Multiset.mem_add.mp inside with new | inside
      · rcases mem_dropped (Multiset.mem_coe.mp new) with ⟨-, rfl⟩ | ⟨_, _, -, rfl⟩ <;>
          cases decision
      · exact Or.inl (was (Multiset.mem_cons_of_mem inside) decision)
    case enter code =>
      rcases Multiset.mem_add.mp inside with new | inside
      · obtain ⟨c, -, rfl⟩ := List.mem_map.mp (Multiset.mem_coe.mp new)
        cases decision
      · exact Or.inl (was inside decision)
    case walkNext =>
      simp only [Multiset.mem_cons] at inside
      rcases inside with rfl | rfl | inside
      · cases decision
      · cases decision
      · exact Or.inl (was (Multiset.mem_cons_of_mem inside) decision)
    case clearNext =>
      rcases Multiset.mem_cons.mp inside with rfl | inside
      · cases decision
      · exact Or.inl (was inside decision)
    case destroyPromise =>
      rcases Multiset.mem_cons.mp inside with rfl | inside
      · cases decision
      · exact Or.inl (was inside decision)
    all_goals exact Or.inl (was (Multiset.mem_cons_of_mem inside) decision)

/-- A release stays pending until it is executed. -/
theorem release_kept (change : Change h P h' P') {all : StateId} {owner : Owner}
    (inside : .releaseActivator all owner ∈ P) :
    .releaseActivator all owner ∈ P' ∨ owner ∉ h'.owners all := by
  cases change
  case decide decision _ | skip decision _ =>
    rcases Multiset.mem_cons.mp inside with rfl | inside
    · cases decision
    · simp [inside]
  case releaseLast w o last | releaseOther w o other =>
    rcases Multiset.mem_cons.mp inside with same | inside
    · cases same
      simp
    · simp [inside]
  case thenFunc | «then» | newPromise | whenAll | whenAny | complete | destroyPromise | enter =>
    simp_all
  all_goals
    simp only [Multiset.mem_cons, reduceCtorEq, false_or] at inside
    simp [inside]

/-- A release becomes pending when a copy of a closure ends, when the closure is called, or when
`WhenAll` begins. -/
theorem release_new (change : Change h P h' P') {all : StateId} {owner : Owner}
    (inside : .releaseActivator all owner ∈ P') :
    .releaseActivator all owner ∈ P ∨
    (h.next < h'.next ∧ all = h.next ∧ ∀ d copy, owner ≠ .closure d copy) ∨
    ∃ d copy s, owner = .closure d copy ∧ h.origin d = some (.derived s (.release all)) ∧
      (.destroyClosure d copy ∈ P ∧ h' = h.dropCopy d copy ∨
        .invoke d copy ∈ P ∧ h'.invocations d = h.invocations d + 1) := by
  have was (inside : .releaseActivator all owner ∈ P) := Or.inl (b := (h.next < h'.next ∧
    all = h.next ∧ ∀ d copy, owner ≠ .closure d copy) ∨ ∃ d copy s, owner = .closure d copy ∧
      h.origin d = some (.derived s (.release all)) ∧
      (.destroyClosure d copy ∈ P ∧ h' = h.dropCopy d copy ∨
        .invoke d copy ∈ P ∧ h'.invocations d = h.invocations d + 1)) inside
  cases change
  case decide | throw | invokeUser | runInline | breakPromise | releaseLast =>
    simp only [Multiset.mem_cons, reduceCtorEq, false_or] at inside
    exact was (Multiset.mem_cons_of_mem inside)
  case walkNext | invokeFire =>
    simp only [Multiset.mem_cons, reduceCtorEq, false_or] at inside
    exact was (Multiset.mem_cons_of_mem inside)
  case clearNext =>
    simp only [Multiset.mem_cons, reduceCtorEq, false_or] at inside
    exact was (Multiset.mem_cons_of_mem inside)
  case invokeRelease d copy s w origin =>
    simp only [Multiset.mem_cons, reduceCtorEq, false_or] at inside
    rcases inside with same | inside
    · cases same
      exact Or.inr (Or.inr ⟨d, copy, s, rfl, origin, Or.inr ⟨Multiset.mem_cons_self .., by simp⟩⟩)
    · exact was (Multiset.mem_cons_of_mem inside)
  case callableEnd decision _ _ =>
    rcases Multiset.mem_cons.mp inside with rfl | inside
    · cases decision
    · exact was (Multiset.mem_cons_of_mem inside)
  case destroyClosure d copy =>
    rcases Multiset.mem_add.mp inside with new | inside
    · rcases mem_dropped (Multiset.mem_coe.mp new) with ⟨-, clash⟩ | ⟨s, w, origin, same⟩
      · cases clash
      · cases same
        exact Or.inr (Or.inr ⟨d, copy, s, rfl, origin, Or.inl ⟨Multiset.mem_cons_self .., rfl⟩⟩)
    · exact was (Multiset.mem_cons_of_mem inside)
  case thenFunc =>
    simp only [Instr.thenCode, Multiset.mem_add, Multiset.mem_coe, List.mem_cons, reduceCtorEq,
      List.not_mem_nil, false_or] at inside
    exact was (Multiset.mem_cons_of_mem inside)
  case «then» =>
    simp only [Instr.thenCode, Multiset.mem_add, Multiset.mem_coe, List.mem_cons, reduceCtorEq,
      List.not_mem_nil, false_or] at inside
    exact was inside
  case complete decision _ _ _ =>
    rcases Multiset.mem_cons.mp inside with rfl | inside
    · cases decision
    · exact was inside
  case destroyPromise =>
    simp only [Multiset.mem_cons, reduceCtorEq, false_or] at inside
    exact was inside
  case whenAll inputs valid =>
    simp only [Multiset.mem_add, Multiset.mem_coe, List.mem_append, List.mem_map, List.mem_cons,
      List.not_mem_nil, reduceCtorEq, and_false, exists_false, false_or, or_false] at inside
    rcases inside with (same | same) | inside
    · cases same
      exact Or.inr (Or.inl ⟨Nat.lt_succ_self _, rfl, by simp⟩)
    · cases same
      exact Or.inr (Or.inl ⟨Nat.lt_succ_self _, rfl, by simp⟩)
    · exact was inside
  case whenAny | enter =>
    simp only [Multiset.mem_add, Multiset.mem_coe, List.mem_map, reduceCtorEq, and_false,
      exists_false, false_or] at inside
    exact was inside
  case newPromise => exact was inside
  all_goals exact was (Multiset.mem_cons_of_mem inside)

/-- An owner of an activator stays until it is released. -/
theorem owners_kept (layout : Layout h P) (change : Change h P h' P') {all : StateId}
    {owner : Owner} (inside : owner ∈ h.owners all) :
    owner ∈ h'.owners all ∨ .releaseActivator all owner ∈ P := by
  cases change
  case releaseLast w o last | releaseOther w o other =>
    by_cases same : all = w ∧ owner = o
    · obtain ⟨rfl, rfl⟩ := same
      exact Or.inr (Multiset.mem_cons_self ..)
    · exact Or.inl (mem_update_erase.mpr ⟨inside, same⟩)
  case storeClosure | thenFunc | «then» => exact Or.inl (mem_shared.mpr (Or.inr inside))
  case whenAll inputs valid =>
    have old : all ≠ h.next := by
      rintro rfl
      rw [(layout.blank _ (Nat.le_refl _)).owners] at inside
      cases inside
    exact Or.inl (by simpa [old] using inside)
  all_goals exact Or.inl inside

/-- An activator gets a new owner when a closure that shares it is copied, or when `WhenAll`
begins. -/
theorem owners_new (change : Change h P h' P') {all : StateId} {owner : Owner}
    (inside : owner ∈ h'.owners all) :
    owner ∈ h.owners all ∨
    (h.next < h'.next ∧ all = h.next ∧ ∀ d copy, owner ≠ .closure d copy) ∨
    (∃ d s, owner = .closure d .listed ∧ h.origin d = some (.derived s (.release all)) ∧
      .registerThen d ∈ P ∧ .destroyClosure d .lambda ∈ P ∧
      h' = h.storeClosure s d (.release all) ((h.cell s).append d)) ∨
    (∃ s copy, owner = .closure h.next copy ∧ copy ≠ .listed ∧
      .releaseActivator all .funcVar ∈ P ∧
      h' = h.allocateThen s (.release all) true) := by
  cases change
  case storeClosure d s callable origin undecided lambda argument =>
    rcases mem_shared.mp inside with ⟨rfl, new⟩ | old
    · exact Or.inr (Or.inr (Or.inl ⟨d, s, Finset.mem_singleton.mp new, origin,
        Multiset.mem_cons_self .., Multiset.mem_cons_of_mem lambda, rfl⟩))
    · exact Or.inl old
  case releaseLast | releaseOther => exact Or.inl (mem_update_erase.mp inside).1
  case thenFunc s callable shared =>
    rcases mem_shared.mp inside with ⟨rfl, new⟩ | old
    · rcases Finset.mem_insert.mp new with rfl | new
      · exact Or.inr (Or.inr (Or.inr ⟨s, .lambda, rfl, by simp,
          Multiset.mem_cons_of_mem (shared all rfl), rfl⟩))
      · rw [Finset.mem_singleton.mp new]
        exact Or.inr (Or.inr (Or.inr ⟨s, .argument, rfl, by simp,
          Multiset.mem_cons_of_mem (shared all rfl), rfl⟩))
    · exact Or.inl old
  case «then» =>
    rcases mem_shared.mp inside with ⟨clash, -⟩ | old
    · cases clash
    · exact Or.inl old
  case whenAll inputs valid =>
    by_cases same : all = h.next
    · refine Or.inr (Or.inl ⟨Nat.lt_succ_self _, same, ?_⟩)
      rintro d copy rfl
      simp [same] at inside
    · exact Or.inl (by simpa [same] using inside)
  all_goals exact Or.inl inside

/-- A combinator registers what it has announced. -/
theorem thenFunc_kept (change : Change h P h' P') {s : StateId} {callable : Callable}
    (inside : .thenFunc s callable ∈ P) :
    .thenFunc s callable ∈ P' ∨ ∃ d, h'.origin d = some (.derived s callable) := by
  cases change
  case decide decision _ | skip decision _ =>
    rcases Multiset.mem_cons.mp inside with rfl | inside
    · cases decision
    · simp [inside]
  case thenFunc t func shared =>
    rcases Multiset.mem_cons.mp inside with same | inside
    · cases same
      exact Or.inr ⟨h.next, Function.update_self ..⟩
    · simp [inside]
  case «then» | newPromise | whenAll | whenAny | complete | destroyPromise | enter => simp [inside]
  all_goals
    simp only [Multiset.mem_cons, reduceCtorEq, false_or] at inside
    simp [inside]

/-- A copy of a closure stays until it is destroyed, and takes its share of an activator along. -/
theorem copies_kept (layout : Layout h P) (change : Change h P h' P') {d : StateId} {copy : Copy}
    (live : copy ∈ h.copies d) :
    copy ∈ h'.copies d ∨ ∀ s all, h.origin d = some (.derived s (.release all)) →
      .releaseActivator all (.closure d copy) ∈ P' := by
  have fresh (grew : h.next < h'.next) : copy ∈ h'.copies d := by
    have old : d ≠ h.next := by
      rintro rfl
      simp [(layout.blank _ (Nat.le_refl _)).copies] at live
    rw [(change.allocates layout grew).copies d old]
    exact live
  cases change
  case thenFunc | «then» | newPromise | whenAll | whenAny =>
    exact Or.inl (fresh (Nat.lt_succ_self _))
  case destroyClosure e other =>
    by_cases same : d = e ∧ copy = other
    · obtain ⟨rfl, rfl⟩ := same
      refine Or.inr fun s all origin => Multiset.mem_add.mpr (Or.inl (Multiset.mem_coe.mpr ?_))
      simp [Heap.releaseCallable, origin]
    · exact Or.inl (mem_update_erase.mpr ⟨live, same⟩)
  case storeClosure => exact Or.inl (mem_update_insert.mpr (Or.inl live))
  all_goals exact Or.inl live

/-- A copy of a closure is made by `Future::Then`. -/
theorem copies_gain (layout : Layout h P) (change : Change h P h' P') {d : StateId} {copy : Copy}
    (live : copy ∈ h'.copies d) :
    copy ∈ h.copies d ∨ h.next < h'.next ∧ d = h.next ∨ copy = .listed ∧ .registerThen d ∈ P := by
  have fresh (grew : h.next < h'.next) : copy ∈ h.copies d ∨ h.next < h'.next ∧ d = h.next := by
    by_cases same : d = h.next
    · exact Or.inr ⟨grew, same⟩
    · exact Or.inl ((change.allocates layout grew).copies d same ▸ live)
  cases change
  case thenFunc | «then» | newPromise | whenAll | whenAny =>
    exact (fresh (Nat.lt_succ_self _)).imp_right Or.inl
  case destroyClosure => exact Or.inl (mem_update_erase.mp live).1
  case storeClosure e s callable origin undecided lambda argument =>
    rcases mem_update_insert.mp live with old | ⟨rfl, rfl⟩
    · exact Or.inl old
    · exact Or.inr (Or.inr ⟨rfl, Multiset.mem_cons_self ..⟩)
  all_goals exact Or.inl live

/-- A closure is called by an `invoke`, which releases what its callable captured. -/
theorem invocations_cases (layout : Layout h P) (change : Change h P h' P') (d : StateId) :
    h'.invocations d = h.invocations d ∨ ∃ copy, .invoke d copy ∈ P ∧
      h'.invocations d = h.invocations d + 1 ∧
      (∀ s all, h.origin d = some (.derived s (.release all)) →
        .releaseActivator all (.closure d copy) ∈ P') ∧
      ∀ s any, h.origin d = some (.derived s (.fire any)) → .setValue any .void ∈ P' := by
  have fresh (grew : h.next < h'.next) : h'.invocations d = h.invocations d := by
    rw [(change.allocates layout grew).invocations]
  cases change
  case thenFunc | «then» | newPromise | whenAll | whenAny =>
    exact Or.inl (fresh (Nat.lt_succ_self _))
  case invokeUser e copy a origin | invokeRelease e copy a w origin |
      invokeFire e copy a any origin =>
    by_cases same : d = e
    · subst same
      refine Or.inr ⟨copy, Multiset.mem_cons_self .., by simp, fun s all made => ?_,
        fun s any made => ?_⟩
      all_goals
        cases origin.symm.trans made
        try exact Multiset.mem_cons_self ..
    · exact Or.inl (Function.update_of_ne same ..)
  all_goals exact Or.inl rfl

/-- A closure is stored when it is registered. -/
theorem appended_cases (layout : Layout h P) (change : Change h P h' P') (d : StateId) :
    h'.appended d = h.appended d ∨ .registerThen d ∈ P ∧ h'.appended d = true := by
  have fresh (grew : h.next < h'.next) : h'.appended d = h.appended d := by
    rw [(change.allocates layout grew).appended]
  cases change
  case thenFunc | «then» | newPromise | whenAll | whenAny =>
    exact Or.inl (fresh (Nat.lt_succ_self _))
  case storeClosure e s callable origin undecided lambda argument =>
    by_cases same : d = e
    · subst same
      exact Or.inr ⟨Multiset.mem_cons_self .., by simp⟩
    · exact Or.inl (Function.update_of_ne same ..)
  all_goals exact Or.inl rfl

/-- A closure is listed when it is stored, together with its share of an activator. -/
theorem lists_new (layout : Layout h P) (change : Change h P h' P') {s d : StateId}
    (inside : d ∈ (h'.cell s).continuations) :
    d ∈ (h.cell s).continuations ∨
    ∀ t all, h'.origin d = some (.derived t (.release all)) →
      .closure d .listed ∈ h'.owners all := by
  have fresh (grew : h.next < h'.next) : d ∈ (h.cell s).continuations := by
    rwa [(change.allocates layout grew).cell] at inside
  cases change
  case thenFunc | «then» | newPromise | whenAll | whenAny =>
    exact Or.inl (fresh (Nat.lt_succ_self _))
  case decide | breakPromise =>
    rw [FutureState.continuations_update_same (by simp)] at inside
    exact Or.inl inside
  case clearNext found =>
    rw [FutureState.continuations_update] at inside
    split at inside
    · subst s
      exact Or.inl (by simp [found, inside])
    · exact Or.inl inside
  case storeClosure e a callable origin undecided lambda argument =>
    by_cases same : d = e
    · subst same
      refine Or.inr fun t all made => mem_shared.mpr (Or.inl ⟨?_, Finset.mem_singleton_self _⟩)
      cases origin.symm.trans made
      rfl
    · left
      rw [FutureState.continuations_update] at inside
      split at inside
      · subst s
        simpa [same] using inside
      · exact inside
  all_goals exact Or.inl inside

/-- What a new state starts with. -/
theorem fresh_cases (change : Change h P h' P') (grew : h.next < h'.next) :
    h'.origin h.next = some .promise ∨
    (∃ s callable, h'.origin h.next = some (.derived s callable) ∧
      ∀ all, callable = .release all → .closure h.next .lambda ∈ h'.owners all) ∨
    (∃ inputs, h'.origin h.next = some (.whenAll inputs) ∧ .activatorVar ∈ h'.owners h.next ∧
      ∀ s ∈ inputs, .thenFunc s (.release h.next) ∈ P') ∨
    ∃ inputs, h'.origin h.next = some (.whenAny inputs) ∧
      ∀ s ∈ inputs, .thenFunc s (.fire h.next) ∈ P' := by
  cases change
  case newPromise => exact Or.inl (Function.update_self ..)
  case thenFunc s callable shared =>
    refine Or.inr (Or.inl ⟨s, callable, Function.update_self .., fun all same => ?_⟩)
    exact mem_shared.mpr (Or.inl ⟨same, Finset.mem_insert_self ..⟩)
  case «then» s isVoid valid =>
    exact Or.inr (Or.inl ⟨s, .user, Function.update_self .., fun all same => by cases same⟩)
  case whenAll inputs valid =>
    refine Or.inr (Or.inr (Or.inl ⟨inputs, Function.update_self .., by simp, fun s inside => ?_⟩))
    simp [inside]
  case whenAny inputs valid =>
    refine Or.inr (Or.inr (Or.inr ⟨inputs, Function.update_self .., fun s inside => ?_⟩))
    simp [inside]
  all_goals exact absurd grew (Nat.lt_irrefl _)

/-- The last release completes the state. -/
theorem owners_last (layout : Layout h P) (change : Change h P h' P') {all : StateId}
    (held : h.owners all ≠ ∅) (gone : h'.owners all = ∅) : .setValue all .void ∈ P' := by
  obtain ⟨owner, inside⟩ := Finset.nonempty_iff_ne_empty.mpr held
  have dropped : owner ∉ h'.owners all := by simp [gone]
  cases change
  case releaseLast w o last =>
    by_cases same : all = w
    · exact same ▸ Multiset.mem_cons_self ..
    · exact absurd (mem_update_erase.mpr ⟨inside, fun both => same both.1⟩) dropped
  case releaseOther w o other =>
    by_cases same : all = w
    · subst same
      have empty : (h.owners all).erase o = ∅ := by simpa using gone
      by_cases member : o ∈ h.owners all
      · exact absurd ⟨member, empty⟩ other
      · rw [Finset.erase_eq_of_notMem member] at empty
        exact absurd empty held
    · exact absurd (mem_update_erase.mpr ⟨inside, fun both => same both.1⟩) dropped
  case storeClosure | thenFunc | «then» =>
    exact absurd (mem_shared.mpr (Or.inr inside)) dropped
  case whenAll inputs valid =>
    have old : all ≠ h.next := by
      rintro rfl
      simp [(layout.blank _ (Nat.le_refl _)).owners] at held
    exact absurd inside (by simpa [old] using dropped)
  all_goals exact absurd inside dropped

end Change

/-- An instruction that is about to complete a state releases nothing. -/
theorem Instr.isRelease_of_decision {x : Instr V ε X} {decided : StateId × Result V ε}
    (decision : x.decision = some decided) (all : StateId) (owner : Owner) :
    x.isRelease all owner = false := by
  cases x <;> first | rfl | simp [Instr.decision] at decision

namespace Change

/-! ## Activators -/

/-- The locals of `WhenAll` are released once. -/
theorem locals (inv : Inv h P) (change : Change h P h' P') :
    ∀ all inputs, h'.origin all = some (.whenAll inputs) → ∀ owner,
      (∀ d copy, owner ≠ .closure d copy) →
      Stacks.count P' (Instr.isRelease all owner) = if owner ∈ h'.owners all then 1 else 0 := by
  intro all inputs made owner unshared
  have was (made : h.origin all = some (.whenAll inputs)) :=
    inv.activators.locals all inputs made owner unshared
  have unclosed (d : StateId) (copy : Copy) : (Owner.closure d copy == owner) = false :=
    beq_eq_false_iff_ne.mpr (Ne.symm (unshared d copy))
  have fresh (grew : h.next < h'.next) (old : all ≠ h.next) :
      h.origin all = some (.whenAll inputs) :=
    ((change.allocates inv.layout grew).origin all old).symm.trans made
  have grows := change.extends.next
  cases change
  case decide decision _ | skip decision _ | callableEnd decision _ _ | complete decision _ _ _ =>
    have was := was made
    simp only [Stacks.count_cons, Instr.isRelease_of_decision decision] at was ⊢
    simpa [Instr.isRelease] using was
  case destroyClosure d copy =>
    have was := was made
    have quiet : ((if h.lastCopy d copy then [.aboutToDestroyPromise d] else []) ++
        h.releaseCallable d copy : List (Instr V ε X)).countP (Instr.isRelease all owner) = 0 := by
      refine List.countP_eq_zero.mpr fun x inside => ?_
      rcases mem_dropped inside with ⟨-, rfl⟩ | ⟨_, w, -, rfl⟩
      · simp [Instr.isRelease]
      · simp [Instr.isRelease, unclosed]
    rw [Stacks.count_add, Stacks.count_coe, quiet]
    simpa [Instr.isRelease] using was
  case invokeRelease d copy s w origin =>
    simpa [Instr.isRelease, unclosed] using was made
  case storeClosure d s callable origin undecided lambda argument =>
    have same : owner ∈ (h.storeClosure s d callable ((h.cell s).append d)).owners all ↔
        owner ∈ h.owners all := by
      refine mem_shared.trans ?_
      simp [unshared]
    simp only [same]
    simpa [Instr.isRelease] using was made
  case releaseLast w o last | releaseOther w o other =>
    have was := was made
    simp only [Stacks.count_cons, Instr.isRelease, Bool.and_eq_true, beq_iff_eq,
      mem_update_erase] at was ⊢
    by_cases same : w = all ∧ o = owner
    · obtain ⟨rfl, rfl⟩ := same
      by_cases held : o ∈ h.owners w
      · simp [held] at was
        simp [was]
      · simp [held] at was
    · have apart : ¬ (all = w ∧ owner = o) := fun flipped => same ⟨flipped.1.symm, flipped.2.symm⟩
      simpa [same, apart] using was
  case thenFunc s callable shared =>
    by_cases old : all = h.next
    · subst old
      cases (Function.update_self ..).symm.trans made
    · have was := was (fresh (Nat.lt_succ_self _) old)
      have same : owner ∈ (h.allocateThen s callable true).owners all ↔
          owner ∈ h.owners all := by
        refine mem_shared.trans ?_
        simp [unshared]
      simp only [same]
      simpa [Instr.isRelease, Instr.thenCode] using was
  case «then» =>
    by_cases old : all = h.next
    · subst old
      cases (Function.update_self ..).symm.trans made
    · simpa [Instr.isRelease, Instr.thenCode] using was (fresh (Nat.lt_succ_self _) old)
  case newPromise =>
    by_cases old : all = h.next
    · subst old
      cases (Function.update_self ..).symm.trans made
    · exact was (fresh (Nat.lt_succ_self _) old)
  case whenAny =>
    by_cases old : all = h.next
    · subst old
      cases (Function.update_self ..).symm.trans made
    · rw [Stacks.count_add, Stacks.count_coe]
      simpa [List.countP_map, Function.comp_def, Instr.isRelease] using
        was (fresh (Nat.lt_succ_self _) old)
  case whenAll inputs valid =>
    rw [Stacks.count_add, Stacks.count_coe, List.countP_append, List.countP_map]
    by_cases old : all = h.next
    · subst old
      have none : Stacks.count P (Instr.isRelease h.next owner) = 0 :=
        inv.layout.count_fresh fun x holds typed => by
          cases x <;>
            simp only [Instr.isRelease, Bool.and_eq_true, beq_iff_eq, Bool.false_eq_true] at holds
          obtain ⟨⟨inputs, made⟩, -⟩ := typed
          exact Nat.lt_irrefl _ (inv.layout.lt_next (holds.1 ▸ made))
      cases owner with
      | activatorVar => simp [Function.comp_def, Instr.isRelease, none]
      | funcVar => simp [Function.comp_def, Instr.isRelease, none]
      | closure d copy => exact absurd rfl (unshared d copy)
    · have was := was (fresh (Nat.lt_succ_self _) old)
      simpa [Function.comp_def, Instr.isRelease, old, Ne.symm old] using was
  case enter code =>
    rw [count_external fun _ => rfl]
    exact was made
  all_goals simpa [Instr.isRelease] using was made

end Change

namespace Counts

/-- A closure that is being registered is not stored and was not called. -/
theorem registering (counts : Counts h P) {d s : StateId} {callable : Callable}
    (made : h.origin d = some (.derived s callable)) (inside : .registerThen d ∈ P) :
    h.appended d = false ∧ h.invocations d = 0 := by
  have positive : 0 < Stacks.count P (Instr.isRegister d) :=
    Stacks.count_pos.mpr ⟨_, inside, by simp [Instr.isRegister]⟩
  have unstored : h.appended d = false := by
    by_contra stored
    have none := (counts.stored d s callable made (by simpa using stored)).2.2
    omega
  have once := (counts.inline d s callable made unstored).1
  exact ⟨unstored, by omega⟩

/-- The copy of a closure that is called is the stored one exactly when the closure is stored. -/
theorem invoking (counts : Counts h P) {d s : StateId} {callable : Callable} {copy : Copy}
    (made : h.origin d = some (.derived s callable)) (inside : .invoke d copy ∈ P)
    (called : copy ≠ .lambda) : copy = .listed ↔ h.appended d = true := by
  have positive : 0 < Stacks.count P (Instr.isInvoke d copy) :=
    Stacks.count_pos.mpr ⟨_, inside, by simp [Instr.isInvoke]⟩
  constructor
  · rintro rfl
    by_contra unstored
    have none := (counts.inline d s callable made (by simpa using unstored)).2.1
    omega
  · intro stored
    have none := (counts.stored d s callable made stored).2.1
    cases copy with
    | lambda => exact absurd rfl called
    | argument => omega
    | listed => rfl

end Counts

namespace Change

/-- A share of an activator belongs to a live copy of a closure or is being released. -/
theorem alive (inv : Inv h P) (change : Change h P h' P') :
    ∀ all d copy, .closure d copy ∈ h'.owners all →
      copy ∈ h'.copies d ∨ .releaseActivator all (.closure d copy) ∈ P' := by
  intro all d copy inside
  rcases change.owners_new inside with
    old | ⟨-, -, unshared⟩ | ⟨e, s, same, origin, -, -, rfl⟩ | ⟨s, c, same, unlisted, -, rfl⟩
  · rcases inv.activators.alive all d copy old with live | releasing
    · obtain ⟨s, made⟩ := (inv.layout.owners all _ old).2 d copy rfl
      exact (change.copies_kept inv.layout live).imp_right fun released => released s all made
    · exact (change.release_kept releasing).symm.imp_left fun gone => absurd inside gone
  · exact absurd rfl (unshared d copy)
  · cases same
    exact Or.inl (by simp)
  · cases same
    left
    cases copy with
    | listed => exact absurd rfl unlisted
    | lambda => simp
    | argument => simp

/-- A stored closure holds its share of an activator until it is called. -/
theorem uncalled (inv : Inv h P) (change : Change h P h' P') :
    ∀ all d, .closure d .listed ∈ h'.owners all → h'.appended d = true ∧
      (h'.invocations d = 0 ∨ .releaseActivator all (.closure d .listed) ∈ P') := by
  intro all d inside
  rcases change.owners_new inside with
    old | ⟨-, -, unshared⟩ | ⟨e, s, same, origin, registering, -, rfl⟩ | ⟨s, c, same, unlisted, -⟩
  · obtain ⟨s, made⟩ := (inv.layout.owners all _ old).2 d .listed rfl
    obtain ⟨stored, waiting⟩ := inv.activators.uncalled all d old
    refine ⟨?_, ?_⟩
    · rcases change.appended_cases inv.layout d with same | ⟨-, now⟩
      · exact same.trans stored
      · exact now
    · rcases waiting with none | releasing
      · rcases change.invocations_cases inv.layout d with same | ⟨copy, calling, -, released, -⟩
        · exact Or.inl (same.trans none)
        · have listed := (inv.counts.invoking made calling
            (inv.layout.typed _ calling).1).mpr stored
          exact Or.inr (listed ▸ released s all made)
      · exact (change.release_kept releasing).symm.imp_left fun gone => absurd inside gone
  · exact absurd rfl (unshared d .listed)
  · cases same
    exact ⟨by simp, Or.inl (inv.counts.registering origin registering).2⟩
  · cases same
    exact absurd rfl unlisted

/-- The local closure of `Future::Then` releases its share of an activator when it ends. -/
theorem releasedLambda (inv : Inv h P) (change : Change h P h' P') :
    ∀ all d, .releaseActivator all (.closure d .lambda) ∈ P' → .lambda ∉ h'.copies d := by
  intro all d inside live
  rcases change.release_new inside with
    was | ⟨-, -, unshared⟩ | ⟨e, copy, s, same, origin, ⟨-, rfl⟩ | ⟨calling, -⟩⟩
  · rcases change.copies_gain inv.layout live with old | ⟨-, rfl⟩ | ⟨clash, -⟩
    · exact inv.activators.releasedLambda all d was old
    · obtain ⟨-, closures⟩ := inv.layout.typed _ was
      obtain ⟨s, made⟩ := closures _ _ rfl
      exact inv.layout.not_derived_next ⟨s, _, made⟩
    · cases clash
  · exact absurd rfl (unshared d .lambda)
  · cases same
    simp at live
  · cases same
    exact (inv.layout.typed _ calling).1 rfl

/-- A stored closure releases its share of an activator when it is called or destroyed. -/
theorem releasedListed (inv : Inv h P) (change : Change h P h' P') :
    ∀ all d, .releaseActivator all (.closure d .listed) ∈ P' →
      h'.appended d = true ∧ (.listed ∉ h'.copies d ∨ 0 < h'.invocations d) := by
  intro all d inside
  have stays (stored : h.appended d = true) : h'.appended d = true := by
    rcases change.appended_cases inv.layout d with same | ⟨-, now⟩
    · exact same.trans stored
    · exact now
  rcases change.release_new inside with
    was | ⟨-, -, unshared⟩ | ⟨e, copy, s, same, origin, ⟨dropping, rfl⟩ | ⟨calling, called⟩⟩
  · obtain ⟨stored, gone⟩ := inv.activators.releasedListed all d was
    obtain ⟨s, made⟩ := (inv.layout.typed _ was).2 _ _ rfl
    refine ⟨stays stored, gone.imp (fun gone live => ?_) fun called => ?_⟩
    · rcases change.copies_gain inv.layout live with old | ⟨-, rfl⟩ | ⟨-, registering⟩
      · exact gone old
      · exact inv.layout.not_derived_next ⟨s, _, made⟩
      · rw [(inv.counts.registering made registering).1] at stored
        cases stored
    · rcases change.invocations_cases inv.layout d with same | ⟨-, -, now, -⟩
      · exact same ▸ called
      · omega
  · exact absurd rfl (unshared d .listed)
  · cases same
    refine ⟨stays ?_, Or.inl (by simp)⟩
    by_contra unstored
    exact inv.counts.unlisted d (by simpa using unstored) (inv.counts.copy_live origin dropping)
  · cases same
    have stored := (inv.counts.invoking origin calling (by simp)).mp rfl
    exact ⟨stays stored, Or.inr (by omega)⟩

/-- The local closure of `Future::Then` holds its share of an activator while it lives. -/
theorem lambda (inv : Inv h P) (change : Change h P h' P') :
    ∀ d s all, h'.origin d = some (.derived s (.release all)) → .lambda ∈ h'.copies d →
      .closure d .lambda ∈ h'.owners all := by
  intro d s all made live
  rcases change.copies_gain inv.layout live with old | ⟨grew, rfl⟩ | ⟨clash, -⟩
  · have allocated : d < h.next := by
      by_contra beyond
      simp [(inv.layout.blank d (Nat.le_of_not_lt beyond)).copies] at old
    rw [change.extends.origin d allocated] at made
    have held := inv.activators.lambda d s all made old
    rcases change.owners_kept inv.layout held with kept | releasing
    · exact kept
    · exact absurd old (inv.activators.releasedLambda all d releasing)
  · rcases change.fresh_cases grew with
      clash | ⟨t, callable, origin, shares⟩ | ⟨_, clash, -⟩ | ⟨_, clash, -⟩
    · cases clash.symm.trans made
    · cases origin.symm.trans made
      exact shares all rfl
    · cases clash.symm.trans made
    · cases clash.symm.trans made
  · cases clash

/-- A listed closure that was not called holds its share of an activator. -/
theorem listedOwner (inv : Inv h P) (change : Change h P h' P') :
    ∀ d s all, h'.origin d = some (.derived s (.release all)) →
      d ∈ (h'.cell s).continuations → h'.invocations d = 0 →
      .closure d .listed ∈ h'.owners all := by
  intro d s all made inside uncalled
  rcases change.lists_new inv.layout inside with old | new
  · obtain ⟨-, callable, origin⟩ := inv.layout.listed s d old
    cases (inv.layout.origin_kept change.extends origin).symm.trans made
    have before : h.invocations d = 0 := by
      rcases change.invocations_cases inv.layout d with same | ⟨-, -, now, -⟩
      · exact same ▸ uncalled
      · omega
    have held := inv.activators.listed d s all origin old before
    rcases change.owners_kept inv.layout held with kept | releasing
    · exact kept
    · rcases (inv.activators.releasedListed all d releasing).2 with gone | called
      · exact absurd (inv.counts.listed_live origin old) gone
      · omega
  · exact new s all made

/-- Nothing decides or is about to decide a state that is not allocated. -/
theorem not_firing_next (layout : Layout h P) (change : Change h P h' P')
    (grew : h.next < h'.next) : ¬ Firing h' P' h.next := by
  have new := change.allocates layout grew
  rintro (decided | pending)
  · rw [Heap.Decided, new.outcome, Heap.outcome, (layout.blank _ (Nat.le_refl _)).cell] at decided
    exact decided rfl
  · rw [new.count_decides, Allocates.count_decides_next layout] at pending
    exact Nat.lt_irrefl _ pending

/-- The maker of a state was known before, or the state is new. -/
theorem origin_cases (layout : Layout h P) (change : Change h P h' P') {s : StateId}
    {origin : Origin} (made : h'.origin s = some origin) :
    h.origin s = some origin ∨ h.next < h'.next ∧ s = h.next := by
  by_cases grew : h.next < h'.next
  · have made := (change.allocates layout grew).old_or_new made
    exact made.symm.imp And.right fun same => ⟨grew, same⟩
  · exact Or.inl (change.origin_stays grew ▸ made)

end Change

/-- The state of a `WhenAll` has no promise. -/
theorem Heap.not_promised_whenAll {all : StateId} {inputs : List StateId}
    (made : h.origin all = some (.whenAll inputs)) : ¬ h.Promised all := by
  rintro (clash | ⟨_, _, clash⟩) <;> cases made.symm.trans clash

/-- The state of a `WhenAny` has no promise. -/
theorem Heap.not_promised_whenAny {any : StateId} {inputs : List StateId}
    (made : h.origin any = some (.whenAny inputs)) : ¬ h.Promised any := by
  rintro (clash | ⟨_, _, clash⟩) <;> cases made.symm.trans clash

/-- A live local of `WhenAll` is released by something pending. -/
theorem Activators.local_held (activators : Activators h P) {all : StateId} {inputs : List StateId}
    (made : h.origin all = some (.whenAll inputs)) {owner : Owner}
    (unshared : ∀ d copy, owner ≠ .closure d copy) (inside : .releaseActivator all owner ∈ P) :
    owner ∈ h.owners all := by
  by_contra gone
  have none := activators.locals all inputs made owner unshared
  rw [if_neg gone, Stacks.count_eq_zero] at none
  simpa [Instr.isRelease] using none _ inside

namespace Change

/-- A completed `WhenAll` has no activator any more. -/
theorem activatorFired (inv : Inv h P) (change : Change h P h' P') :
    ∀ all inputs, h'.origin all = some (.whenAll inputs) → Firing h' P' all →
      h'.owners all = ∅ := by
  intro all inputs made firing
  rcases change.origin_cases inv.layout made with origin | ⟨grew, rfl⟩
  · rcases change.firing_new inv.layout (Heap.not_promised_whenAll origin) firing with
      before | ⟨-, -, now⟩ | ⟨d, a, fires, -⟩
    · have gone := inv.activators.fired all inputs origin before
      refine Finset.eq_empty_of_forall_notMem fun owner inside => ?_
      rcases change.owners_new inside with
        old | ⟨-, rfl, -⟩ | ⟨d, s, -, derived, -, holding, -⟩ | ⟨s, copy, -, -, holding, -⟩
      · simp [gone] at old
      · exact Nat.lt_irrefl _ (inv.layout.lt_next origin)
      · have held := inv.activators.lambda d s all derived (inv.counts.copy_live derived holding)
        simp [gone] at held
      · have held := inv.activators.local_held origin (by simp) holding
        simp [gone] at held
    · exact now
    · obtain ⟨-, ⟨_, clash, -⟩, -⟩ := inv.layout.originOk fires
      cases origin.symm.trans clash
  · exact absurd firing (change.not_firing_next inv.layout grew)

/-- The end of an activator completes the state of its `WhenAll`. -/
theorem ended (inv : Inv h P) (change : Change h P h' P') :
    ∀ all inputs, h'.origin all = some (.whenAll inputs) → h'.owners all = ∅ →
      Firing h' P' all := by
  intro all inputs made gone
  rcases change.origin_cases inv.layout made with origin | ⟨grew, rfl⟩
  · by_cases before : h.owners all = ∅
    · exact change.firing_kept inv.layout (inv.activators.ended all inputs origin before)
    · exact Or.inr (Stacks.decidesOn_of_mem (change.owners_last inv.layout before gone) rfl)
  · rcases change.fresh_cases grew with clash | ⟨_, _, clash, -⟩ | ⟨_, -, held, -⟩ | ⟨_, clash, -⟩
    · cases clash.symm.trans made
    · cases clash.symm.trans made
    · simp [gone] at held
    · cases clash.symm.trans made

/-- A step keeps the bookkeeping of activators. -/
theorem activators (inv : Inv h P) (change : Change h P h' P') : Activators h' P' where
  locals := locals inv change
  alive := alive inv change
  uncalled := uncalled inv change
  releasedLambda := releasedLambda inv change
  releasedListed := releasedListed inv change
  lambda := lambda inv change
  listed := listedOwner inv change
  fired := activatorFired inv change
  ended := ended inv change

/-! ## Registrations -/

/-- `WhenAll` registers a closure with every input. -/
theorem registersAll (inv : Inv h P) (change : Change h P h' P') :
    ∀ all inputs, h'.origin all = some (.whenAll inputs) → ∀ s ∈ inputs,
      .thenFunc s (.release all) ∈ P' ∨ ∃ d, h'.origin d = some (.derived s (.release all)) := by
  intro all inputs made s inside
  rcases change.origin_cases inv.layout made with origin | ⟨grew, rfl⟩
  · rcases inv.registrations.all all inputs origin s inside with pending | ⟨d, derived⟩
    · exact change.thenFunc_kept pending
    · exact Or.inr ⟨d, inv.layout.origin_kept change.extends derived⟩
  · rcases change.fresh_cases grew with
      clash | ⟨_, _, clash, -⟩ | ⟨_, same, -, pending⟩ | ⟨_, clash, -⟩
    · cases clash.symm.trans made
    · cases clash.symm.trans made
    · cases same.symm.trans made
      exact Or.inl (pending s inside)
    · cases clash.symm.trans made

/-- `WhenAny` registers a closure with every input. -/
theorem registersAny (inv : Inv h P) (change : Change h P h' P') :
    ∀ any inputs, h'.origin any = some (.whenAny inputs) → ∀ s ∈ inputs,
      .thenFunc s (.fire any) ∈ P' ∨ ∃ d, h'.origin d = some (.derived s (.fire any)) := by
  intro any inputs made s inside
  rcases change.origin_cases inv.layout made with origin | ⟨grew, rfl⟩
  · rcases inv.registrations.any any inputs origin s inside with pending | ⟨d, derived⟩
    · exact change.thenFunc_kept pending
    · exact Or.inr ⟨d, inv.layout.origin_kept change.extends derived⟩
  · rcases change.fresh_cases grew with
      clash | ⟨_, _, clash, -⟩ | ⟨_, clash, -⟩ | ⟨_, same, pending⟩
    · cases clash.symm.trans made
    · cases clash.symm.trans made
    · cases clash.symm.trans made
    · cases same.symm.trans made
      exact Or.inl (pending s inside)

/-- A called closure of `WhenAny` completes its state. -/
theorem fires (inv : Inv h P) (change : Change h P h' P') :
    ∀ d s any, h'.origin d = some (.derived s (.fire any)) → 0 < h'.invocations d →
      Firing h' P' any := by
  intro d s any made called
  rcases change.origin_cases inv.layout made with origin | ⟨grew, rfl⟩
  · rcases change.invocations_cases inv.layout d with same | ⟨copy, -, -, -, fired⟩
    · exact change.firing_kept inv.layout (inv.registrations.fires d s any origin (same ▸ called))
    · exact Or.inr (Stacks.decidesOn_of_mem (fired s any origin) rfl)
  · rw [(change.allocates inv.layout grew).invocations,
      (inv.layout.blank _ (Nat.le_refl _)).invocations] at called
    exact absurd called (Nat.lt_irrefl _)

/-- Only a called closure completes the state of a `WhenAny`. -/
theorem firedAny (inv : Inv h P) (change : Change h P h' P') :
    ∀ any inputs, h'.origin any = some (.whenAny inputs) → Firing h' P' any →
      ∃ d s, h'.origin d = some (.derived s (.fire any)) ∧ 0 < h'.invocations d := by
  intro any inputs made firing
  rcases change.origin_cases inv.layout made with origin | ⟨grew, rfl⟩
  · rcases change.firing_new inv.layout (Heap.not_promised_whenAny origin) firing with
      before | ⟨owner, ⟨held, -⟩, -⟩ | ⟨d, a, fires, called⟩
    · obtain ⟨d, s, derived, called⟩ := inv.registrations.fired any inputs origin before
      refine ⟨d, s, inv.layout.origin_kept change.extends derived, ?_⟩
      rcases change.invocations_cases inv.layout d with same | ⟨-, -, now, -⟩
      · exact same ▸ called
      · omega
    · obtain ⟨⟨_, clash⟩, -⟩ := inv.layout.owners any owner held
      cases origin.symm.trans clash
    · exact ⟨d, a, inv.layout.origin_kept change.extends fires, called⟩
  · exact absurd firing (change.not_firing_next inv.layout grew)

/-- A step keeps what combinators have registered. -/
theorem registrations (inv : Inv h P) (change : Change h P h' P') : Registrations h' P' where
  all := registersAll inv change
  any := registersAny inv change
  fires := fires inv change
  fired := firedAny inv change

/-- A step keeps the runtime invariant. -/
theorem inv (inv : Inv h P) (exclusive : Exclusive h P) (change : Change h P h' P') :
    Inv h' P' where
  layout := layout inv change
  counts := counts inv exclusive change
  decisions := decisions inv exclusive change
  activators := activators inv change
  registrations := registrations inv change

end Change

end Azul.Async
