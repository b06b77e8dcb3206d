import Azul.Async.RuntimeInvariant

/-!
# The layout of the heap is kept

A step allocates at most one state, at the end of the heap, and never changes who made a state; the
instructions it schedules refer to states of the kinds that its own instruction promised.
-/

namespace Azul.Async

open Foundation

variable {V ε X : Type} {h h' : Heap V ε} {P P' : Multiset (Instr V ε X)}

/-- Allocated states keep their kind and their maker. -/
structure Heap.Extends (h h' : Heap V ε) : Prop where
  next : h.next ≤ h'.next
  origin : ∀ s, s < h.next → h'.origin s = h.origin s
  isVoid : ∀ s, s < h.next → h'.isVoid s = h.isVoid s

/-- Every step extends the heap. -/
theorem Change.extends (change : Change h P h' P') : h.Extends h' := by
  cases change
  case thenFunc | newPromise | «then» | whenAll | whenAny =>
    refine ⟨Nat.le_succ _, fun s old => ?_, fun s old => ?_⟩ <;>
      exact Function.update_of_ne (Nat.ne_of_lt old) _ _
  all_goals exact ⟨le_refl _, fun _ _ => rfl, fun _ _ => rfl⟩

namespace Layout

/-- A state with a maker is allocated. -/
theorem lt_next (layout : Layout h P) {s : StateId} {origin : Origin}
    (made : h.origin s = some origin) : s < h.next := by
  by_contra beyond
  rw [(layout.blank s (Nat.le_of_not_lt beyond)).origin] at made
  cases made

/-- A state with a maker is made from earlier states. -/
theorem originOk (layout : Layout h P) {s : StateId} {origin : Origin}
    (made : h.origin s = some origin) : h.OriginOk s origin := by
  obtain ⟨found, same, ok⟩ := layout.allocated s (layout.lt_next made)
  rw [same] at made
  cases made
  exact ok

/-- A derived state is allocated. -/
theorem derived_lt (layout : Layout h P) {d : StateId} (derived : h.Derived d) : d < h.next := by
  obtain ⟨s, callable, made⟩ := derived
  exact layout.lt_next made

/-- A promised state is allocated. -/
theorem promised_lt (layout : Layout h P) {s : StateId} (promised : h.Promised s) :
    s < h.next :=
  promised.elim layout.lt_next layout.derived_lt

/-- No callable releases the activator of a state that is not allocated. -/
theorem not_release {s t : StateId} {callable : Callable} (ok : h.CallableOk s callable)
    (blank : h.Blank t) : callable ≠ .release t := by
  rintro rfl
  obtain ⟨inputs, made, -⟩ := ok
  rw [blank.origin] at made
  cases made

/-- The maker of a state is still known after a step. -/
theorem origin_kept (layout : Layout h P) (ext : h.Extends h') {s : StateId} {origin : Origin}
    (made : h.origin s = some origin) : h'.origin s = some origin :=
  (ext.origin s (layout.lt_next made)).trans made

/-- A derived state stays derived. -/
theorem derived_kept (layout : Layout h P) (ext : h.Extends h') {d : StateId}
    (derived : h.Derived d) : h'.Derived d := by
  obtain ⟨s, callable, made⟩ := derived
  exact ⟨s, callable, layout.origin_kept ext made⟩

/-- A promised state stays promised. -/
theorem promised_kept (layout : Layout h P) (ext : h.Extends h') {s : StateId}
    (promised : h.Promised s) : h'.Promised s :=
  promised.imp (layout.origin_kept ext) (layout.derived_kept ext)

/-- A callable stays with its combinator. -/
theorem callableOk_kept (layout : Layout h P) (ext : h.Extends h') {s : StateId}
    {callable : Callable} (ok : h.CallableOk s callable) : h'.CallableOk s callable := by
  cases callable with
  | user => trivial
  | release all =>
    obtain ⟨inputs, made, inside⟩ := ok
    exact ⟨inputs, layout.origin_kept ext made, inside⟩
  | fire any =>
    obtain ⟨inputs, made, inside⟩ := ok
    exact ⟨inputs, layout.origin_kept ext made, inside⟩

/-- An instruction that was in order stays in order. -/
theorem typed_kept (layout : Layout h P) (ext : h.Extends h') {x : Instr V ε X}
    (typed : x.Typed h) : x.Typed h' := by
  cases x with
  | setValue s value =>
    obtain ⟨fits, allocated, underived⟩ := typed
    refine ⟨fun void => fits ((ext.isVoid s allocated) ▸ void),
      Nat.lt_of_lt_of_le allocated ext.next, fun derived => underived ?_⟩
    obtain ⟨a, callable, made⟩ := derived
    exact ⟨a, callable, (ext.origin s allocated) ▸ made⟩
  | resolve s value =>
    obtain ⟨fits, derived⟩ := typed
    have ⟨a, callable, made⟩ := derived
    exact ⟨fun void => fits ((ext.isVoid s (layout.lt_next made)) ▸ void),
      layout.derived_kept ext derived⟩
  | setException s error => exact layout.promised_kept ext typed
  | walk s index => exact Nat.lt_of_lt_of_le typed ext.next
  | aboutToDestroyPromise s => exact layout.promised_kept ext typed
  | clear s => exact layout.promised_kept ext typed
  | invoke d copy => exact ⟨typed.1, layout.derived_kept ext typed.2⟩
  | inCallable d =>
    obtain ⟨a, made⟩ := typed
    exact ⟨a, layout.origin_kept ext made⟩
  | destroyClosure d copy => exact layout.derived_kept ext typed
  | registerThen d => exact layout.derived_kept ext typed
  | thenFunc s callable =>
    exact ⟨Nat.lt_of_lt_of_le typed.1 ext.next, typed.2.1, layout.callableOk_kept ext typed.2.2⟩
  | releaseActivator all owner =>
    obtain ⟨⟨inputs, made⟩, closures⟩ := typed
    refine ⟨⟨inputs, layout.origin_kept ext made⟩, fun d copy same => ?_⟩
    obtain ⟨s, derived⟩ := closures d copy same
    exact ⟨s, layout.origin_kept ext derived⟩
  | external x => trivial

/-- A state that is made from earlier states stays so. -/
theorem originOk_kept (layout : Layout h P) (ext : h.Extends h') {s : StateId} {origin : Origin}
    (old : s < h.next) (ok : h.OriginOk s origin) : h'.OriginOk s origin := by
  cases origin with
  | promise => trivial
  | derived a callable =>
    exact ⟨ok.1, layout.callableOk_kept ext ok.2.1,
      fun func => (ext.isVoid s old).trans (ok.2.2 func)⟩
  | whenAll inputs => exact ⟨(ext.isVoid s old).trans ok.1, ok.2⟩
  | whenAny inputs => exact ⟨(ext.isVoid s old).trans ok.1, ok.2⟩

/-- The state an instruction completes is allocated. -/
theorem decision_lt (layout : Layout h P) {x : Instr V ε X} {s : StateId} {result : Result V ε}
    (inside : x ∈ P) (decision : x.decision = some (s, result)) : s < h.next := by
  have typed := layout.typed x inside
  cases x <;> simp only [Instr.decision, Option.some.injEq, Prod.mk.injEq, reduceCtorEq] at decision
  all_goals obtain ⟨rfl, -⟩ := decision
  · exact typed.2.1
  · exact layout.derived_lt typed.2
  · exact layout.promised_lt typed

/-- A closure that captures an activator may release it. -/
theorem typed_release (layout : Layout h P) {d s all : StateId}
    (made : h.origin d = some (.derived s (.release all))) (copy : Copy) :
    (.releaseActivator all (.closure d copy) : Instr V ε X).Typed h := by
  obtain ⟨-, ⟨inputs, found, -⟩, -⟩ := layout.originOk made
  refine ⟨⟨inputs, found⟩, fun e c same => ?_⟩
  cases same
  exact ⟨s, made⟩

/-- What a closure's callable releases is in order. -/
theorem typed_releaseCallable (layout : Layout h P) {d : StateId} {copy : Copy} {x : Instr V ε X}
    (inside : x ∈ h.releaseCallable d copy) : x.Typed h := by
  unfold Heap.releaseCallable at inside
  split at inside
  · rename_i made
    rw [List.mem_singleton.mp inside]
    exact layout.typed_release made copy
  · cases inside

/-- A state without a closure may be set to the absent value. -/
theorem typed_setValue (layout : Layout h P) {s : StateId} {origin : Origin}
    (made : h.origin s = some origin)
    (underived : ∀ a callable, origin ≠ .derived a callable) :
    (.setValue s .void : Instr V ε X).Typed h := by
  refine ⟨fun _ => rfl, layout.lt_next made, ?_⟩
  rintro ⟨a, callable, derived⟩
  rw [made] at derived
  exact underived a callable (Option.some.inj derived)

end Layout

/-- The code of `Future::Then` works on the state it derives. -/
theorem Instr.typed_thenCode {d : StateId} (derived : h.Derived d) {x : Instr V ε X}
    (inside : x ∈ Instr.thenCode d) : x.Typed h := by
  simp only [Instr.thenCode, List.mem_cons, List.not_mem_nil, or_false] at inside
  rcases inside with rfl | rfl | rfl <;> exact derived

/-- A result that fits a `FutureState<void>` carries no value. -/
theorem Result.void_of_fits {isVoid : Bool} {value : Value V}
    (fits : Result.fits isVoid (.ok value : Result V ε) = true) (void : isVoid = true) :
    value = .void := by
  subst void
  cases value with
  | void => rfl
  | val value => cases fits

namespace Change

/-- The state a step allocates is made from earlier states. -/
theorem allocated (layout : Layout h P) (change : Change h P h' P') :
    ∀ s, s < h'.next → ∃ origin, h'.origin s = some origin ∧ h'.OriginOk s origin := by
  have ext := change.extends
  have kept : ∀ s, s < h.next → ∃ origin, h'.origin s = some origin ∧ h'.OriginOk s origin := by
    intro s old
    obtain ⟨origin, made, ok⟩ := layout.allocated s old
    exact ⟨origin, layout.origin_kept ext made, layout.originOk_kept ext old ok⟩
  intro s inside
  by_cases old : s < h.next
  · exact kept s old
  have fresh : h'.next = h.next + 1 → s = h.next := fun grown =>
    Nat.eq_of_lt_succ_of_not_lt (grown ▸ inside) old
  cases change
  case thenFunc a callable shared =>
    obtain rfl := fresh rfl
    obtain ⟨valid, func, ok⟩ := layout.typed _ (Multiset.mem_cons_self _ _)
    exact ⟨.derived a callable, Function.update_self .., valid, layout.callableOk_kept ext ok,
      fun _ => Function.update_self ..⟩
  case newPromise isVoid =>
    obtain rfl := fresh rfl
    exact ⟨.promise, Function.update_self .., trivial⟩
  case «then» a isVoid valid =>
    obtain rfl := fresh rfl
    exact ⟨.derived a .user, Function.update_self .., valid, trivial, fun func => absurd rfl func⟩
  case whenAll inputs valid =>
    obtain rfl := fresh rfl
    exact ⟨.whenAll inputs, Function.update_self .., Function.update_self .., valid⟩
  case whenAny inputs valid =>
    obtain rfl := fresh rfl
    exact ⟨.whenAny inputs, Function.update_self .., Function.update_self .., valid⟩
  all_goals exact absurd inside old

/-- Unallocated states stay untouched. -/
theorem blank (layout : Layout h P) (change : Change h P h' P') :
    ∀ s, h'.next ≤ s → h'.Blank s := by
  intro s beyond
  have was := layout.blank s (le_trans change.extends.next beyond)
  have apart : ∀ {t}, t < h.next → s ≠ t := fun old =>
    Nat.ne_of_gt (Nat.lt_of_lt_of_le old (le_trans change.extends.next beyond))
  have typed := fun x => layout.typed x
  cases change
  case decide decision _ =>
    have old := apart (layout.decision_lt (Multiset.mem_cons_self _ _) decision)
    exact { was with
      cell := (Function.update_of_ne old ..).trans was.cell
      walks := (Function.update_of_ne old ..).trans was.walks }
  case breakPromise =>
    have old := apart (layout.promised_lt (typed _ (Multiset.mem_cons_self _ _)))
    exact { was with cell := (Function.update_of_ne old ..).trans was.cell }
  case clearNext =>
    have old := apart (layout.promised_lt (typed _ (Multiset.mem_cons_self _ _)))
    exact { was with cell := (Function.update_of_ne old ..).trans was.cell }
  case invokeUser origin =>
    have old := apart (layout.lt_next origin)
    exact { was with invocations := (Function.update_of_ne old ..).trans was.invocations }
  case invokeRelease origin | invokeFire origin =>
    have old := apart (layout.lt_next origin)
    exact { was with
      invocations := (Function.update_of_ne old ..).trans was.invocations
      received := (Function.update_of_ne old ..).trans was.received }
  case callableEnd =>
    obtain ⟨a, origin⟩ := typed _ (Multiset.mem_cons_self _ _)
    have old := apart (layout.lt_next origin)
    exact { was with received := (Function.update_of_ne old ..).trans was.received }
  case destroyClosure =>
    have old := apart (layout.derived_lt (typed _ (Multiset.mem_cons_self _ _)))
    exact { was with copies := (Function.update_of_ne old ..).trans was.copies }
  case storeClosure d a callable origin _ _ _ =>
    have old := apart (layout.lt_next origin)
    have ok := layout.originOk origin
    have antecedent := apart (Nat.lt_trans ok.1 (layout.lt_next origin))
    exact { was with
      cell := (Function.update_of_ne antecedent ..).trans was.cell
      copies := (Function.update_of_ne old ..).trans was.copies
      appended := (Function.update_of_ne old ..).trans was.appended
      owners := (if_neg (Layout.not_release ok.2.1 was)).trans was.owners }
  case releaseLast | releaseOther =>
    obtain ⟨⟨inputs, origin⟩, -⟩ := typed _ (Multiset.mem_cons_self _ _)
    have old := apart (layout.lt_next origin)
    exact { was with owners := (Function.update_of_ne old ..).trans was.owners }
  case complete origin _ _ _ _ =>
    have old := apart (layout.lt_next origin)
    exact { was with received := (Function.update_of_ne old ..).trans was.received }
  case destroyPromise origin _ _ =>
    have old := apart (layout.lt_next origin)
    exact { was with destroyed := (Function.update_of_ne old ..).trans was.destroyed }
  case thenFunc a callable shared =>
    have new : s ≠ h.next := Nat.ne_of_gt beyond
    have ok := (typed _ (Multiset.mem_cons_self _ _)).2.2
    exact { was with
      origin := (Function.update_of_ne new ..).trans was.origin
      copies := (Function.update_of_ne new ..).trans was.copies
      owners := (if_neg (Layout.not_release ok was)).trans was.owners }
  case «then» =>
    have new : s ≠ h.next := Nat.ne_of_gt beyond
    exact { was with
      origin := (Function.update_of_ne new ..).trans was.origin
      copies := (Function.update_of_ne new ..).trans was.copies }
  case newPromise | whenAny =>
    have new : s ≠ h.next := Nat.ne_of_gt beyond
    exact { was with origin := (Function.update_of_ne new ..).trans was.origin }
  case whenAll =>
    have new : s ≠ h.next := Nat.ne_of_gt beyond
    exact { was with
      origin := (Function.update_of_ne new ..).trans was.origin
      owners := (Function.update_of_ne new ..).trans was.owners }
  all_goals exact was

/-- The instructions a step schedules refer to states of the right kinds. -/
theorem typed (layout : Layout h P) (change : Change h P h' P') : ∀ x ∈ P', x.Typed h' := by
  have ext := change.extends
  have kept : ∀ x ∈ P, x.Typed h' := fun x inside => layout.typed_kept ext (layout.typed x inside)
  intro y inside
  cases change
  case decide decision _ =>
    rcases Multiset.mem_cons.mp inside with rfl | inside
    · exact layout.decision_lt (Multiset.mem_cons_self _ _) decision
    · exact kept y (Multiset.mem_cons_of_mem inside)
  case throw =>
    rcases Multiset.mem_cons.mp inside with rfl | inside
    · exact Or.inr (kept _ (Multiset.mem_cons_self _ _)).2
    · exact kept y (Multiset.mem_cons_of_mem inside)
  case walkNext s index d found =>
    have head : s < h.next := kept _ (Multiset.mem_cons_self _ _)
    simp only [Multiset.mem_cons] at inside
    rcases inside with rfl | rfl | inside
    · obtain ⟨-, callable, made⟩ := layout.listed _ _ (List.mem_of_getElem? found)
      exact ⟨by simp, s, callable, made⟩
    · exact head
    · exact kept y (Multiset.mem_cons_of_mem inside)
  case breakPromise s =>
    have head : h.Promised s := layout.typed _ (Multiset.mem_cons_self _ _)
    rcases Multiset.mem_cons.mp inside with rfl | inside
    · exact head
    · exact kept y (Multiset.mem_cons_of_mem inside)
  case clearNext s d rest found =>
    have head : h.Promised s := layout.typed _ (Multiset.mem_cons_self _ _)
    simp only [Multiset.mem_cons] at inside
    rcases inside with rfl | rfl | inside
    · obtain ⟨-, callable, made⟩ := layout.listed s d (by rw [found]; exact List.mem_cons_self)
      exact ⟨s, callable, made⟩
    · exact head
    · exact kept y (Multiset.mem_cons_of_mem inside)
  case invokeUser origin =>
    rcases Multiset.mem_cons.mp inside with rfl | inside
    · exact ⟨_, origin⟩
    · exact kept y (Multiset.mem_cons_of_mem inside)
  case invokeRelease d copy s all origin =>
    simp only [Multiset.mem_cons] at inside
    rcases inside with rfl | rfl | inside
    · exact layout.typed_release origin copy
    · exact ⟨fun _ => rfl, s, _, origin⟩
    · exact kept y (Multiset.mem_cons_of_mem inside)
  case invokeFire d copy s any origin =>
    simp only [Multiset.mem_cons] at inside
    rcases inside with rfl | rfl | inside
    · obtain ⟨-, ⟨inputs, made, -⟩, -⟩ := layout.originOk origin
      exact layout.typed_setValue made (by simp)
    · exact ⟨fun _ => rfl, s, _, origin⟩
    · exact kept y (Multiset.mem_cons_of_mem inside)
  case callableEnd d result x decision resolves fits =>
    obtain ⟨a, origin⟩ := layout.typed _ (Multiset.mem_cons_self _ _)
    rcases Multiset.mem_cons.mp inside with rfl | inside
    · have derived : h.Derived d := ⟨a, _, origin⟩
      cases y <;>
        simp only [Instr.decision, Option.some.injEq, Prod.mk.injEq, reduceCtorEq] at decision
      all_goals obtain ⟨rfl, rfl⟩ := decision
      · exact absurd rfl (resolves _)
      · exact ⟨Result.void_of_fits fits, derived⟩
      · exact Or.inr derived
    · exact kept y (Multiset.mem_cons_of_mem inside)
  case destroyClosure d copy =>
    have head : h.Derived d := layout.typed _ (Multiset.mem_cons_self _ _)
    rcases Multiset.mem_add.mp inside with new | inside
    · rcases List.mem_append.mp (Multiset.mem_coe.mp new) with broken | released
      · split at broken
        · rw [List.mem_singleton.mp broken]
          exact Or.inr head
        · cases broken
      · exact layout.typed_releaseCallable released
    · exact kept y (Multiset.mem_cons_of_mem inside)
  case runInline d s callable origin decided =>
    rcases Multiset.mem_cons.mp inside with rfl | inside
    · exact ⟨by simp, s, callable, origin⟩
    · exact kept y (Multiset.mem_cons_of_mem inside)
  case releaseLast =>
    obtain ⟨⟨inputs, made⟩, -⟩ := layout.typed _ (Multiset.mem_cons_self _ _)
    rcases Multiset.mem_cons.mp inside with rfl | inside
    · exact layout.typed_setValue made (by simp)
    · exact kept y (Multiset.mem_cons_of_mem inside)
  case complete s result x origin decision direct fits live =>
    rcases Multiset.mem_cons.mp inside with rfl | inside
    · cases y <;>
        simp only [Instr.decision, Option.some.injEq, Prod.mk.injEq, reduceCtorEq] at decision
      all_goals obtain ⟨rfl, rfl⟩ := decision
      · exact ⟨Result.void_of_fits fits, (layout.typed_setValue origin (by simp)).2⟩
      · exact absurd rfl (direct _)
      · exact Or.inl origin
    · exact kept y inside
  case destroyPromise origin _ _ =>
    rcases Multiset.mem_cons.mp inside with rfl | inside
    · exact Or.inl origin
    · exact kept y inside
  case thenFunc s callable shared =>
    rcases Multiset.mem_add.mp inside with new | inside
    · exact Instr.typed_thenCode ⟨s, callable, Function.update_self ..⟩ (Multiset.mem_coe.mp new)
    · exact kept y (Multiset.mem_cons_of_mem inside)
  case «then» s isVoid valid =>
    rcases Multiset.mem_add.mp inside with new | inside
    · exact Instr.typed_thenCode ⟨s, .user, Function.update_self ..⟩ (Multiset.mem_coe.mp new)
    · exact kept y inside
  case whenAll inputs valid =>
    have made : (Function.update h.origin h.next (some (.whenAll inputs))) h.next =
        some (.whenAll inputs) := Function.update_self ..
    rcases Multiset.mem_add.mp inside with new | inside
    · simp only [Multiset.mem_coe, List.mem_append, List.mem_map, List.mem_cons,
        List.not_mem_nil, or_false] at new
      rcases new with ⟨s, member, rfl⟩ | rfl | rfl
      · exact ⟨Nat.lt_succ_of_lt (valid s member), by simp, inputs, made, member⟩
      · exact ⟨⟨inputs, made⟩, by simp⟩
      · exact ⟨⟨inputs, made⟩, by simp⟩
    · exact kept y inside
  case whenAny inputs valid =>
    have made : (Function.update h.origin h.next (some (.whenAny inputs))) h.next =
        some (.whenAny inputs) := Function.update_self ..
    rcases Multiset.mem_add.mp inside with new | inside
    · obtain ⟨s, member, rfl⟩ := List.mem_map.mp (Multiset.mem_coe.mp new)
      exact ⟨Nat.lt_succ_of_lt (valid s member), by simp, inputs, made, member⟩
    · exact kept y inside
  case enter code =>
    rcases Multiset.mem_add.mp inside with new | inside
    · obtain ⟨c, -, rfl⟩ := List.mem_map.mp (Multiset.mem_coe.mp new)
      trivial
    · exact kept y inside
  case newPromise => exact kept y inside
  all_goals exact kept y (Multiset.mem_cons_of_mem inside)

/-- Lists hold closures that were stored there. -/
theorem listed (layout : Layout h P) (change : Change h P h' P') :
    ∀ s, ∀ d ∈ (h'.cell s).continuations,
      h'.appended d = true ∧ ∃ callable, h'.origin d = some (.derived s callable) := by
  have ext := change.extends
  have kept : ∀ s, ∀ d ∈ (h.cell s).continuations,
      h.appended d = true ∧ ∃ callable, h'.origin d = some (.derived s callable) := by
    intro s d inside
    obtain ⟨stored, callable, made⟩ := layout.listed s d inside
    exact ⟨stored, callable, layout.origin_kept ext made⟩
  intro s d inside
  cases change
  case decide | breakPromise =>
    rw [FutureState.continuations_update_same (by simp)] at inside
    exact kept s d inside
  case clearNext found =>
    rw [FutureState.continuations_update] at inside
    split at inside
    · subst s
      exact kept _ d (by simp [found, inside])
    · exact kept s d inside
  case storeClosure e a callable origin _ _ _ =>
    by_cases new : d = e ∧ s = a
    · obtain ⟨rfl, rfl⟩ := new
      exact ⟨Function.update_self .., callable, origin⟩
    · have old : d ∈ (h.cell s).continuations := by
        rw [FutureState.continuations_update] at inside
        split at inside
        · subst s
          simpa [show d ≠ e from fun same => new ⟨same, rfl⟩] using inside
        · exact inside
      obtain ⟨stored, made⟩ := kept s d old
      refine ⟨?_, made⟩
      by_cases same : d = e
      · exact same ▸ Function.update_self ..
      · exact (Function.update_of_ne same ..).trans stored
  all_goals exact kept s d inside

/-- No list holds a closure twice. -/
theorem nodup (layout : Layout h P) (counts : Counts h P) (change : Change h P h' P') :
    ∀ s, (h'.cell s).continuations.Nodup := by
  intro s
  have was := layout.nodup s
  cases change
  case decide | breakPromise =>
    rwa [FutureState.continuations_update_same (by simp)]
  case clearNext found =>
    rw [FutureState.continuations_update]
    split
    · subst s
      rw [found] at was
      exact was.of_cons
    · exact was
  case storeClosure d a callable origin undecided lambda argument =>
    rw [FutureState.continuations_update]
    split
    · subst s
      have absent : d ∉ (h.cell a).continuations := by
        intro inside
        have none := (counts.stored d a callable origin (layout.listed a d inside).1).2.2
        simp [Instr.isRegister] at none
      rw [FutureState.continuations_append]
      exact List.nodup_append.mpr ⟨was, List.nodup_singleton d, fun x old y new same =>
        absent ((List.mem_singleton.mp new) ▸ same ▸ old)⟩
    · exact was
  all_goals exact was

/-- Activators are owned by their `WhenAll` call and by copies of its closures. -/
theorem owners (layout : Layout h P) (change : Change h P h' P') :
    ∀ all, ∀ owner ∈ h'.owners all, (∃ inputs, h'.origin all = some (.whenAll inputs)) ∧
      ∀ d copy, owner = .closure d copy → ∃ s, h'.origin d = some (.derived s (.release all)) := by
  have ext := change.extends
  have kept : ∀ all, ∀ owner ∈ h.owners all, (∃ inputs, h'.origin all = some (.whenAll inputs)) ∧
      ∀ d copy, owner = .closure d copy → ∃ s, h'.origin d = some (.derived s (.release all)) := by
    intro all owner inside
    obtain ⟨⟨inputs, found⟩, closures⟩ := layout.owners all owner inside
    refine ⟨⟨inputs, layout.origin_kept ext found⟩, fun d copy same => ?_⟩
    obtain ⟨s, made⟩ := closures d copy same
    exact ⟨s, layout.origin_kept ext made⟩
  intro all owner inside
  cases change
  case storeClosure d s callable origin _ _ _ =>
    rcases mem_shared.mp inside with ⟨rfl, new⟩ | old
    · rw [Finset.mem_singleton.mp new]
      exact layout.typed_release origin .listed
    · exact kept all owner old
  case releaseLast | releaseOther =>
    exact kept all owner (mem_update_erase.mp inside).1
  case thenFunc s callable shared =>
    rcases mem_shared.mp inside with ⟨rfl, new⟩ | old
    · obtain ⟨-, -, inputs, found, -⟩ := layout.typed _ (Multiset.mem_cons_self _ _)
      refine ⟨⟨inputs, layout.origin_kept ext found⟩, fun d copy same => ⟨s, ?_⟩⟩
      have fresh : d = h.next := by
        subst same
        simp only [Finset.mem_insert, Finset.mem_singleton, Owner.closure.injEq] at new
        exact new.elim And.left And.left
      exact fresh ▸ Function.update_self ..
    · exact kept all owner old
  case «then» =>
    rcases mem_shared.mp inside with ⟨clash, -⟩ | old
    · cases clash
    · exact kept all owner old
  case whenAll inputs valid =>
    by_cases same : all = h.next
    · subst same
      refine ⟨⟨inputs, Function.update_self ..⟩, fun d copy closure => ?_⟩
      subst closure
      simp at inside
    · have old : owner ∈ h.owners all := by simpa [same] using inside
      exact kept all owner old
  all_goals exact kept all owner inside

/-- A step keeps the layout. -/
theorem layout (inv : Inv h P) (change : Change h P h' P') : Layout h' P' where
  blank := blank inv.layout change
  allocated := allocated inv.layout change
  typed := typed inv.layout change
  listed := listed inv.layout change
  nodup := nodup inv.layout inv.counts change
  owners := owners inv.layout change

end Change

end Azul.Async
