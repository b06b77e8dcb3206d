import Azul.Async.RuntimeLayout

/-!
# Copies and calls of closures are counted

The steps that allocate a state touch nothing that any other state knows of, so every count is
kept for the old states and starts at its first value for the new one (`Allocates`). The other
steps move one instruction, and each count follows it.
-/

namespace Azul.Async

open Foundation

variable {V ε X : Type} {h h' : Heap V ε} {P P' : Multiset (Instr V ε X)}

namespace Instr

variable {x : Instr V ε X} {decided : StateId × Result V ε}

@[simp]
theorem isDestroy_of_decision (decision : x.decision = some decided) (d : StateId) (copy : Copy) :
    x.isDestroy d copy = false := by
  cases x <;> first | rfl | simp [Instr.decision] at decision

@[simp]
theorem isInvoke_of_decision (decision : x.decision = some decided) (d : StateId) (copy : Copy) :
    x.isInvoke d copy = false := by
  cases x <;> first | rfl | simp [Instr.decision] at decision

@[simp]
theorem isRegister_of_decision (decision : x.decision = some decided) (d : StateId) :
    x.isRegister d = false := by
  cases x <;> first | rfl | simp [Instr.decision] at decision

@[simp]
theorem walksTo_of_decision (decision : x.decision = some decided) (s : StateId) (index : Nat) :
    x.walksTo s index = false := by
  cases x <;> first | rfl | simp [Instr.decision] at decision

/-- The instruction is scheduled by the calls that allocate a state, on behalf of that state. -/
def startsFor (d : StateId) : Instr V ε X → Bool
  | .registerThen e | .destroyClosure e _ => e == d
  | .thenFunc _ _ | .releaseActivator _ _ => true
  | _ => false

end Instr

/-- Dropping a copy of a closure schedules nothing but the end of its promise and of its share of
an activator. -/
theorem mem_dropped {d : StateId} {copy : Copy} {x : Instr V ε X}
    (inside : x ∈ (if h.lastCopy d copy then [.aboutToDestroyPromise d] else []) ++
      h.releaseCallable d copy) :
    h.lastCopy d copy ∧ x = .aboutToDestroyPromise d ∨
    ∃ s all, h.origin d = some (.derived s (.release all)) ∧
      x = .releaseActivator all (.closure d copy) := by
  rcases List.mem_append.mp inside with broken | released
  · split at broken
    · exact Or.inl ⟨‹_›, List.mem_singleton.mp broken⟩
    · cases broken
  · unfold Heap.releaseCallable at released
    split at released
    · exact Or.inr ⟨_, _, ‹_›, List.mem_singleton.mp released⟩
    · cases released

/-- Nothing else is counted when a copy of a closure is dropped. -/
theorem count_dropped {h : Heap V ε} {p : Instr V ε X → Bool} {d : StateId} {copy : Copy}
    {others : Multiset (Instr V ε X)} (broken : p (.aboutToDestroyPromise d) = false)
    (released : ∀ all owner, p (.releaseActivator all owner) = false) :
    Stacks.count ((((if h.lastCopy d copy then [.aboutToDestroyPromise d] else []) ++
      h.releaseCallable d copy : List (Instr V ε X)) : Multiset (Instr V ε X)) + others) p =
      Stacks.count others p := by
  have silent : ((if h.lastCopy d copy then [.aboutToDestroyPromise d] else []) ++
      h.releaseCallable d copy : List (Instr V ε X)).countP p = 0 := by
    refine List.countP_eq_zero.mpr fun x inside => ?_
    rcases mem_dropped inside with ⟨-, rfl⟩ | ⟨_, all, -, rfl⟩
    · simp [broken]
    · simp [released]
  rw [Stacks.count_add, Stacks.count_coe, silent, Nat.zero_add]

/-- External code is nothing else. -/
theorem count_external {p : Instr V ε X → Bool} {code : List X} {others : Multiset (Instr V ε X)}
    (external : ∀ x, p (.external x) = false) :
    Stacks.count (((code.map .external : List (Instr V ε X)) : Multiset (Instr V ε X)) + others) p =
      Stacks.count others p := by
  simp [List.countP_map, Function.comp_def, external]

/-- Nothing pending refers to a state that is not allocated. -/
theorem Layout.count_fresh (layout : Layout h P) {p : Instr V ε X → Bool}
    (refers : ∀ x, p x = true → x.Typed h → False) : Stacks.count P p = 0 :=
  Stacks.count_eq_zero.mpr fun x inside =>
    Bool.eq_false_iff.mpr fun holds => refers x holds (layout.typed x inside)

/-- The next state has not been derived. -/
theorem Layout.not_derived_next (layout : Layout h P) : ¬ h.Derived h.next := fun derived =>
  Nat.lt_irrefl _ (layout.derived_lt derived)

/-- Nothing calls the closure of a state that is not allocated. -/
theorem Layout.count_invoke_next (layout : Layout h P) (copy : Copy) :
    Stacks.count P (Instr.isInvoke h.next copy) = 0 :=
  layout.count_fresh fun x holds typed => by
    cases x <;>
      simp only [Instr.isInvoke, Bool.and_eq_true, beq_iff_eq, Bool.false_eq_true] at holds
    exact layout.not_derived_next (holds.1 ▸ typed.2)

/-! ## Allocating steps -/

/-- What a step that allocates a state does to the rest. -/
structure Allocates (h : Heap V ε) (P : Multiset (Instr V ε X)) (h' : Heap V ε)
    (P' : Multiset (Instr V ε X)) : Prop where
  cell : h'.cell = h.cell
  destroyed : h'.destroyed = h.destroyed
  received : h'.received = h.received
  invocations : h'.invocations = h.invocations
  appended : h'.appended = h.appended
  walks : h'.walks = h.walks
  origin : ∀ s, s ≠ h.next → h'.origin s = h.origin s
  copies : ∀ s, s ≠ h.next → h'.copies s = h.copies s
  unlisted : .listed ∉ h'.copies h.next
  /-- Nothing is scheduled but the registrations of the new state. -/
  quiet : ∀ p : Instr V ε X → Bool, (∀ x, x.startsFor h.next = true → p x = false) →
    Stacks.count P' p = Stacks.count P p
  /-- A derived state starts with two copies of its closure and one registration. -/
  fresh : ∀ s callable, h'.origin h.next = some (.derived s callable) →
    h'.copies h.next = {.lambda, .argument} ∧
    (∀ copy, Stacks.count P' (Instr.isDestroy h.next copy) = if copy = .listed then 0 else 1) ∧
    Stacks.count P' (Instr.isRegister h.next) = 1

/-- The code of `Future::Then` is only about the derived state. -/
theorem Instr.countP_thenCode {p : Instr V ε X → Bool} {d : StateId}
    (silent : ∀ x : Instr V ε X, x.startsFor d = true → p x = false) :
    (Instr.thenCode d : List (Instr V ε X)).countP p = 0 := by
  have registered := silent (.registerThen d) (by simp [startsFor])
  have destroyed := fun copy => silent (.destroyClosure d copy) (by simp [startsFor])
  simp [Instr.thenCode, registered, destroyed]

/-- A step after which there is one more state allocates it. -/
theorem Change.allocates (layout : Layout h P) (change : Change h P h' P')
    (grew : h.next < h'.next) : Allocates h P h' P' := by
  have noDestroy : ∀ copy, Stacks.count P (Instr.isDestroy h.next copy) = 0 := fun copy =>
    layout.count_fresh fun x holds typed => by
      cases x <;> simp only [Instr.isDestroy, Bool.and_eq_true, beq_iff_eq, reduceCtorEq] at holds
      exact layout.not_derived_next (holds.1 ▸ typed)
  have noRegister : Stacks.count P (Instr.isRegister h.next) = 0 :=
    layout.count_fresh fun x holds typed => by
      cases x <;> simp only [Instr.isRegister, beq_iff_eq, reduceCtorEq] at holds
      exact layout.not_derived_next (holds ▸ typed)
  have noListed : .listed ∉ h.copies h.next := by
    simp [(layout.blank h.next (Nat.le_refl _)).copies]
  cases change
  case thenFunc s callable shared =>
    refine ⟨rfl, rfl, rfl, rfl, rfl, rfl, fun s other => Function.update_of_ne other ..,
      fun s other => Function.update_of_ne other .., by simp, fun p silent => ?_,
      fun s callable made => ?_⟩
    · rw [Stacks.count_add, Stacks.count_coe, Instr.countP_thenCode silent, Stacks.count_cons,
        silent _ rfl]
      simp
    · simp only [Stacks.count_cons, Instr.isDestroy, Instr.isRegister] at noDestroy noRegister
      refine ⟨Function.update_self .., fun copy => ?_, ?_⟩
      · have none := noDestroy copy
        cases copy <;> simp [Instr.thenCode, Instr.isDestroy] at none ⊢ <;> exact none
      · simp [Instr.thenCode, Instr.isRegister] at noRegister ⊢
        exact noRegister
  case «then» s isVoid valid =>
    refine ⟨rfl, rfl, rfl, rfl, rfl, rfl, fun s other => Function.update_of_ne other ..,
      fun s other => Function.update_of_ne other .., by simp, fun p silent => ?_,
      fun s callable made => ?_⟩
    · rw [Stacks.count_add, Stacks.count_coe, Instr.countP_thenCode silent, Nat.zero_add]
    · refine ⟨Function.update_self .., fun copy => ?_, ?_⟩
      · have none := noDestroy copy
        cases copy <;> simp [Instr.thenCode, Instr.isDestroy] at none ⊢ <;> exact none
      · simp [Instr.thenCode, Instr.isRegister] at noRegister ⊢
        exact noRegister
  case newPromise isVoid =>
    refine ⟨rfl, rfl, rfl, rfl, rfl, rfl, fun s other => Function.update_of_ne other ..,
      fun _ _ => rfl, noListed, fun p silent => rfl, fun s callable made => ?_⟩
    cases (Function.update_self ..).symm.trans made
  case whenAll inputs valid =>
    refine ⟨rfl, rfl, rfl, rfl, rfl, rfl, fun s other => Function.update_of_ne other ..,
      fun _ _ => rfl, noListed, fun p silent => ?_, fun s callable made => ?_⟩
    · have calls := fun s => silent (.thenFunc s (.release h.next)) rfl
      have scope := fun owner => silent (.releaseActivator h.next owner) rfl
      simp [List.countP_map, Function.comp_def, calls, scope]
    · cases (Function.update_self ..).symm.trans made
  case whenAny inputs valid =>
    refine ⟨rfl, rfl, rfl, rfl, rfl, rfl, fun s other => Function.update_of_ne other ..,
      fun _ _ => rfl, noListed, fun p silent => ?_, fun s callable made => ?_⟩
    · have calls := fun s => silent (.thenFunc s (.fire h.next)) rfl
      simp [List.countP_map, Function.comp_def, calls]
    · cases (Function.update_self ..).symm.trans made
  all_goals exact absurd grew (Nat.lt_irrefl _)

namespace Allocates

/-- A state that is derived after an allocation was derived before, or it is the new one. -/
theorem old_or_new (new : Allocates h P h' P') {d : StateId} {origin : Origin}
    (made : h'.origin d = some origin) : d = h.next ∨ d ≠ h.next ∧ h.origin d = some origin := by
  by_cases same : d = h.next
  · exact Or.inl same
  · exact Or.inr ⟨same, (new.origin d same).symm.trans made⟩

/-- Counts about another state are kept. -/
theorem count_destroy (new : Allocates h P h' P') {d : StateId} (old : d ≠ h.next) (copy : Copy) :
    Stacks.count P' (Instr.isDestroy d copy) = Stacks.count P (Instr.isDestroy d copy) :=
  new.quiet _ fun x starts => by
    cases x <;> simp only [Instr.startsFor, Bool.false_eq_true, beq_iff_eq] at starts <;>
      first | rfl | simp [Instr.isDestroy, starts, old.symm]

/-- Counts about another state are kept. -/
theorem count_register (new : Allocates h P h' P') {d : StateId} (old : d ≠ h.next) :
    Stacks.count P' (Instr.isRegister d) = Stacks.count P (Instr.isRegister d) :=
  new.quiet _ fun x starts => by
    cases x <;> simp only [Instr.startsFor, Bool.false_eq_true, beq_iff_eq] at starts <;>
      first | rfl | simp [Instr.isRegister, starts, old.symm]

theorem count_invoke (new : Allocates h P h' P') (d : StateId) (copy : Copy) :
    Stacks.count P' (Instr.isInvoke d copy) = Stacks.count P (Instr.isInvoke d copy) :=
  new.quiet _ fun x starts => by cases x <;> first | rfl | cases starts

theorem count_walks (new : Allocates h P h' P') (s : StateId) (index : Nat) :
    Stacks.count P' (Instr.walksTo s index) = Stacks.count P (Instr.walksTo s index) :=
  new.quiet _ fun x starts => by cases x <;> first | rfl | cases starts

end Allocates

/-- The next state is in no list. -/
theorem Layout.next_unlisted (layout : Layout h P) (s : StateId) :
    h.next ∉ (h.cell s).continuations := fun inside =>
  have ⟨_, callable, made⟩ := layout.listed s _ inside
  layout.not_derived_next ⟨s, callable, made⟩

namespace Change

theorem copies (inv : Inv h P) (change : Change h P h' P') :
    ∀ d s callable, h'.origin d = some (.derived s callable) → ∀ copy,
      Stacks.count P' (Instr.isDestroy d copy) +
        (if copy = .listed then (h'.cell s).continuations.count d else 0) =
        if copy ∈ h'.copies d then 1 else 0 := by
  intro d s callable made copy
  have was := fun origin => inv.counts.copies d s callable origin copy
  have fresh (grew : h.next < h'.next) : Stacks.count P' (Instr.isDestroy d copy) +
      (if copy = .listed then (h'.cell s).continuations.count d else 0) =
      if copy ∈ h'.copies d then 1 else 0 := by
    have new := change.allocates inv.layout grew
    rcases new.old_or_new made with rfl | ⟨old, origin⟩
    · obtain ⟨copies, destroys, -⟩ := new.fresh s callable made
      have unlisted : (h.cell s).continuations.count h.next = 0 :=
        List.count_eq_zero.mpr (inv.layout.next_unlisted s)
      rw [destroys, copies, new.cell, unlisted]
      cases copy <;> rfl
    · rw [new.count_destroy old, new.cell, new.copies d old]
      exact was origin
  cases change
  case decide decision _ =>
    have was := was made
    simp only [Stacks.count_cons, Instr.isDestroy_of_decision decision] at was
    rw [FutureState.continuations_update_same (by simp)]
    simpa [Instr.isDestroy] using was
  case skip decision _ | callableEnd decision _ _ | complete decision _ _ _ =>
    have was := was made
    simp only [Stacks.count_cons, Instr.isDestroy_of_decision decision] at was ⊢
    simpa [Instr.isDestroy] using was
  case breakPromise =>
    have was := was made
    rw [FutureState.continuations_update_same (by simp)]
    simpa [Instr.isDestroy] using was
  case clearNext a e rest found =>
    have was := was made
    obtain ⟨-, other, stored⟩ := inv.layout.listed a e (by rw [found]; exact List.mem_cons_self)
    have made : h.origin d = some (.derived s callable) := made
    simp only [Stacks.count_cons, Instr.isDestroy] at was ⊢
    rw [FutureState.continuations_update]
    by_cases same : e = d
    · subst same
      rw [stored] at made
      cases made
      simp only [found, List.count_cons] at was
      by_cases listed : copy = .listed
      · subst listed
        simp at was ⊢
        omega
      · simpa [listed, Ne.symm listed] using was
    · by_cases here : s = a
      · subst here
        simp only [found, List.count_cons] at was
        simpa [same] using was
      · simpa [same, here] using was
  case destroyClosure e c =>
    have was := was made
    rw [count_dropped rfl fun _ _ => rfl]
    simp only [Stacks.count_cons, Instr.isDestroy, mem_update_erase] at was ⊢
    by_cases same : d = e ∧ copy = c
    · obtain ⟨rfl, rfl⟩ := same
      by_cases live : copy ∈ h.copies d
      · simp only [live, if_true, beq_self_eq_true, Bool.and_self] at was
        simp only [and_self, not_true_eq_false, and_false, if_false]
        omega
      · simp [live] at was
    · have other : ¬ (e = d ∧ c = copy) := fun flipped => same ⟨flipped.1.symm, flipped.2.symm⟩
      simpa [same, other] using was
  case storeClosure e a func origin undecided lambda argument =>
    have was := was made
    have unstored : h.appended e = false := by
      by_contra stored
      have none := (inv.counts.stored e a func origin (by simpa using stored)).2.2
      simp [Instr.isRegister] at none
    rw [FutureState.continuations_update]
    simp only [Stacks.count_cons, Instr.isDestroy, mem_update_insert] at was ⊢
    by_cases same : d = e
    · subst same
      have made : h.origin d = some (.derived s callable) := made
      rw [origin] at made
      cases made
      have unlisted := inv.counts.unlisted d unstored
      by_cases listed : copy = .listed
      · subst listed
        simp [unlisted] at was
        simp [was]
      · simpa [listed] using was
    · by_cases here : s = a
      · subst here
        have apart : e ≠ d := fun flipped => same flipped.symm
        simpa [same, apart, List.count_append, List.count_singleton] using was
      · simpa [same, here] using was
  case thenFunc | «then» | newPromise | whenAll | whenAny => exact fresh (Nat.lt_succ_self _)
  case enter code =>
    rw [count_external fun _ => rfl]
    exact was made
  all_goals simpa [Instr.isDestroy] using was made

/-- The listed copy of a closure is made when the closure is stored. -/
theorem unlisted (inv : Inv h P) (change : Change h P h' P') :
    ∀ d, h'.appended d = false → .listed ∉ h'.copies d := by
  intro d unstored
  have was := inv.counts.unlisted d
  have fresh (grew : h.next < h'.next) : .listed ∉ h'.copies d := by
    have new := change.allocates inv.layout grew
    rw [new.appended] at unstored
    by_cases same : d = h.next
    · subst same
      exact new.unlisted
    · rw [new.copies d same]
      exact was unstored
  cases change
  case thenFunc | «then» | newPromise | whenAll | whenAny => exact fresh (Nat.lt_succ_self _)
  case destroyClosure =>
    exact fun live => was unstored (mem_update_erase.mp live).1
  case storeClosure e a callable origin undecided lambda argument =>
    by_cases same : d = e
    · subst same
      cases (Function.update_self ..).symm.trans unstored
    · intro live
      rcases mem_update_insert.mp live with old | ⟨clash, -⟩
      · exact was ((Function.update_of_ne same ..).symm.trans unstored) old
      · exact same clash
  all_goals exact was unstored

end Change

/-! ## The end of a promise -/

namespace Heap

/-- The promise of a `Promise` ends with its destructor. -/
theorem retired_promise {s : StateId} (made : h.origin s = some .promise) :
    h.Retired s ↔ h.destroyed s = true := by
  simp [Retired, made]

/-- The promise of a derived state ends with the last copy of its closure. -/
theorem retired_derived {s a : StateId} {callable : Callable}
    (made : h.origin s = some (.derived a callable)) : h.Retired s ↔ h.copies s = ∅ := by
  simp [Retired, made]

/-- Only states with a promise retire. -/
theorem Retired.promised {s : StateId} (retired : h.Retired s) : h.Promised s := by
  unfold Retired at retired
  split at retired
  · exact Or.inl ‹_›
  · exact Or.inr ⟨_, _, ‹_›⟩
  · exact retired.elim

end Heap

/-- A pending destructor owns its copy. -/
theorem Counts.copy_live (counts : Counts h P) {d s : StateId} {callable : Callable} {copy : Copy}
    (made : h.origin d = some (.derived s callable)) (inside : .destroyClosure d copy ∈ P) :
    copy ∈ h.copies d := by
  by_contra gone
  have balance := counts.copies d s callable made copy
  have some : 0 < Stacks.count P (Instr.isDestroy d copy) :=
    Stacks.count_pos.mpr ⟨_, inside, by simp [Instr.isDestroy]⟩
  rw [if_neg gone] at balance
  omega

/-- A listed closure has its listed copy. -/
theorem Counts.listed_live (counts : Counts h P) {d s : StateId} {callable : Callable}
    (made : h.origin d = some (.derived s callable)) (inside : d ∈ (h.cell s).continuations) :
    .listed ∈ h.copies d := by
  by_contra gone
  have balance := counts.copies d s callable made .listed
  have some := List.count_pos_iff.mpr inside
  rw [if_neg gone, if_pos rfl] at balance
  omega

namespace Change

/-- An ended promise stays ended. -/
theorem retired_kept (inv : Inv h P) (change : Change h P h' P') {s : StateId}
    (retired : h.Retired s) : h'.Retired s := by
  have ext := change.extends
  rcases retired.promised with made | ⟨a, callable, made⟩
  · rw [Heap.retired_promise made] at retired
    rw [Heap.retired_promise (inv.layout.origin_kept ext made)]
    cases change
    case destroyPromise t origin _ _ =>
      by_cases same : s = t
      · exact same ▸ Function.update_self ..
      · exact (Function.update_of_ne same ..).trans retired
    all_goals exact retired
  · have old : s ≠ h.next := Nat.ne_of_lt (inv.layout.lt_next made)
    have fresh (grew : h.next < h'.next) : h'.copies s = ∅ :=
      ((change.allocates inv.layout grew).copies s old).trans
        ((Heap.retired_derived made).mp retired)
    rw [Heap.retired_derived made] at retired
    rw [Heap.retired_derived (inv.layout.origin_kept ext made)]
    cases change
    case thenFunc | «then» | newPromise | whenAll | whenAny => exact fresh (Nat.lt_succ_self _)
    case destroyClosure d copy =>
      refine Finset.eq_empty_of_forall_notMem fun c inside => ?_
      simpa [retired] using (mem_update_erase.mp inside).1
    case storeClosure d b func origin undecided lambda argument =>
      refine Finset.eq_empty_of_forall_notMem fun c inside => ?_
      rcases mem_update_insert.mp inside with old | ⟨rfl, -⟩
      · simp [retired] at old
      · have live := inv.counts.copy_live made (Multiset.mem_cons_of_mem lambda)
        simp [retired] at live
    all_goals exact retired

end Change

/-- The outcomes after a completing call has decided a state. -/
theorem Heap.outcome_decide (h : Heap V ε) (t : StateId) (cell : FutureState (Value V) ε StateId)
    (s : StateId) : (h.decide t cell).outcome s = if s = t then cell.outcome else h.outcome s :=
  FutureState.outcome_update

/-- The outcomes after a promise has ended. -/
theorem Heap.outcome_breakPromise (h : Heap V ε) (t s : StateId) :
    (h.breakPromise t).outcome s =
      if s = t then (h.outcome s).or (some .brokenPromise) else h.outcome s := by
  refine FutureState.outcome_update.trans ?_
  by_cases same : s = t
  · subst same
    rw [if_pos rfl, if_pos rfl, FutureState.outcome_breakPromise]
  · rw [if_neg same, if_neg same]

namespace Change

/-- A step decides a state only by completing it or by breaking its promise, and only a completing
call goes on to walk the continuations. -/
theorem decision_cases (layout : Layout h P) (change : Change h P h' P') (s : StateId) :
    (h'.outcome s = h.outcome s ∧ h'.walks s = h.walks s) ∨
    (∃ x ∈ P, ∃ result, x.decision = some (s, result) ∧
      (∀ value, result = .ok value → ¬ h.Decided s) ∧
      h'.outcome s = some result.outcome ∧ h'.walks s = h.walks s + 1) ∨
    (.aboutToDestroyPromise s ∈ P ∧ ¬ h.Decided s ∧
      h'.outcome s = some .brokenPromise ∧ h'.walks s = h.walks s) := by
  have fresh (grew : h.next < h'.next) : h'.outcome s = h.outcome s ∧ h'.walks s = h.walks s := by
    have new := change.allocates layout grew
    rw [Heap.outcome, new.cell, new.walks]
    exact ⟨rfl, rfl⟩
  cases change
  case thenFunc | «then» | newPromise | whenAll | whenAny =>
    exact Or.inl (fresh (Nat.lt_succ_self _))
  case decide x t result decision undecided =>
    by_cases same : s = t
    · subst same
      refine Or.inr (Or.inl ⟨x, Multiset.mem_cons_self .., result, decision, undecided, ?_,
        Function.update_self ..⟩)
      rw [Heap.outcome_decide, if_pos rfl, outcome_complete]
    · exact Or.inl ⟨(Heap.outcome_decide ..).trans (if_neg same), Function.update_of_ne same ..⟩
  case breakPromise t =>
    by_cases same : s = t
    · subst same
      rw [Heap.outcome_breakPromise, if_pos rfl]
      cases was : h.outcome s with
      | none =>
        exact Or.inr (Or.inr ⟨Multiset.mem_cons_self .., fun decided => decided was, rfl, rfl⟩)
      | some o => exact Or.inl ⟨rfl, rfl⟩
    · exact Or.inl ⟨(Heap.outcome_breakPromise ..).trans (if_neg same), rfl⟩
  case clearNext | storeClosure => exact Or.inl ⟨FutureState.outcome_update_same rfl, rfl⟩
  all_goals exact Or.inl ⟨rfl, rfl⟩

/-- A decided state stays decided. -/
theorem decided_kept (layout : Layout h P) (change : Change h P h' P') {s : StateId}
    (decided : h.Decided s) : h'.Decided s := by
  unfold Heap.Decided
  rcases change.decision_cases layout s with
    ⟨same, -⟩ | ⟨-, -, result, -, -, now, -⟩ | ⟨-, -, now, -⟩
  · exact same ▸ decided
  · simp [now]
  · simp [now]

/-- A stored closure stays listed until the promise of its antecedent ends. -/
theorem kept (inv : Inv h P) (change : Change h P h' P') :
    ∀ d s callable, h'.origin d = some (.derived s callable) → h'.appended d = true →
      d ∈ (h'.cell s).continuations ∨ h'.Retired s ∧ h'.Decided s := by
  intro d s callable made stored
  have gone (gone : h.Retired s ∧ h.Decided s) : h'.Retired s ∧ h'.Decided s :=
    ⟨change.retired_kept inv gone.1, change.decided_kept inv.layout gone.2⟩
  have was := inv.counts.kept d s callable
  have fresh (grew : h.next < h'.next) :
      d ∈ (h'.cell s).continuations ∨ h'.Retired s ∧ h'.Decided s := by
    have new := change.allocates inv.layout grew
    rw [new.appended] at stored
    rcases new.old_or_new made with rfl | ⟨-, origin⟩
    · rw [(inv.layout.blank _ (Nat.le_refl _)).appended] at stored
      cases stored
    · rw [new.cell]
      exact (was origin stored).imp_right gone
  cases change
  case thenFunc | «then» | newPromise | whenAll | whenAny => exact fresh (Nat.lt_succ_self _)
  case decide | breakPromise =>
    rw [FutureState.continuations_update_same (by simp)]
    exact (was made stored).imp_right gone
  case clearNext a e rest found =>
    rcases was made stored with listed | before
    · rw [FutureState.continuations_update]
      split
      · subst s
        exact Or.inr (gone ⟨inv.decisions.destroying _ (Multiset.mem_cons_self _ _) a
          (by simp [Instr.destroys]), inv.decisions.clearing a (Multiset.mem_cons_self _ _)⟩)
      · exact Or.inl listed
    · exact Or.inr (gone before)
  case storeClosure e a func origin undecided lambda argument =>
    rw [FutureState.continuations_update]
    by_cases same : d = e
    · subst same
      have clash : some (Origin.derived s callable) = some (.derived a func) :=
        made.symm.trans origin
      cases clash
      simp
    · rcases was made ((Function.update_of_ne same ..).symm.trans stored) with listed | before
      · left
        split
        · subst s
          simp [listed]
        · exact listed
      · exact Or.inr (gone before)
  all_goals exact (was made stored).imp_right gone

/-- A closure that was not stored is registered, and then called, once. -/
theorem inline (inv : Inv h P) (change : Change h P h' P') :
    ∀ d s callable, h'.origin d = some (.derived s callable) → h'.appended d = false →
      h'.invocations d + Stacks.count P' (Instr.isInvoke d .argument) +
        Stacks.count P' (Instr.isRegister d) = 1 ∧
      Stacks.count P' (Instr.isInvoke d .listed) = 0 ∧
      (h'.Decided s ∨ Stacks.count P' (Instr.isRegister d) = 1) := by
  intro d s callable made unstored
  have ready := change.decided_kept inv.layout (s := s)
  have was (made : h.origin d = some (.derived s callable)) (unstored : h.appended d = false) :=
    (inv.counts.inline d s callable made unstored).imp_right (And.imp_right (Or.imp_left ready))
  have fresh (grew : h.next < h'.next) : h'.invocations d +
      Stacks.count P' (Instr.isInvoke d .argument) + Stacks.count P' (Instr.isRegister d) = 1 ∧
      Stacks.count P' (Instr.isInvoke d .listed) = 0 ∧
      (h'.Decided s ∨ Stacks.count P' (Instr.isRegister d) = 1) := by
    have new := change.allocates inv.layout grew
    rw [new.appended] at unstored
    rw [new.invocations, new.count_invoke, new.count_invoke]
    rcases new.old_or_new made with rfl | ⟨old, origin⟩
    · obtain ⟨-, -, registers⟩ := new.fresh s callable made
      rw [registers, (inv.layout.blank _ (Nat.le_refl _)).invocations, inv.layout.count_invoke_next,
        inv.layout.count_invoke_next]
      exact ⟨rfl, rfl, Or.inr rfl⟩
    · rw [new.count_register old]
      exact was origin unstored
  cases change
  case thenFunc | «then» | newPromise | whenAll | whenAny => exact fresh (Nat.lt_succ_self _)
  case decide decision _ | skip decision _ | callableEnd decision _ _ | complete decision _ _ _ =>
    have was := was made unstored
    simp only [Stacks.count_cons, Instr.isInvoke_of_decision decision,
      Instr.isRegister_of_decision decision] at was ⊢
    simpa [Instr.isInvoke, Instr.isRegister] using was
  case walkNext a index e found =>
    obtain ⟨stored, -⟩ := inv.layout.listed a e (List.mem_of_getElem? found)
    have other : e ≠ d := by
      rintro rfl
      cases stored.symm.trans unstored
    simpa [Instr.isInvoke, Instr.isRegister, other] using was made unstored
  case invokeUser e copy a origin | invokeRelease e copy a all origin |
      invokeFire e copy a any origin =>
    obtain ⟨once, none, decided⟩ := was made unstored
    by_cases same : e = d
    · subst same
      cases copy
      all_goals simp [Instr.isInvoke, Instr.isRegister] at once none decided ⊢
      · exact absurd rfl (inv.layout.typed _ (Multiset.mem_cons_self _ _)).1
      · exact ⟨by omega, none, decided⟩
    · have apart : d ≠ e := fun flipped => same flipped.symm
      simp [Instr.isInvoke, Instr.isRegister, same, apart] at once none decided ⊢
      exact ⟨once, none, decided⟩
  case storeClosure e a func origin undecided lambda argument =>
    by_cases same : e = d
    · subst same
      cases (Function.update_self ..).symm.trans unstored
    · have apart : d ≠ e := fun flipped => same flipped.symm
      simpa [Instr.isInvoke, Instr.isRegister, same] using
        was made ((Function.update_of_ne apart ..).symm.trans unstored)
  case runInline e a func origin decided =>
    obtain ⟨once, none, ready⟩ := was made unstored
    by_cases same : e = d
    · subst same
      have clash : some (Origin.derived s callable) = some (.derived a func) :=
        made.symm.trans origin
      cases clash
      simp [Instr.isInvoke, Instr.isRegister] at once none ⊢
      exact ⟨by omega, none, Or.inl decided⟩
    · simp [Instr.isInvoke, Instr.isRegister, same] at once none ready ⊢
      exact ⟨once, none, ready⟩
  case destroyClosure e copy =>
    rw [count_dropped rfl fun _ _ => rfl, count_dropped rfl fun _ _ => rfl,
      count_dropped rfl fun _ _ => rfl]
    simpa [Instr.isInvoke, Instr.isRegister] using was made unstored
  case enter code =>
    rw [count_external fun _ => rfl, count_external fun _ => rfl, count_external fun _ => rfl]
    exact was made unstored
  all_goals simpa [Instr.isInvoke, Instr.isRegister] using was made unstored

end Change

/-- Nobody walks the continuations of a state whose promise is going. -/
theorem Exclusive.no_walk (exclusive : Exclusive h P) {s : StateId} (retired : h.Retired s)
    (index : Nat) : Stacks.count P (Instr.walksTo s index) = 0 :=
  Stacks.count_eq_zero.mpr fun x inside => by
    by_contra walks
    refine exclusive x inside s ?_ retired
    cases x <;> simp_all [Instr.walksTo, Instr.completes]

/-- Nobody walks the continuations of a state that was never completed. -/
theorem Decisions.no_walk (decisions : Decisions h P) {s : StateId} (never : h.walks s = 0)
    (index : Nat) : Stacks.count P (Instr.walksTo s index) = 0 :=
  Stacks.count_eq_zero.mpr fun x inside => by
    by_contra walks
    cases x <;> simp [Instr.walksTo] at walks
    obtain ⟨rfl, -⟩ := walks
    have some := decisions.walking _ _ inside
    omega

/-- A closure is found at its index only. -/
theorem idxOf_ne {l : List StateId} {index : Nat} {d e : StateId} (found : l[index]? = some e)
    (other : e ≠ d) : l.idxOf d ≠ index := by
  intro here
  have inside : l.idxOf d < l.length := by
    rw [here]
    exact (List.getElem?_eq_some_iff.mp found).1
  have value := List.getElem?_eq_getElem inside
  rw [List.getElem_idxOf inside, here, found] at value
  exact other (Option.some.inj value)

/-- A closure that is listed at an index has this index. -/
theorem Layout.idxOf_listed (layout : Layout h P) {s d : StateId} {index : Nat}
    (found : (h.cell s).continuations[index]? = some d) :
    (h.cell s).continuations.idxOf d = index := by
  obtain ⟨bound, value⟩ := List.getElem?_eq_some_iff.mp found
  rw [← value]
  exact (layout.nodup s).idxOf_getElem index bound

namespace Change

/-- A stored closure is called once by every completing call that walks past it. -/
theorem stored (inv : Inv h P) (exclusive : Exclusive h P) (change : Change h P h' P') :
    ∀ d s callable, h'.origin d = some (.derived s callable) → h'.appended d = true →
      h'.invocations d + Stacks.count P' (Instr.isInvoke d .listed) +
        Stacks.count P' (Instr.walksTo s ((h'.cell s).continuations.idxOf d)) = h'.walks s ∧
      Stacks.count P' (Instr.isInvoke d .argument) = 0 ∧
      Stacks.count P' (Instr.isRegister d) = 0 := by
  intro d s callable made stored
  have was := inv.counts.stored d s callable
  have listed := inv.counts.kept d s callable
  have fresh (grew : h.next < h'.next) : h'.invocations d +
      Stacks.count P' (Instr.isInvoke d .listed) +
      Stacks.count P' (Instr.walksTo s ((h'.cell s).continuations.idxOf d)) = h'.walks s ∧
      Stacks.count P' (Instr.isInvoke d .argument) = 0 ∧
      Stacks.count P' (Instr.isRegister d) = 0 := by
    have new := change.allocates inv.layout grew
    rw [new.appended] at stored
    rw [new.invocations, new.count_invoke, new.count_invoke, new.cell, new.count_walks, new.walks]
    rcases new.old_or_new made with rfl | ⟨old, origin⟩
    · rw [(inv.layout.blank _ (Nat.le_refl _)).appended] at stored
      cases stored
    · rw [new.count_register old]
      exact was origin stored
  cases change
  case thenFunc | «then» | newPromise | whenAll | whenAny => exact fresh (Nat.lt_succ_self _)
  case decide x t result decision undecided =>
    obtain ⟨walked, none, done⟩ := was made stored
    rw [FutureState.continuations_update_same (by simp)]
    simp only [Stacks.count_cons, Instr.isInvoke_of_decision decision,
      Instr.isRegister_of_decision decision, Instr.walksTo_of_decision decision] at walked none done
    by_cases same : s = t
    · subst same
      simp [Instr.isInvoke, Instr.isRegister, Instr.walksTo] at walked none done ⊢
      exact ⟨by omega, none, done⟩
    · have apart : t ≠ s := fun flipped => same flipped.symm
      simp [Instr.isInvoke, Instr.isRegister, Instr.walksTo, same, apart] at walked none done ⊢
      exact ⟨walked, none, done⟩
  case skip decision _ | callableEnd decision _ _ | complete decision _ _ _ =>
    have was := was made stored
    simp only [Stacks.count_cons, Instr.isInvoke_of_decision decision,
      Instr.isRegister_of_decision decision, Instr.walksTo_of_decision decision] at was ⊢
    simpa [Instr.isInvoke, Instr.isRegister, Instr.walksTo] using was
  case walkNext a index e found =>
    obtain ⟨walked, none, done⟩ := was made stored
    obtain ⟨-, func, origin⟩ := inv.layout.listed a e (List.mem_of_getElem? found)
    have made : h.origin d = some (.derived s callable) := made
    simp [Instr.isInvoke, Instr.isRegister, Instr.walksTo] at walked none done ⊢
    refine ⟨?_, none, done⟩
    by_cases here : a = s
    · subst here
      by_cases same : e = d
      · subst same
        have at_index := inv.layout.idxOf_listed found
        rw [at_index] at walked ⊢
        -- the walk leaves the index of the closure behind
        simp only [Nat.le_refl, true_and, if_true] at walked ⊢
        split <;> omega
      · have past : index ≤ (h.cell a).continuations.idxOf d ↔
            index + 1 ≤ (h.cell a).continuations.idxOf d := by
          have other := idxOf_ne found same
          omega
        simp only [past, same, if_false] at walked ⊢
        simpa using walked
    · have other : e ≠ d := by
        rintro rfl
        rw [origin] at made
        cases made
        exact here rfl
      simpa [here, other] using walked
  case walkEnd a index ended =>
    obtain ⟨walked, none, done⟩ := was made stored
    simp [Instr.isInvoke, Instr.isRegister, Instr.walksTo] at walked none done ⊢
    refine ⟨?_, none, done⟩
    have past : ¬ (a = s ∧ index ≤ (h.cell s).continuations.idxOf d) := by
      rintro ⟨rfl, le⟩
      rcases listed made stored with inside | ⟨retired, -⟩
      · have bound := List.idxOf_lt_length_of_mem inside
        have beyond := List.getElem?_eq_none_iff.mp ended
        omega
      · exact exclusive _ (Multiset.mem_cons_self ..) a (by simp [Instr.completes]) retired
    rw [if_neg past] at walked
    exact walked
  case breakPromise =>
    rw [FutureState.continuations_update_same (by simp)]
    simpa [Instr.isInvoke, Instr.isRegister, Instr.walksTo] using was made stored
  case clearNext a e rest found =>
    obtain ⟨walked, none, done⟩ := was made stored
    by_cases here : s = a
    · subst here
      have retired := inv.decisions.destroying _ (Multiset.mem_cons_self _ _) s
        (by simp [Instr.destroys])
      have quiet := exclusive.no_walk retired
      rw [quiet] at walked
      simp [Instr.isInvoke, Instr.isRegister] at walked none done quiet ⊢
      simp [Instr.walksTo] at quiet ⊢
      rw [quiet]
      exact ⟨walked, none, done⟩
    · rw [FutureState.continuations_update, if_neg here]
      simpa [Instr.isInvoke, Instr.isRegister, Instr.walksTo] using was made stored
  case invokeUser e copy a origin | invokeRelease e copy a all origin |
      invokeFire e copy a any origin =>
    obtain ⟨walked, none, done⟩ := was made stored
    by_cases same : e = d
    · subst same
      cases copy
      all_goals simp [Instr.isInvoke, Instr.isRegister, Instr.walksTo] at walked none done ⊢
      · exact absurd rfl (inv.layout.typed _ (Multiset.mem_cons_self _ _)).1
      · exact ⟨by omega, none, done⟩
    · have apart : d ≠ e := fun flipped => same flipped.symm
      simp [Instr.isInvoke, Instr.isRegister, Instr.walksTo, same, apart] at walked none done ⊢
      exact ⟨walked, none, done⟩
  case storeClosure e a func origin undecided lambda argument =>
    by_cases same : d = e
    · subst same
      have made : h.origin d = some (.derived s callable) := made
      rw [origin] at made
      cases made
      have unstored : h.appended d = false := by
        by_contra before
        have none := (was origin (by simpa using before)).2.2
        simp [Instr.isRegister] at none
      obtain ⟨once, none, -⟩ := inv.counts.inline d s callable origin unstored
      have never := inv.decisions.unwalked s undecided
      have quiet := inv.decisions.no_walk never
      simp [Instr.isInvoke, Instr.isRegister] at once none quiet ⊢
      simp [Instr.walksTo] at quiet
      simp only [quiet, never, none]
      omega
    · have before : h.appended d = true := (Function.update_of_ne same ..).symm.trans stored
      obtain ⟨walked, none, done⟩ := was made before
      have apart : e ≠ d := fun flipped => same flipped.symm
      have index : Stacks.count P' (Instr.walksTo s ((h.cell s).continuations.idxOf d)) =
          Stacks.count P' (Instr.walksTo s
            ((Function.update h.cell a ((h.cell a).append e) s).continuations.idxOf d)) := by
        rw [FutureState.continuations_update]
        split
        · subst s
          rcases listed made before with inside | ⟨retired, -⟩
          · rw [FutureState.continuations_append, List.idxOf_append_of_mem inside]
          · have quiet := exclusive.no_walk retired
            simp [Instr.walksTo] at quiet
            rw [quiet, quiet]
        · rfl
      simp [Instr.isInvoke, Instr.isRegister, Instr.walksTo, apart] at walked none done ⊢
      rw [← index]
      exact ⟨walked, none, done⟩
  case runInline e a func origin decided =>
    obtain ⟨walked, none, done⟩ := was made stored
    have other : e ≠ d := by
      rintro rfl
      simp [Instr.isRegister] at done
    simp [Instr.isInvoke, Instr.isRegister, Instr.walksTo, other] at walked none done ⊢
    exact ⟨walked, none, done⟩
  case destroyClosure e copy =>
    rw [count_dropped rfl fun _ _ => rfl, count_dropped rfl fun _ _ => rfl,
      count_dropped rfl fun _ _ => rfl, count_dropped rfl fun _ _ => rfl]
    simpa [Instr.isInvoke, Instr.isRegister, Instr.walksTo] using was made stored
  case enter code =>
    rw [count_external fun _ => rfl, count_external fun _ => rfl, count_external fun _ => rfl,
      count_external fun _ => rfl]
    exact was made stored
  all_goals simpa [Instr.isInvoke, Instr.isRegister, Instr.walksTo] using was made stored

/-- A step keeps the counts. -/
theorem counts (inv : Inv h P) (exclusive : Exclusive h P) (change : Change h P h' P') :
    Counts h' P' where
  copies := copies inv change
  stored := stored inv exclusive change
  inline := inline inv change
  unlisted := unlisted inv change
  kept := kept inv change

end Change

end Azul.Async
