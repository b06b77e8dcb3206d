import Azul.Async.RuntimeCounts

/-!
# Who decides a state, and how often

Every result handed to a promise is on its way to the state or has been stored there. A state that
received one result therefore holds that result once its completing call has decided it, unless its
promise was gone first; and a promise goes only when nothing is completing its state any more.
-/

namespace Azul.Async

open Foundation

variable {V ε X : Type} {h h' : Heap V ε} {P P' : Multiset (Instr V ε X)}

namespace Instr

/-- An instruction that is about to complete a state belongs to a completing call of it. -/
theorem completes_of_decision {x : Instr V ε X} {s : StateId} {result : Result V ε}
    (decision : x.decision = some (s, result)) : x.completes s = true := by
  cases x <;> simp only [Instr.decision, Option.some.injEq, Prod.mk.injEq, reduceCtorEq] at decision
  all_goals simp [Instr.completes, decision.1]

/-- The states that an instruction is about to complete. -/
theorem decidesOn_of_decision {x : Instr V ε X} {s : StateId} {result : Result V ε}
    (decision : x.decision = some (s, result)) (t : StateId) : x.decidesOn t = (s == t) := by
  cases x <;> simp only [Instr.decision, Option.some.injEq, Prod.mk.injEq, reduceCtorEq] at decision
  all_goals simp [Instr.decidesOn, decision.1]

/-- An instruction that is about to complete a state does so with some result. -/
theorem decision_of_decidesOn {x : Instr V ε X} {s : StateId} (decides : x.decidesOn s = true) :
    ∃ result, x.decision = some (s, result) := by
  cases x <;> simp [Instr.decidesOn] at decides
  all_goals exact ⟨_, by rw [← decides]; rfl⟩

/-- An instruction that is about to complete a state ends no promise. -/
theorem destroys_of_decision {x : Instr V ε X} {decided : StateId × Result V ε}
    (decision : x.decision = some decided) (s : StateId) : x.destroys s = false := by
  cases x <;> first | rfl | simp [Instr.decision] at decision

/-- An instruction that is about to complete a state is no callable. -/
theorem isInCallable_of_decision {x : Instr V ε X} {decided : StateId × Result V ε}
    (decision : x.decision = some decided) (d : StateId) : x.isInCallable d = false := by
  cases x <;> first | rfl | simp [Instr.decision] at decision

end Instr

/-- What is about to complete a state. -/
theorem Stacks.decidesOn_pos {s : StateId} (some : 0 < Stacks.count P (Instr.decidesOn s)) :
    ∃ x ∈ P, ∃ result, x.decision = Option.some (s, result) := by
  obtain ⟨x, inside, decides⟩ := Stacks.count_pos.mp some
  exact ⟨x, inside, Instr.decision_of_decidesOn decides⟩

/-- A pending completion is counted. -/
theorem Stacks.decidesOn_of_mem {x : Instr V ε X} {s : StateId} {result : Result V ε}
    (inside : x ∈ P) (decision : x.decision = some (s, result)) :
    0 < Stacks.count P (Instr.decidesOn s) :=
  Stacks.count_pos.mpr ⟨x, inside, by simp [Instr.decidesOn_of_decision decision]⟩

/-- A state without a promise is a combinator's, which has no value. -/
theorem Layout.isVoid_of_not_promised (layout : Layout h P) {s : StateId} (old : s < h.next)
    (unpromised : ¬ h.Promised s) : h.isVoid s = true := by
  obtain ⟨origin, made, ok⟩ := layout.allocated s old
  cases origin with
  | promise => exact absurd (Or.inl made) unpromised
  | derived a callable => exact absurd (Or.inr ⟨a, callable, made⟩) unpromised
  | whenAll inputs => exact ok.1
  | whenAny inputs => exact ok.1

namespace Allocates

/-- Nothing else is scheduled or executed. -/
theorem mem_iff (new : Allocates h P h' P') {x : Instr V ε X}
    (other : x.startsFor h.next = false) : x ∈ P' ↔ x ∈ P := by
  classical
  have same := new.quiet (fun y => decide (y = x)) fun y starts => by
    refine decide_eq_false fun same => ?_
    rw [same, other] at starts
    cases starts
  have member (Q : Multiset (Instr V ε X)) :
      x ∈ Q ↔ 0 < Stacks.count Q fun y => decide (y = x) := by
    simp [Stacks.count_pos]
  rw [member, member, same]

theorem count_decides (new : Allocates h P h' P') (s : StateId) :
    Stacks.count P' (Instr.decidesOn s) = Stacks.count P (Instr.decidesOn s) :=
  new.quiet _ fun x starts => by cases x <;> first | rfl | cases starts

theorem count_inCallable (new : Allocates h P h' P') (d : StateId) :
    Stacks.count P' (Instr.isInCallable d) = Stacks.count P (Instr.isInCallable d) :=
  new.quiet _ fun x starts => by cases x <;> first | rfl | cases starts

theorem outcome (new : Allocates h P h' P') (s : StateId) : h'.outcome s = h.outcome s := by
  unfold Heap.outcome
  rw [new.cell]

/-- A new state has not lost its promise, and the old states keep theirs. -/
theorem retired_iff (new : Allocates h P h' P') (layout : Layout h P) {s : StateId} :
    h'.Retired s ↔ h.Retired s := by
  by_cases same : s = h.next
  · subst same
    have blank := layout.blank h.next (Nat.le_refl _)
    refine ⟨fun retired => ?_, fun retired => ?_⟩
    · rcases retired.promised with made | ⟨a, callable, made⟩
      · rw [Heap.retired_promise made, new.destroyed, blank.destroyed] at retired
        cases retired
      · rw [Heap.retired_derived made, (new.fresh a callable made).1] at retired
        simp at retired
    · exact absurd (layout.promised_lt retired.promised) (Nat.lt_irrefl _)
  · simp only [Heap.Retired, new.origin s same, new.copies s same, new.destroyed]

/-- A promised state is new or was promised before. -/
theorem promised (new : Allocates h P h' P') {s : StateId} (promised : h'.Promised s) :
    s = h.next ∨ h.Promised s := by
  by_cases same : s = h.next
  · exact Or.inl same
  · simp only [Heap.Promised, Heap.Derived, new.origin s same] at promised
    exact Or.inr promised

/-- Nothing completes the new state. -/
theorem count_decides_next (layout : Layout h P) :
    Stacks.count P (Instr.decidesOn h.next) = 0 := by
  by_contra some
  obtain ⟨x, inside, result, decision⟩ := Stacks.decidesOn_pos (Nat.pos_of_ne_zero some)
  exact Nat.lt_irrefl _ (layout.decision_lt inside decision)

/-- An allocation decides nothing. -/
theorem decisions (new : Allocates h P h' P') (inv : Inv h P) : Decisions h' P' where
  destroying x inside s destroys := by
    rw [new.retired_iff inv.layout]
    refine inv.decisions.destroying x ((new.mem_iff ?_).mp inside) s destroys
    cases x <;> first | rfl | cases destroys
  retired s retired := by
    rw [new.retired_iff inv.layout] at retired
    rw [Heap.Decided, new.outcome, new.cell, new.mem_iff rfl, new.mem_iff rfl]
    exact inv.decisions.retired s retired
  clearing s inside := by
    rw [Heap.Decided, new.outcome]
    exact inv.decisions.clearing s ((new.mem_iff rfl).mp inside)
  broken s broken := by
    rw [new.outcome] at broken
    rw [new.retired_iff inv.layout, new.walks]
    exact inv.decisions.broken s broken
  unwalked s undecided := by
    rw [Heap.Decided, new.outcome] at undecided
    rw [new.walks]
    exact inv.decisions.unwalked s undecided
  walked s o decided := by
    rw [new.outcome] at decided
    rw [new.walks]
    exact inv.decisions.walked s o decided
  walking s index inside := by
    rw [new.walks]
    exact inv.decisions.walking s index ((new.mem_iff rfl).mp inside)
  live s made x inside completes := by
    rw [new.destroyed]
    by_cases same : s = h.next
    · rw [same]
      exact (inv.layout.blank _ (Nat.le_refl _)).destroyed
    · rw [new.origin s same] at made
      refine inv.decisions.live s made x ((new.mem_iff ?_).mp inside) completes
      cases x <;> first | rfl | cases completes
  receivedLe s promised := by
    rw [new.count_decides, new.walks, new.received]
    rcases new.promised promised with rfl | promised
    · rw [count_decides_next inv.layout, (inv.layout.blank _ (Nat.le_refl _)).walks]
      exact Nat.zero_le _
    · exact inv.decisions.receivedLe s promised
  receivedGe s promised some := by
    rw [new.received] at some
    rw [new.count_decides, new.walks]
    rcases new.promised promised with rfl | promised
    · exact absurd (inv.layout.blank _ (Nat.le_refl _)).received some
    · exact inv.decisions.receivedGe s promised some
  receivedPending s promised result one x inside other decision := by
    rw [new.received] at one
    rcases new.promised promised with rfl | promised
    · rw [(inv.layout.blank _ (Nat.le_refl _)).received] at one
      cases one
    · refine inv.decisions.receivedPending s promised result one x ((new.mem_iff ?_).mp inside)
        other decision
      cases x <;> first | rfl | cases decision
  receivedOutcome s promised result one walked := by
    rw [new.received] at one
    rw [new.walks] at walked
    rw [new.outcome]
    rcases new.promised promised with rfl | promised
    · rw [(inv.layout.blank _ (Nat.le_refl _)).received] at one
      cases one
    · exact inv.decisions.receivedOutcome s promised result one walked
  returned d derived := by
    rw [new.invocations, new.received, new.count_inCallable]
    by_cases same : d = h.next
    · have blank := inv.layout.blank h.next (Nat.le_refl _)
      rw [same, blank.invocations, blank.received]
      have none : Stacks.count P (Instr.isInCallable h.next) = 0 :=
        inv.layout.count_fresh fun x holds typed => by
          cases x <;> simp only [Instr.isInCallable, beq_iff_eq, Bool.false_eq_true] at holds
          obtain ⟨a, made⟩ := typed
          exact inv.layout.not_derived_next ⟨a, _, holds ▸ made⟩
      rw [none]
      rfl
    · refine inv.decisions.returned d ?_
      simpa only [Heap.Derived, new.origin d same] using derived
  combinator s underived o decided := by
    rw [new.outcome] at decided
    by_cases same : s = h.next
    · rw [same, Heap.outcome, (inv.layout.blank _ (Nat.le_refl _)).cell] at decided
      cases decided
    · refine inv.decisions.combinator s (fun promised => underived ?_) o decided
      simpa only [Heap.Promised, Heap.Derived, new.origin s same] using promised

end Allocates

namespace Change

/-- Only an allocation makes a state. -/
theorem origin_stays (change : Change h P h' P') (stayed : ¬ h.next < h'.next) :
    h'.origin = h.origin := by
  cases change
  case thenFunc | «then» | newPromise | whenAll | whenAny =>
    exact absurd (Nat.lt_succ_self _) stayed
  all_goals rfl

/-- The destructor of a promise schedules the promise's end. -/
theorem destroyed_new (layout : Layout h P) (change : Change h P h' P') {s : StateId}
    (destroyed : h'.destroyed s = true) :
    h.destroyed s = true ∨ .aboutToDestroyPromise s ∈ P' := by
  have fresh (grew : h.next < h'.next) : h.destroyed s = true :=
    (change.allocates layout grew).destroyed ▸ destroyed
  cases change
  case thenFunc | «then» | newPromise | whenAll | whenAny =>
    exact Or.inl (fresh (Nat.lt_succ_self _))
  case destroyPromise t origin live idle =>
    by_cases same : s = t
    · exact same ▸ Or.inr (Multiset.mem_cons_self ..)
    · exact Or.inl (by simpa [same] using destroyed)
  all_goals exact Or.inl destroyed

/-- The last copy of a closure schedules the end of the promise it owns. -/
theorem copies_new (layout : Layout h P) (change : Change h P h' P') {s : StateId}
    (old : s < h.next) (gone : h'.copies s = ∅) :
    h.copies s = ∅ ∨ .aboutToDestroyPromise s ∈ P' := by
  have fresh (grew : h.next < h'.next) : h.copies s = ∅ :=
    (change.allocates layout grew).copies s (Nat.ne_of_lt old) ▸ gone
  cases change
  case thenFunc | «then» | newPromise | whenAll | whenAny =>
    exact Or.inl (fresh (Nat.lt_succ_self _))
  case destroyClosure d copy =>
    by_cases same : s = d
    · subst same
      have gone : (h.copies s).erase copy = ∅ := by simpa using gone
      by_cases live : copy ∈ h.copies s
      · simp [Heap.lastCopy, live, gone]
      · rw [Finset.erase_eq_of_notMem live] at gone
        exact Or.inl gone
    · exact Or.inl (by simpa [same] using gone)
  case storeClosure d a callable origin undecided lambda argument =>
    left
    refine Finset.eq_empty_of_forall_notMem fun c inside => ?_
    exact Finset.eq_empty_iff_forall_notMem.mp gone c (mem_update_insert.mpr (Or.inl inside))
  all_goals exact Or.inl gone

/-- A promise ends when its end is scheduled. -/
theorem retired_new (layout : Layout h P) (change : Change h P h' P') {s : StateId}
    (retired : h'.Retired s) : h.Retired s ∨ .aboutToDestroyPromise s ∈ P' := by
  by_cases grew : h.next < h'.next
  · exact Or.inl (((change.allocates layout grew).retired_iff layout).mp retired)
  · have same := change.origin_stays grew
    rcases retired.promised with made | ⟨a, callable, made⟩
    · rw [Heap.retired_promise made] at retired
      rw [Heap.retired_promise (same ▸ made)]
      exact change.destroyed_new layout retired
    · have old := layout.lt_next (same ▸ made)
      rw [Heap.retired_derived made] at retired
      rw [Heap.retired_derived (same ▸ made)]
      exact change.copies_new layout old retired

/-- The end of a promise is executed only after the promise has retired. -/
theorem destroying (inv : Inv h P) (change : Change h P h' P') :
    ∀ x ∈ P', ∀ s, x.destroys s = true → h'.Retired s := by
  intro x inside s destroys
  have fresh (grew : h.next < h'.next) : h'.Retired s :=
    ((change.allocates inv.layout grew).decisions inv).destroying x inside s destroys
  have ext := change.extends
  have old (inside : x ∈ P) : h'.Retired s :=
    change.retired_kept inv (inv.decisions.destroying x inside s destroys)
  have was := change.retired_kept inv (s := s)
  cases change
  case thenFunc | «then» | newPromise | whenAll | whenAny => exact fresh (Nat.lt_succ_self _)
  case throw | invokeUser | runInline | releaseLast | decide =>
    rcases Multiset.mem_cons.mp inside with rfl | inside
    · cases destroys
    · exact old (Multiset.mem_cons_of_mem inside)
  case walkNext | invokeRelease | invokeFire =>
    rcases Multiset.mem_cons.mp inside with rfl | inside
    · cases destroys
    · rcases Multiset.mem_cons.mp inside with rfl | inside
      · cases destroys
      · exact old (Multiset.mem_cons_of_mem inside)
  case breakPromise t =>
    rcases Multiset.mem_cons.mp inside with rfl | inside
    · exact was (inv.decisions.destroying _ (Multiset.mem_cons_self ..) s destroys)
    · exact old (Multiset.mem_cons_of_mem inside)
  case clearNext t d rest found =>
    rcases Multiset.mem_cons.mp inside with rfl | inside
    · cases destroys
    · exact old inside
  case callableEnd decision _ _ =>
    rcases Multiset.mem_cons.mp inside with rfl | inside
    · rw [Instr.destroys_of_decision decision] at destroys
      cases destroys
    · exact old (Multiset.mem_cons_of_mem inside)
  case complete decision _ _ _ =>
    rcases Multiset.mem_cons.mp inside with rfl | inside
    · rw [Instr.destroys_of_decision decision] at destroys
      cases destroys
    · exact old inside
  case destroyClosure d copy =>
    rcases Multiset.mem_add.mp inside with new | inside
    · rcases mem_dropped (Multiset.mem_coe.mp new) with ⟨last, rfl⟩ | ⟨_, all, -, rfl⟩
      · obtain rfl : d = s := by simpa [Instr.destroys] using destroys
        obtain ⟨a, callable, made⟩ : h.Derived d := inv.layout.typed _ (Multiset.mem_cons_self _ _)
        refine (Heap.retired_derived (inv.layout.origin_kept ext made)).mpr ?_
        simpa using last.2
      · cases destroys
    · exact old (Multiset.mem_cons_of_mem inside)
  case destroyPromise t origin live idle =>
    rcases Multiset.mem_cons.mp inside with rfl | inside
    · obtain rfl : t = s := by simpa [Instr.destroys] using destroys
      refine (Heap.retired_promise (inv.layout.origin_kept ext origin)).mpr ?_
      simp
    · exact old inside
  case enter code =>
    rcases Multiset.mem_add.mp inside with new | inside
    · obtain ⟨c, -, rfl⟩ := List.mem_map.mp (Multiset.mem_coe.mp new)
      cases destroys
    · exact old inside
  all_goals exact old (Multiset.mem_cons_of_mem inside)

/-- The end of a promise first breaks the promise. -/
theorem aboutToDestroy_kept (layout : Layout h P) (change : Change h P h' P') {s : StateId}
    (inside : .aboutToDestroyPromise s ∈ P) :
    .aboutToDestroyPromise s ∈ P' ∨ h'.Decided s ∧ .clear s ∈ P' := by
  have fresh (grew : h.next < h'.next) : .aboutToDestroyPromise s ∈ P' :=
    ((change.allocates layout grew).mem_iff rfl).mpr inside
  cases change
  case thenFunc | «then» | newPromise | whenAll | whenAny =>
    exact Or.inl (fresh (Nat.lt_succ_self _))
  case decide decision _ | skip decision _ =>
    rcases Multiset.mem_cons.mp inside with rfl | inside
    · cases decision
    · simp [inside]
  case breakPromise t =>
    rcases Multiset.mem_cons.mp inside with same | inside
    · cases same
      right
      simp [Heap.Decided, Heap.outcome]
    · simp [inside]
  case complete | destroyPromise | enter => simp [inside]
  all_goals
    simp only [Multiset.mem_cons, reduceCtorEq, false_or] at inside
    simp [inside]

/-- The end of a promise then clears the continuations. -/
theorem clear_kept (layout : Layout h P) (change : Change h P h' P') {s : StateId}
    (inside : .clear s ∈ P) : .clear s ∈ P' ∨ (h'.cell s).continuations = [] := by
  have fresh (grew : h.next < h'.next) : .clear s ∈ P' :=
    ((change.allocates layout grew).mem_iff rfl).mpr inside
  cases change
  case thenFunc | «then» | newPromise | whenAll | whenAny =>
    exact Or.inl (fresh (Nat.lt_succ_self _))
  case decide decision _ | skip decision _ =>
    rcases Multiset.mem_cons.mp inside with rfl | inside
    · cases decision
    · simp [inside]
  case clearNext t d rest found =>
    rcases Multiset.mem_cons.mp inside with same | inside
    · cases same
      simp
    · simp [inside]
  case clearEnd t ended =>
    rcases Multiset.mem_cons.mp inside with same | inside
    · cases same
      exact Or.inr ended
    · exact Or.inl inside
  case complete | destroyPromise | enter => simp [inside]
  all_goals
    simp only [Multiset.mem_cons, reduceCtorEq, false_or] at inside
    simp [inside]

/-- Nothing is registered with a decided state. -/
theorem cleared_kept (layout : Layout h P) (change : Change h P h' P') {s : StateId}
    (decided : h.Decided s) (cleared : (h.cell s).continuations = []) :
    (h'.cell s).continuations = [] := by
  have fresh (grew : h.next < h'.next) : (h'.cell s).continuations = [] :=
    (change.allocates layout grew).cell ▸ cleared
  cases change
  case thenFunc | «then» | newPromise | whenAll | whenAny => exact fresh (Nat.lt_succ_self _)
  case decide | breakPromise =>
    rwa [FutureState.continuations_update_same (by simp)]
  case clearNext t d rest found =>
    rw [FutureState.continuations_update]
    split
    · subst s
      cases found.symm.trans cleared
    · exact cleared
  case storeClosure d t callable origin undecided lambda argument =>
    rw [FutureState.continuations_update]
    split
    · subst s
      exact absurd decided undecided
    · exact cleared
  all_goals exact cleared

/-- The end of a promise goes on until it has left nothing registered. -/
theorem retired (inv : Inv h P) (change : Change h P h' P') :
    ∀ s, h'.Retired s → .aboutToDestroyPromise s ∈ P' ∨
      h'.Decided s ∧ ((h'.cell s).continuations = [] ∨ .clear s ∈ P') := by
  intro s retired
  rcases change.retired_new inv.layout retired with before | scheduled
  · rcases inv.decisions.retired s before with breaking | ⟨decided, cleared | clearing⟩
    · exact (change.aboutToDestroy_kept inv.layout breaking).imp_right (And.imp_right Or.inr)
    · exact Or.inr ⟨change.decided_kept inv.layout decided,
        Or.inl (change.cleared_kept inv.layout decided cleared)⟩
    · exact Or.inr ⟨change.decided_kept inv.layout decided,
        (change.clear_kept inv.layout clearing).symm⟩
  · exact Or.inl scheduled

/-- The continuations of a state are cleared after it was decided. -/
theorem clearing (inv : Inv h P) (change : Change h P h' P') :
    ∀ s, .clear s ∈ P' → h'.Decided s := by
  intro s inside
  have fresh (grew : h.next < h'.next) :=
    ((change.allocates inv.layout grew).decisions inv).clearing s inside
  have was (inside : .clear s ∈ P) : h'.Decided s :=
    change.decided_kept inv.layout (inv.decisions.clearing s inside)
  cases change
  case thenFunc | «then» | newPromise | whenAll | whenAny => exact fresh (Nat.lt_succ_self _)
  case breakPromise t =>
    rcases Multiset.mem_cons.mp inside with same | inside
    · cases same
      simp [Heap.Decided, Heap.outcome]
    · exact was (Multiset.mem_cons_of_mem inside)
  case clearNext =>
    simp only [Multiset.mem_cons, reduceCtorEq, false_or] at inside
    exact was (Multiset.mem_cons.mpr inside)
  case callableEnd decision _ _ =>
    rcases Multiset.mem_cons.mp inside with rfl | inside
    · cases decision
    · exact was (Multiset.mem_cons_of_mem inside)
  case complete decision _ _ _ =>
    rcases Multiset.mem_cons.mp inside with rfl | inside
    · cases decision
    · exact was inside
  case destroyClosure d copy =>
    rcases Multiset.mem_add.mp inside with new | inside
    · rcases mem_dropped (Multiset.mem_coe.mp new) with ⟨-, clash⟩ | ⟨_, _, -, clash⟩
      all_goals cases clash
    · exact was (Multiset.mem_cons_of_mem inside)
  case skip | walkEnd | clearEnd | storeClosure | releaseOther | leave =>
    exact was (Multiset.mem_cons_of_mem inside)
  case destroyPromise | enter =>
    simp only [Multiset.mem_cons, Multiset.mem_add, Multiset.mem_coe, List.mem_map, reduceCtorEq,
      false_or, and_false, exists_false] at inside
    exact was inside
  all_goals
    simp only [Multiset.mem_cons, reduceCtorEq, false_or] at inside
    exact was (Multiset.mem_cons_of_mem inside)

end Change

/-- No result is the end of a promise. -/
theorem Result.outcome_ne_broken (result : Result V ε) : result.outcome ≠ .brokenPromise := by
  cases result <;> simp [Result.outcome]

namespace Change

/-- A broken state has lost its promise and was never completed. -/
theorem broken (inv : Inv h P) (change : Change h P h' P') :
    ∀ s, h'.outcome s = some .brokenPromise → h'.Retired s ∧ h'.walks s = 0 := by
  intro s broken
  have kept := change.retired_kept inv (s := s)
  rcases change.decision_cases inv.layout s with
    ⟨same, walks⟩ | ⟨-, -, result, -, -, now, -⟩ | ⟨breaking, undecided, -, walks⟩
  · obtain ⟨retired, never⟩ := inv.decisions.broken s (same.symm.trans broken)
    exact ⟨kept retired, walks.trans never⟩
  · exact absurd (Option.some.inj (now.symm.trans broken)) (Result.outcome_ne_broken result)
  · exact ⟨kept (inv.decisions.destroying _ breaking s (by simp [Instr.destroys])),
      walks.trans (inv.decisions.unwalked s undecided)⟩

/-- An undecided state was never completed. -/
theorem unwalked (inv : Inv h P) (change : Change h P h' P') :
    ∀ s, ¬ h'.Decided s → h'.walks s = 0 := by
  intro s undecided
  have before : ¬ h.Decided s := fun decided =>
    undecided (change.decided_kept inv.layout decided)
  rcases change.decision_cases inv.layout s with
    ⟨-, walks⟩ | ⟨-, -, result, -, -, now, -⟩ | ⟨-, -, -, walks⟩
  · exact walks.trans (inv.decisions.unwalked s before)
  · exact absurd (fun none => by simp [now] at none) undecided
  · exact walks.trans (inv.decisions.unwalked s before)

/-- A state that is decided otherwise than by the end of its promise was completed. -/
theorem walked (inv : Inv h P) (change : Change h P h' P') :
    ∀ s o, h'.outcome s = some o → o ≠ .brokenPromise → 0 < h'.walks s := by
  intro s o decided unbroken
  rcases change.decision_cases inv.layout s with
    ⟨same, walks⟩ | ⟨-, -, -, -, -, -, walks⟩ | ⟨-, -, now, -⟩
  · rw [walks]
    exact inv.decisions.walked s o (same.symm.trans decided) unbroken
  · rw [walks]
    exact Nat.succ_pos _
  · exact absurd (Option.some.inj (decided.symm.trans now)) unbroken

/-- Walks are counted up only. -/
theorem walks_le (layout : Layout h P) (change : Change h P h' P') (s : StateId) :
    h.walks s ≤ h'.walks s := by
  rcases change.decision_cases layout s with
    ⟨-, walks⟩ | ⟨-, -, -, -, -, -, walks⟩ | ⟨-, -, -, walks⟩
  all_goals omega

/-- Only a completing call walks the continuations. -/
theorem walking (inv : Inv h P) (change : Change h P h' P') :
    ∀ s index, .walk s index ∈ P' → 0 < h'.walks s := by
  intro s index inside
  have fresh (grew : h.next < h'.next) :=
    ((change.allocates inv.layout grew).decisions inv).walking s index inside
  have was (index : Nat) (inside : .walk s index ∈ P) : 0 < h'.walks s :=
    Nat.lt_of_lt_of_le (inv.decisions.walking s index inside) (change.walks_le inv.layout s)
  cases change
  case thenFunc | «then» | newPromise | whenAll | whenAny => exact fresh (Nat.lt_succ_self _)
  case decide x t result decision undecided =>
    rcases Multiset.mem_cons.mp inside with same | inside
    · cases same
      simp
    · exact was index (Multiset.mem_cons_of_mem inside)
  case walkNext t i d found =>
    simp only [Multiset.mem_cons, reduceCtorEq, false_or] at inside
    rcases inside with same | inside
    · cases same
      exact was i (Multiset.mem_cons_self ..)
    · exact was index (Multiset.mem_cons_of_mem inside)
  case callableEnd decision _ _ =>
    rcases Multiset.mem_cons.mp inside with rfl | inside
    · cases decision
    · exact was index (Multiset.mem_cons_of_mem inside)
  case complete decision _ _ _ =>
    rcases Multiset.mem_cons.mp inside with rfl | inside
    · cases decision
    · exact was index inside
  case destroyClosure d copy =>
    rcases Multiset.mem_add.mp inside with new | inside
    · rcases mem_dropped (Multiset.mem_coe.mp new) with ⟨-, clash⟩ | ⟨_, _, -, clash⟩
      all_goals cases clash
    · exact was index (Multiset.mem_cons_of_mem inside)
  case skip | walkEnd | clearEnd | storeClosure | releaseOther | leave =>
    exact was index (Multiset.mem_cons_of_mem inside)
  case destroyPromise | enter =>
    simp only [Multiset.mem_cons, Multiset.mem_add, Multiset.mem_coe, List.mem_map, reduceCtorEq,
      false_or, and_false, exists_false] at inside
    exact was index inside
  all_goals
    simp only [Multiset.mem_cons, reduceCtorEq, false_or] at inside
    exact was index (Multiset.mem_cons_of_mem inside)

/-- A completing call of a promise begins while the promise is alive. -/
theorem completes_new (layout : Layout h P) (change : Change h P h' P') {s : StateId}
    (made : h.origin s = some .promise) {x : Instr V ε X} (inside : x ∈ P')
    (completes : x.completes s = true) :
    h.destroyed s = false ∨ ∃ y ∈ P, y.completes s = true := by
  have fresh (grew : h.next < h'.next) : ∃ y ∈ P, y.completes s = true :=
    ⟨x, ((change.allocates layout grew).mem_iff
      (by cases x <;> first | rfl | cases completes)).mp inside, completes⟩
  have underived : ¬ h.Derived s := fun ⟨a, callable, derived⟩ => by
    cases made.symm.trans derived
  have typed := layout.typed
  cases change
  case thenFunc | «then» | newPromise | whenAll | whenAny =>
    exact Or.inr (fresh (Nat.lt_succ_self _))
  case decide y t result decision undecided =>
    rcases Multiset.mem_cons.mp inside with rfl | inside
    · obtain rfl : t = s := by simpa [Instr.completes] using completes
      exact Or.inr ⟨_, Multiset.mem_cons_self .., Instr.completes_of_decision decision⟩
    · exact Or.inr ⟨x, Multiset.mem_cons_of_mem inside, completes⟩
  case throw t value error decided =>
    rcases Multiset.mem_cons.mp inside with rfl | inside
    · exact Or.inr ⟨_, Multiset.mem_cons_self .., completes⟩
    · exact Or.inr ⟨x, Multiset.mem_cons_of_mem inside, completes⟩
  case walkNext t index d found =>
    simp only [Multiset.mem_cons] at inside
    rcases inside with rfl | rfl | inside
    · cases completes
    · exact Or.inr ⟨_, Multiset.mem_cons_self .., completes⟩
    · exact Or.inr ⟨x, Multiset.mem_cons_of_mem inside, completes⟩
  case invokeRelease d copy a all origin =>
    simp only [Multiset.mem_cons] at inside
    rcases inside with rfl | rfl | inside
    · cases completes
    · obtain rfl : d = s := by simpa [Instr.completes] using completes
      exact absurd ⟨a, _, origin⟩ underived
    · exact Or.inr ⟨x, Multiset.mem_cons_of_mem inside, completes⟩
  case invokeFire d copy a any origin =>
    simp only [Multiset.mem_cons] at inside
    rcases inside with rfl | rfl | inside
    · obtain rfl : any = s := by simpa [Instr.completes] using completes
      obtain ⟨-, ⟨inputs, clash, -⟩, -⟩ := layout.originOk origin
      cases made.symm.trans clash
    · obtain rfl : d = s := by simpa [Instr.completes] using completes
      exact absurd ⟨a, _, origin⟩ underived
    · exact Or.inr ⟨x, Multiset.mem_cons_of_mem inside, completes⟩
  case callableEnd d result y decision resolves fits =>
    rcases Multiset.mem_cons.mp inside with rfl | inside
    · have completed := Instr.completes_of_decision decision
      obtain rfl : d = s := by
        cases x <;> simp_all [Instr.completes, Instr.decision]
      obtain ⟨a, derived⟩ := typed _ (Multiset.mem_cons_self ..)
      exact absurd ⟨a, _, derived⟩ underived
    · exact Or.inr ⟨x, Multiset.mem_cons_of_mem inside, completes⟩
  case releaseLast all owner last =>
    rcases Multiset.mem_cons.mp inside with rfl | inside
    · obtain rfl : all = s := by simpa [Instr.completes] using completes
      obtain ⟨⟨inputs, clash⟩, -⟩ := typed _ (Multiset.mem_cons_self ..)
      cases made.symm.trans clash
    · exact Or.inr ⟨x, Multiset.mem_cons_of_mem inside, completes⟩
  case complete t result y origin decision direct fits live =>
    rcases Multiset.mem_cons.mp inside with rfl | inside
    · have completed := Instr.completes_of_decision decision
      obtain rfl : t = s := by
        cases x <;> simp_all [Instr.completes, Instr.decision]
      exact Or.inl live
    · exact Or.inr ⟨x, inside, completes⟩
  case destroyClosure d copy =>
    rcases Multiset.mem_add.mp inside with new | inside
    · rcases mem_dropped (Multiset.mem_coe.mp new) with ⟨-, rfl⟩ | ⟨_, _, -, rfl⟩
      all_goals cases completes
    · exact Or.inr ⟨x, Multiset.mem_cons_of_mem inside, completes⟩
  case runInline | invokeUser | breakPromise =>
    rcases Multiset.mem_cons.mp inside with rfl | inside
    · cases completes
    · exact Or.inr ⟨x, Multiset.mem_cons_of_mem inside, completes⟩
  case clearNext t d rest found =>
    rcases Multiset.mem_cons.mp inside with rfl | inside
    · cases completes
    · exact Or.inr ⟨x, inside, completes⟩
  case destroyPromise t origin live idle =>
    rcases Multiset.mem_cons.mp inside with rfl | inside
    · cases completes
    · exact Or.inr ⟨x, inside, completes⟩
  case enter code =>
    rcases Multiset.mem_add.mp inside with new | inside
    · obtain ⟨c, -, rfl⟩ := List.mem_map.mp (Multiset.mem_coe.mp new)
      cases completes
    · exact Or.inr ⟨x, inside, completes⟩
  all_goals exact Or.inr ⟨x, Multiset.mem_cons_of_mem inside, completes⟩

/-- Completing a promise is allowed as long as its destructor has not begun. -/
theorem live (inv : Inv h P) (change : Change h P h' P') :
    ∀ s, h'.origin s = some .promise → ∀ x ∈ P', x.completes s = true →
      h'.destroyed s = false := by
  intro s made x inside completes
  by_cases grew : h.next < h'.next
  · exact ((change.allocates inv.layout grew).decisions inv).live s made x inside completes
  · rw [change.origin_stays grew] at made
    have before : h.destroyed s = false := by
      rcases change.completes_new inv.layout made inside completes with alive | ⟨y, was, completed⟩
      · exact alive
      · exact inv.decisions.live s made y was completed
    cases change
    case destroyPromise t origin live idle =>
      rcases Multiset.mem_cons.mp inside with rfl | pending
      · cases completes
      · have other : s ≠ t := by
          rintro rfl
          rw [idle x pending] at completes
          cases completes
        exact (Function.update_of_ne other ..).trans before
    all_goals exact before

/-- What a step does to the results of a promised state: nothing, a new result is on its way, or one
that was on its way has been stored or refused. -/
theorem received_cases (layout : Layout h P) (change : Change h P h' P') {s : StateId}
    (promised : h.Promised s) :
    (h'.received s = h.received s ∧ h'.walks s = h.walks s ∧
      Stacks.count P' (Instr.decidesOn s) = Stacks.count P (Instr.decidesOn s)) ∨
    (∃ result, h'.received s = h.received s ++ [result] ∧ h'.walks s = h.walks s ∧
      Stacks.count P' (Instr.decidesOn s) = Stacks.count P (Instr.decidesOn s) + 1) ∨
    (h'.received s = h.received s ∧ (h'.walks s = h.walks s + 1 ∨ h'.walks s = h.walks s ∧
      h.Decided s) ∧ Stacks.count P' (Instr.decidesOn s) + 1 =
        Stacks.count P (Instr.decidesOn s)) := by
  have fresh (grew : h.next < h'.next) : h'.received s = h.received s ∧ h'.walks s = h.walks s ∧
      Stacks.count P' (Instr.decidesOn s) = Stacks.count P (Instr.decidesOn s) := by
    have new := change.allocates layout grew
    exact ⟨by rw [new.received], by rw [new.walks], new.count_decides s⟩
  have typed := layout.typed
  cases change
  case thenFunc | «then» | newPromise | whenAll | whenAny =>
    exact Or.inl (fresh (Nat.lt_succ_self _))
  case decide x t result decision undecided =>
    by_cases same : t = s
    · subst same
      refine Or.inr (Or.inr ⟨rfl, Or.inl (Function.update_self ..), ?_⟩)
      simp [Instr.decidesOn_of_decision decision]
      rfl
    · refine Or.inl ⟨rfl, Function.update_of_ne (Ne.symm same) .., ?_⟩
      simp [Instr.decidesOn_of_decision decision, same]
      rfl
  case skip x t result decision decided =>
    by_cases same : t = s
    · subst same
      refine Or.inr (Or.inr ⟨rfl, Or.inr ⟨rfl, decided⟩, ?_⟩)
      simp [Instr.decidesOn_of_decision decision]
    · refine Or.inl ⟨rfl, rfl, ?_⟩
      simp [Instr.decidesOn_of_decision decision, same]
  case throw t value error decided =>
    exact Or.inl ⟨rfl, rfl, by simp [Instr.decidesOn]⟩
  case invokeRelease d copy a all origin =>
    by_cases same : d = s
    · subst same
      refine Or.inr (Or.inl ⟨.ok .void, Function.update_self .., rfl, ?_⟩)
      simp [Instr.decidesOn]
    · refine Or.inl ⟨Function.update_of_ne (Ne.symm same) .., rfl, ?_⟩
      simp [Instr.decidesOn, same]
  case invokeFire d copy a any origin =>
    have other : any ≠ s := by
      rintro rfl
      obtain ⟨-, ⟨inputs, made, -⟩, -⟩ := layout.originOk origin
      rcases promised with clash | ⟨_, _, clash⟩ <;> cases made.symm.trans clash
    by_cases same : d = s
    · subst same
      refine Or.inr (Or.inl ⟨.ok .void, Function.update_self .., rfl, ?_⟩)
      simp [Instr.decidesOn, other]
    · refine Or.inl ⟨Function.update_of_ne (Ne.symm same) .., rfl, ?_⟩
      simp [Instr.decidesOn, other, same]
  case callableEnd d result x decision resolves fits =>
    by_cases same : d = s
    · subst same
      refine Or.inr (Or.inl ⟨result, Function.update_self .., rfl, ?_⟩)
      rw [Stacks.count_cons, Instr.decidesOn_of_decision decision]
      simp [Instr.decidesOn]
    · refine Or.inl ⟨Function.update_of_ne (Ne.symm same) .., rfl, ?_⟩
      rw [Stacks.count_cons, Instr.decidesOn_of_decision decision]
      simp [Instr.decidesOn, same]
  case complete t result x origin decision direct fits live =>
    by_cases same : t = s
    · subst same
      refine Or.inr (Or.inl ⟨result, Function.update_self .., rfl, ?_⟩)
      simp [Instr.decidesOn_of_decision decision]
    · refine Or.inl ⟨Function.update_of_ne (Ne.symm same) .., rfl, ?_⟩
      simp [Instr.decidesOn_of_decision decision, same]
  case releaseLast all owner last =>
    have other : all ≠ s := by
      rintro rfl
      obtain ⟨⟨inputs, made⟩, -⟩ := typed _ (Multiset.mem_cons_self ..)
      rcases promised with clash | ⟨_, _, clash⟩ <;> cases made.symm.trans clash
    exact Or.inl ⟨rfl, rfl, by simp [Instr.decidesOn, other]⟩
  case destroyClosure d copy =>
    refine Or.inl ⟨rfl, rfl, ?_⟩
    rw [count_dropped rfl fun _ _ => rfl]
    simp [Instr.decidesOn]
  case enter code =>
    exact Or.inl ⟨rfl, rfl, count_external fun _ => rfl⟩
  all_goals exact Or.inl ⟨rfl, rfl, by simp [Instr.decidesOn]⟩

/-- A state that is promised after a step is new or was promised before. -/
theorem promised_new (layout : Layout h P) (change : Change h P h' P') {s : StateId}
    (promised : h'.Promised s) : h.Promised s ∨ h.next < h'.next ∧ s = h.next := by
  by_cases grew : h.next < h'.next
  · exact ((change.allocates layout grew).promised promised).symm.imp_right fun same => ⟨grew, same⟩
  · left
    simpa only [Heap.Promised, Heap.Derived, change.origin_stays grew] using promised

/-- Every walk was started by a result, and every pending completion is about one. -/
theorem receivedLe (inv : Inv h P) (change : Change h P h' P') :
    ∀ s, h'.Promised s →
      Stacks.count P' (Instr.decidesOn s) + h'.walks s ≤ (h'.received s).length := by
  intro s promised
  rcases change.promised_new inv.layout promised with before | ⟨grew, -⟩
  · have was := inv.decisions.receivedLe s before
    rcases change.received_cases inv.layout before with
      ⟨received, walks, pending⟩ | ⟨result, received, walks, pending⟩ | ⟨received, walks, pending⟩
    · rw [received, walks, pending]
      exact was
    · rw [received, walks, pending, List.length_append, List.length_singleton]
      omega
    · rw [received]
      omega
  · exact ((change.allocates inv.layout grew).decisions inv).receivedLe s promised

/-- A result is on its way until it or an earlier one is stored. -/
theorem receivedGe (inv : Inv h P) (exclusive : Exclusive h P) (change : Change h P h' P') :
    ∀ s, h'.Promised s → h'.received s ≠ [] →
      0 < Stacks.count P' (Instr.decidesOn s) + h'.walks s := by
  intro s promised some
  rcases change.promised_new inv.layout promised with before | ⟨grew, -⟩
  · have was := inv.decisions.receivedGe s before
    rcases change.received_cases inv.layout before with
      ⟨received, walks, pending⟩ | ⟨result, received, walks, pending⟩ |
      ⟨received, walks | ⟨walks, decided⟩, pending⟩
    · rw [received] at some
      rw [walks, pending]
      exact was some
    · omega
    · omega
    · -- a state that refuses a result was completed before, since its promise is alive
      obtain ⟨o, outcome⟩ := Option.ne_none_iff_exists'.mp decided
      have positive : 0 < h.walks s := by
        refine inv.decisions.walked s o outcome ?_
        rintro rfl
        have retired := (inv.decisions.broken s outcome).1
        obtain ⟨x, inside, result, decision⟩ :=
          Stacks.decidesOn_pos (P := P) (s := s) (by omega)
        exact exclusive x inside s (Instr.completes_of_decision decision) retired
      omega
  · exact ((change.allocates inv.layout grew).decisions inv).receivedGe s promised some

/-- A pending completion was pending, was just handed over, or is the answer to a refused value. -/
theorem pending_cases (layout : Layout h P) (change : Change h P h' P') {s : StateId}
    (promised : h.Promised s) {x : Instr V ε X} (inside : x ∈ P') {other : Result V ε}
    (decision : x.decision = some (s, other)) :
    x ∈ P ∨ h'.received s = h.received s ++ [other] ∨
    h.Decided s ∧ ∃ value, .resolve s value ∈ P := by
  have fresh (grew : h.next < h'.next) : x ∈ P :=
    ((change.allocates layout grew).mem_iff
      (by cases x <;> first | rfl | cases decision)).mp inside
  have typed := layout.typed
  cases change
  case thenFunc | «then» | newPromise | whenAll | whenAny =>
    exact Or.inl (fresh (Nat.lt_succ_self _))
  case throw t value error decided =>
    rcases Multiset.mem_cons.mp inside with rfl | inside
    · cases decision
      exact Or.inr (Or.inr ⟨decided, value, Multiset.mem_cons_self ..⟩)
    · exact Or.inl (Multiset.mem_cons_of_mem inside)
  case invokeRelease d copy a all origin =>
    simp only [Multiset.mem_cons] at inside
    rcases inside with rfl | rfl | inside
    · cases decision
    · cases decision
      exact Or.inr (Or.inl (Function.update_self ..))
    · exact Or.inl (Multiset.mem_cons_of_mem inside)
  case invokeFire d copy a any origin =>
    simp only [Multiset.mem_cons] at inside
    rcases inside with rfl | rfl | inside
    · cases decision
      obtain ⟨-, ⟨inputs, made, -⟩, -⟩ := layout.originOk origin
      rcases promised with clash | ⟨_, _, clash⟩ <;> cases made.symm.trans clash
    · cases decision
      exact Or.inr (Or.inl (Function.update_self ..))
    · exact Or.inl (Multiset.mem_cons_of_mem inside)
  case callableEnd d result y handed resolves fits =>
    rcases Multiset.mem_cons.mp inside with rfl | inside
    · cases handed.symm.trans decision
      exact Or.inr (Or.inl (Function.update_self ..))
    · exact Or.inl (Multiset.mem_cons_of_mem inside)
  case complete t result y origin handed direct fits live =>
    rcases Multiset.mem_cons.mp inside with rfl | inside
    · cases handed.symm.trans decision
      exact Or.inr (Or.inl (Function.update_self ..))
    · exact Or.inl inside
  case releaseLast all owner last =>
    rcases Multiset.mem_cons.mp inside with rfl | inside
    · cases decision
      obtain ⟨⟨inputs, made⟩, -⟩ := typed _ (Multiset.mem_cons_self ..)
      rcases promised with clash | ⟨_, _, clash⟩ <;> cases made.symm.trans clash
    · exact Or.inl (Multiset.mem_cons_of_mem inside)
  case destroyClosure d copy =>
    rcases Multiset.mem_add.mp inside with new | inside
    · rcases mem_dropped (Multiset.mem_coe.mp new) with ⟨-, rfl⟩ | ⟨_, _, -, rfl⟩ <;> cases decision
    · exact Or.inl (Multiset.mem_cons_of_mem inside)
  case enter code =>
    rcases Multiset.mem_add.mp inside with new | inside
    · obtain ⟨c, -, rfl⟩ := List.mem_map.mp (Multiset.mem_coe.mp new)
      cases decision
    · exact Or.inl inside
  case walkNext =>
    simp only [Multiset.mem_cons] at inside
    rcases inside with rfl | rfl | inside
    · cases decision
    · cases decision
    · exact Or.inl (Multiset.mem_cons_of_mem inside)
  case clearNext =>
    rcases Multiset.mem_cons.mp inside with rfl | inside
    · cases decision
    · exact Or.inl inside
  case decide | runInline | invokeUser | breakPromise =>
    rcases Multiset.mem_cons.mp inside with rfl | inside
    · cases decision
    · exact Or.inl (Multiset.mem_cons_of_mem inside)
  case destroyPromise =>
    rcases Multiset.mem_cons.mp inside with rfl | inside
    · cases decision
    · exact Or.inl inside
  all_goals exact Or.inl (Multiset.mem_cons_of_mem inside)

/-- The only result that a state ever received was handed over before anything came of it. -/
theorem received_before (inv : Inv h P) (change : Change h P h' P') {s : StateId}
    (promised : h.Promised s) (effect : 0 < Stacks.count P (Instr.decidesOn s) + h.walks s)
    {result : Result V ε} (one : h'.received s = [result]) : h.received s = [result] := by
  rcases change.received_cases inv.layout promised with
    ⟨received, -⟩ | ⟨last, received, -⟩ | ⟨received, -⟩
  · exact received.symm.trans one
  · rw [received] at one
    have bound := inv.decisions.receivedLe s promised
    cases earlier : h.received s with
    | nil =>
      rw [earlier, List.length_nil] at bound
      omega
    | cons first rest => simp [earlier] at one
  · exact received.symm.trans one

/-- A state that received one result is about to be completed with that result only. -/
theorem receivedPending (inv : Inv h P) (exclusive : Exclusive h P) (change : Change h P h' P') :
    ∀ s, h'.Promised s → ∀ result, h'.received s = [result] →
      ∀ x ∈ P', ∀ other, x.decision = some (s, other) → other = result := by
  intro s promised result one x inside other decision
  rcases change.promised_new inv.layout promised with before | ⟨grew, -⟩
  · rcases change.pending_cases inv.layout before inside decision with
      was | received | ⟨decided, value, was⟩
    · have pending := Stacks.decidesOn_of_mem was decision
      exact inv.decisions.receivedPending s before result
        (change.received_before inv before (by omega) one) x was other decision
    · rw [received] at one
      have last := (List.append_eq_singleton_iff.mp one).elim (fun both => both.2)
        fun both => absurd both.2 (by simp)
      exact List.singleton_inj.mp last
    · -- a value is refused only by a state that received another result or lost its promise
      have decision : (Instr.resolve s value : Instr V ε X).decision = some (s, .ok value) := rfl
      have pending := Stacks.decidesOn_of_mem was decision
      have earlier := change.received_before inv before (by omega) one
      have bound := inv.decisions.receivedLe s before
      rw [earlier, List.length_singleton] at bound
      obtain ⟨o, outcome⟩ := Option.ne_none_iff_exists'.mp decided
      by_cases unbroken : o = .brokenPromise
      · rw [unbroken] at outcome
        exact absurd (inv.decisions.broken s outcome).1
          (exclusive _ was s (by simp [Instr.completes]))
      · have positive := inv.decisions.walked s o outcome unbroken
        omega
  · exact ((change.allocates inv.layout grew).decisions inv).receivedPending s promised result one
      x inside other decision

/-- A completed state that received one result holds it. -/
theorem receivedOutcome (inv : Inv h P) (change : Change h P h' P') :
    ∀ s, h'.Promised s → ∀ result, h'.received s = [result] → 0 < h'.walks s →
      h'.outcome s = some result.outcome := by
  intro s promised result one walked
  rcases change.promised_new inv.layout promised with before | ⟨grew, -⟩
  · rcases change.decision_cases inv.layout s with
      ⟨same, walks⟩ | ⟨x, inside, other, decision, -, now, walks⟩ | ⟨-, undecided, -, walks⟩
    · rw [walks] at walked
      rw [same]
      exact inv.decisions.receivedOutcome s before result
        (change.received_before inv before (by omega) one) walked
    · have pending := Stacks.decidesOn_of_mem inside decision
      have earlier := change.received_before inv before (by omega) one
      rw [now, inv.decisions.receivedPending s before result earlier x inside other decision]
    · have never := inv.decisions.unwalked s undecided
      omega
  · exact ((change.allocates inv.layout grew).decisions inv).receivedOutcome s promised result one
      walked

/-- Every call of a closure hands over one result. -/
theorem returned (inv : Inv h P) (change : Change h P h' P') :
    ∀ d, h'.Derived d → h'.invocations d =
      (h'.received d).length + Stacks.count P' (Instr.isInCallable d) := by
  intro d derived
  have fresh (grew : h.next < h'.next) :=
    ((change.allocates inv.layout grew).decisions inv).returned d derived
  have was (derived : h.Derived d) := inv.decisions.returned d derived
  cases change
  case thenFunc | «then» | newPromise | whenAll | whenAny => exact fresh (Nat.lt_succ_self _)
  case decide decision _ | skip decision _ =>
    have was := was derived
    rw [Stacks.count_cons, Instr.isInCallable_of_decision decision] at was
    simpa [Instr.isInCallable] using was
  case invokeUser e copy a origin =>
    have was := was derived
    by_cases same : e = d
    · subst same
      simp [Instr.isInCallable] at was ⊢
      omega
    · simpa [Instr.isInCallable, same, Ne.symm same] using was
  case invokeRelease e copy a all origin | invokeFire e copy a any origin =>
    have was := was derived
    by_cases same : e = d
    · subst same
      simp [Instr.isInCallable] at was ⊢
      omega
    · simpa [Instr.isInCallable, same, Ne.symm same] using was
  case callableEnd e result x decision resolves fits =>
    have was := was derived
    rw [Stacks.count_cons] at was ⊢
    rw [Instr.isInCallable_of_decision decision]
    by_cases same : e = d
    · subst same
      simp [Instr.isInCallable] at was ⊢
      omega
    · simpa [Instr.isInCallable, same, Ne.symm same] using was
  case complete s result x origin decision direct fits live =>
    have was := was derived
    have other : d ≠ s := by
      rintro rfl
      obtain ⟨a, callable, made⟩ := derived
      cases origin.symm.trans made
    rw [Stacks.count_cons, Instr.isInCallable_of_decision decision]
    simpa [other] using was
  case destroyClosure e copy =>
    have was := was derived
    rw [count_dropped rfl fun _ _ => rfl]
    simpa [Instr.isInCallable] using was
  case enter code =>
    rw [count_external fun _ => rfl]
    exact was derived
  all_goals simpa [Instr.isInCallable] using was derived

/-- Only `SetValue` decides the state of a combinator. -/
theorem combinator (inv : Inv h P) (change : Change h P h' P') :
    ∀ s, ¬ h'.Promised s → ∀ o, h'.outcome s = some o → o = .value .void := by
  intro s unpromised o decided
  have before : ¬ h.Promised s := fun promised =>
    unpromised (inv.layout.promised_kept change.extends promised)
  rcases change.decision_cases inv.layout s with
    ⟨same, -⟩ | ⟨x, inside, result, decision, -, now, -⟩ | ⟨breaking, -⟩
  · exact inv.decisions.combinator s before o (same.symm.trans decided)
  · have typed := inv.layout.typed x inside
    cases x <;>
      simp only [Instr.decision, Option.some.injEq, Prod.mk.injEq, reduceCtorEq] at decision
    case setValue t value =>
      obtain ⟨rfl, rfl⟩ := decision
      obtain ⟨fits, allocated, -⟩ := typed
      have void : value = .void := fits (inv.layout.isVoid_of_not_promised allocated before)
      rw [now, void] at decided
      exact (Option.some.inj decided).symm
    case resolve t value =>
      obtain ⟨rfl, -⟩ := decision
      exact absurd (Or.inr typed.2) before
    case setException t error =>
      obtain ⟨rfl, -⟩ := decision
      exact absurd typed before
  · exact absurd (inv.layout.typed _ breaking) before

/-- A step keeps the bookkeeping of decisions. -/
theorem decisions (inv : Inv h P) (exclusive : Exclusive h P) (change : Change h P h' P') :
    Decisions h' P' where
  destroying := destroying inv change
  retired := retired inv change
  clearing := clearing inv change
  broken := broken inv change
  unwalked := unwalked inv change
  walked := walked inv change
  walking := walking inv change
  live := live inv change
  receivedLe := receivedLe inv change
  receivedGe := receivedGe inv exclusive change
  receivedPending := receivedPending inv exclusive change
  receivedOutcome := receivedOutcome inv change
  returned := returned inv change
  combinator := combinator inv change

end Change

end Azul.Async
