import Azul.Async.Idle
import Azul.Async.RuntimeSteps

/-!
# What works for a `WhenAll`

Between the start of a `WhenAll` and the decision of its state some code is about to register,
call or destroy a closure that shares its activator, to release the activator, or to complete the
state. Such code comes from such code, or from a call that walks or clears the continuations of an
input. When there is none of it, and no such call, all inputs being decided, the activator is gone.
-/

namespace Azul.Async

open Foundation

variable {V ε X : Type} {h h' : Heap V ε} {P : Multiset (Instr V ε X)} {x : Instr V ε X}
  {new : List (Instr V ε X)} {all s : StateId} {inputs : List StateId}

/-- The instruction works for a `WhenAll`. -/
def Instr.serves (h : Heap V ε) (all : StateId) : Instr V ε X → Prop
  | .setValue s _ | .releaseActivator s _ => s = all
  | .thenFunc _ callable => callable = .release all
  | .invoke d _ | .registerThen d | .destroyClosure d _ =>
    ∃ s, h.origin d = some (.derived s (.release all))
  | _ => False

/-- The instruction is about to walk or to clear the continuations of a state. -/
def Instr.visits (s : StateId) : Instr V ε X → Prop
  | .walk t _ | .aboutToDestroyPromise t | .clear t => t = s
  | _ => False

/-- Whom an instruction works for does not change. -/
theorem serves_kept (kept : ∀ d origin, h.origin d = some origin → h'.origin d = some origin)
    (typed : x.Typed h) (serves : x.serves h' all) : x.serves h all := by
  have same {d : StateId} (derived : h.Derived d)
      (after : ∃ s, h'.origin d = some (.derived s (.release all))) :
      ∃ s, h.origin d = some (.derived s (.release all)) := by
    obtain ⟨s, made⟩ := after
    obtain ⟨t, callable, origin⟩ := derived
    rw [kept d _ origin] at made
    cases made
    exact ⟨s, origin⟩
  cases x with
  | invoke d copy => exact same typed.2 serves
  | destroyClosure d copy => exact same typed serves
  | registerThen d => exact same typed serves
  | _ => exact serves

/-- An instruction works for a state that was there before. -/
theorem serves_lt (layout : Layout h P) (typed : x.Typed h) (serves : x.serves h all) :
    all < h.next := by
  have shared {d : StateId} (after : ∃ s, h.origin d = some (.derived s (.release all))) :
      all < h.next := by
    obtain ⟨s, made⟩ := after
    obtain ⟨_, ⟨others, same, _⟩, _⟩ := layout.originOk made
    exact layout.lt_next same
  cases x with
  | setValue s value =>
    rw [← (show s = all from serves)]
    exact typed.2.1
  | releaseActivator s owner =>
    obtain ⟨⟨others, made⟩, _⟩ := typed
    rw [← (show s = all from serves)]
    exact layout.lt_next made
  | thenFunc s callable =>
    obtain ⟨_, _, ok⟩ := typed
    rw [(show callable = .release all from serves)] at ok
    obtain ⟨others, made, _⟩ := ok
    exact layout.lt_next made
  | invoke d copy => exact shared serves
  | destroyClosure d copy => exact shared serves
  | registerThen d => exact shared serves
  | _ => exact serves.elim

/-- A closure that shares the activator of a `WhenAll` is registered with an input. -/
theorem Layout.input_of_release (layout : Layout h P) {d : StateId}
    (derived : h.origin d = some (.derived s (.release all)))
    (made : h.origin all = some (.whenAll inputs)) : s ∈ inputs := by
  obtain ⟨_, ⟨others, same, input⟩, _⟩ := layout.originOk derived
  rw [made] at same
  cases same
  exact input

/-- Code that works for a `WhenAll` is scheduled by such code, or above a call on an input. -/
theorem execute_serves (layout : Layout h P) (typed : x.Typed h)
    (made : h.origin all = some (.whenAll inputs)) (executed : execute h x = some (h', new))
    {before after : List (Instr V ε X)} {y : Instr V ε X} (split : new = before ++ y :: after)
    (serves : y.serves h' all) :
    x.serves h all ∨ ∃ s ∈ inputs, ∃ z ∈ after, z.visits s := by
  have inside : y ∈ new := by
    rw [split]
    exact List.mem_append_right _ List.mem_cons_self
  have first {one two : Instr V ε X} (pair : new = [one, two]) (plain : ¬ two.serves h' all) :
      y = one ∧ after = [two] := by
    rw [pair] at split
    cases before with
    | nil =>
      obtain ⟨here, rest⟩ := List.cons.inj split
      exact ⟨here.symm, rest.symm⟩
    | cons other before =>
      have later : y ∈ [two] := by
        rw [(List.cons.inj split).2]
        exact List.mem_append_right _ List.mem_cons_self
      rw [List.mem_singleton.mp later] at serves
      exact absurd serves plain
  have only {z : Instr V ε X} (one : y ∈ [z]) : z.serves h' all := by
    rw [List.mem_singleton.mp one] at serves
    exact serves
  cases x with
  | setValue t value | resolve t value =>
    exfalso
    rcases Heap.setValue_cases typed.1 with ⟨_, set⟩ | ⟨_, set⟩ | ⟨_, set⟩
    all_goals
      simp only [execute, set, Option.some.injEq, Prod.mk.injEq] at executed
      rw [← executed.2] at inside
      first
      | exact List.not_mem_nil inside
      | exact only inside
  | setException t error | aboutToDestroyPromise t =>
    cases executed
    exact (only inside).elim
  | walk t index =>
    simp only [execute] at executed
    split at executed
    case h_1 =>
      cases executed
      cases inside
    case h_2 d found =>
      obtain ⟨same, pair⟩ := Prod.mk.inj (Option.some.inj executed)
      obtain ⟨here, rest⟩ := first pair.symm id
      rw [here, ← same] at serves
      obtain ⟨s, derived⟩ := serves
      obtain ⟨_, callable, origin⟩ := layout.listed t d (List.mem_of_getElem? found)
      rw [origin] at derived
      cases derived
      refine Or.inr ⟨t, layout.input_of_release origin made, .walk t (index + 1), ?_, rfl⟩
      rw [rest]
      exact List.mem_cons_self
  | clear t =>
    simp only [execute] at executed
    split at executed
    case h_1 =>
      cases executed
      cases inside
    case h_2 d remaining found =>
      obtain ⟨same, pair⟩ := Prod.mk.inj (Option.some.inj executed)
      obtain ⟨here, rest⟩ := first pair.symm id
      rw [here, ← same] at serves
      obtain ⟨s, derived⟩ := serves
      have listed : d ∈ (h.cell t).continuations := by
        rw [found]
        exact List.mem_cons_self
      obtain ⟨_, callable, origin⟩ := layout.listed t d listed
      change h.origin d = some (.derived s (.release all)) at derived
      rw [origin] at derived
      cases derived
      refine Or.inr ⟨t, layout.input_of_release origin made, .clear t, ?_, rfl⟩
      rw [rest]
      exact List.mem_cons_self
  | invoke d copy =>
    left
    simp only [execute] at executed
    split at executed
    case h_1 =>
      cases executed
      exact (only inside).elim
    case h_2 s other origin =>
      cases executed
      cases List.mem_cons.mp inside with
      | inl first =>
        rw [first] at serves
        change other = all at serves
        rw [serves] at origin
        exact ⟨s, origin⟩
      | inr second => exact (only second).elim
    case h_3 s any origin =>
      cases executed
      cases List.mem_cons.mp inside with
      | inl first =>
        rw [first] at serves
        change any = all at serves
        obtain ⟨_, ⟨others, clash, _⟩, _⟩ := layout.originOk origin
        rw [serves, made] at clash
        cases clash
      | inr second => exact (only second).elim
    case h_4 => cases executed
  | destroyClosure d copy =>
    left
    cases executed
    cases mem_dropped inside with
    | inl last =>
      rw [last.2] at serves
      exact serves.elim
    | inr releases =>
      obtain ⟨s, other, origin, same⟩ := releases
      rw [same] at serves
      change other = all at serves
      rw [serves] at origin
      exact ⟨s, origin⟩
  | thenFunc t callable =>
    left
    cases executed
    have own {d : StateId} (fresh : d = h.next)
        (after : ∃ s, (h.allocateThen t callable true).origin d =
          some (.derived s (.release all))) : callable = .release all := by
      obtain ⟨s, derived⟩ := after
      rw [fresh] at derived
      change Function.update h.origin h.next _ h.next = _ at derived
      rw [Function.update_self] at derived
      cases derived
      rfl
    simp only [Instr.thenCode, List.mem_cons, List.not_mem_nil, or_false] at inside
    rcases inside with first | second | third
    · rw [first] at serves
      exact own rfl serves
    · rw [second] at serves
      exact own rfl serves
    · rw [third] at serves
      exact own rfl serves
  | registerThen d =>
    left
    simp only [execute] at executed
    split at executed
    case h_1 t callable origin =>
      rcases h.then_cases t d with ⟨_, stored⟩ | ⟨_, stored⟩
      · simp only [stored, Option.some.injEq, Prod.mk.injEq] at executed
        rw [← executed.2] at inside
        cases inside
      · simp only [stored, Option.some.injEq, Prod.mk.injEq] at executed
        rw [← executed.2] at inside
        have serves := only inside
        rw [← executed.1] at serves
        exact serves
    case h_2 => cases executed
  | releaseActivator other owner =>
    left
    cases executed
    split at inside
    · exact only inside
    · cases inside
  | inCallable | external => cases executed

/-- Continuations are cleared at the end of a promise. -/
theorem execute_clear (executed : execute h x = some (h', new)) (inside : .clear s ∈ new) :
    x = .aboutToDestroyPromise s ∨ x = .clear s := by
  cases x with
  | aboutToDestroyPromise t =>
    cases executed
    left
    rw [Instr.clear.inj (List.mem_singleton.mp inside)]
  | clear t =>
    right
    simp only [execute] at executed
    split at executed
    case h_1 =>
      cases executed
      cases inside
    case h_2 =>
      cases executed
      have same : s = t := by simpa using inside
      rw [same]
  | setValue | resolve | walk | invoke =>
    simp only [execute] at executed
    split at executed <;> cases executed <;> simp at inside
  | registerThen d =>
    simp only [execute] at executed
    split at executed
    case h_1 => split at executed <;> cases executed <;> simp at inside
    case h_2 => cases executed
  | setException =>
    cases executed
    simp at inside
  | destroyClosure d copy =>
    cases executed
    cases mem_dropped inside with
    | inl same => cases same.2
    | inr released =>
      obtain ⟨_, _, _, same⟩ := released
      cases same
  | thenFunc =>
    cases executed
    simp [Instr.thenCode] at inside
  | releaseActivator all owner =>
    cases executed
    split at inside <;> simp at inside
  | inCallable | external => cases executed

/-- No call of the program begins by clearing continuations. -/
theorem begin_clear {api : Api V ε} (begun : h.begin api = some (h', new)) : .clear s ∉ new := by
  intro inside
  cases api with
  | newPromise isVoid =>
    cases begun
    cases inside
  | complete s result =>
    obtain ⟨_, made⟩ := Option.ite_none_right_eq_some.mp begun
    cases result <;> cases made <;> simp at inside
  | destroyPromise s =>
    obtain ⟨_, made⟩ := Option.ite_none_right_eq_some.mp begun
    cases made
    simp at inside
  | «then» s isVoid =>
    obtain ⟨_, made⟩ := Option.ite_none_right_eq_some.mp begun
    cases made
    simp [Instr.thenCode] at inside
  | whenAll others | whenAny others =>
    obtain ⟨_, made⟩ := Option.ite_none_right_eq_some.mp begun
    cases made
    simp at inside

/-- A call of the program works for no `WhenAll` that was there before. -/
theorem begin_serves (made : h.origin all = some (.whenAll inputs)) (bound : all < h.next)
    {api : Api V ε} (begun : h.begin api = some (h', new)) {y : Instr V ε X} (inside : y ∈ new) :
    ¬ y.serves h' all := by
  intro serves
  cases api with
  | newPromise isVoid =>
    cases begun
    cases inside
  | complete s result =>
    obtain ⟨⟨origin, _⟩, same⟩ := Option.ite_none_right_eq_some.mp begun
    cases result with
    | ok value =>
      cases same
      rw [List.mem_singleton.mp inside] at serves
      change s = all at serves
      rw [serves, made] at origin
      cases origin
    | error error =>
      cases same
      rw [List.mem_singleton.mp inside] at serves
      exact serves
  | destroyPromise s =>
    obtain ⟨_, same⟩ := Option.ite_none_right_eq_some.mp begun
    cases same
    rw [List.mem_singleton.mp inside] at serves
    exact serves
  | «then» s isVoid =>
    obtain ⟨_, same⟩ := Option.ite_none_right_eq_some.mp begun
    cases same
    have user {d : StateId} (fresh : d = h.next)
        (after : ∃ t, (h.allocateThen s .user isVoid).origin d =
          some (.derived t (.release all))) : False := by
      obtain ⟨t, derived⟩ := after
      rw [fresh] at derived
      change Function.update h.origin h.next _ h.next = _ at derived
      rw [Function.update_self] at derived
      cases derived
    simp only [Instr.thenCode, List.mem_cons, List.not_mem_nil, or_false] at inside
    rcases inside with first | second | third
    · rw [first] at serves
      exact user rfl serves
    · rw [second] at serves
      exact user rfl serves
    · rw [third] at serves
      exact user rfl serves
  | whenAll others =>
    obtain ⟨_, same⟩ := Option.ite_none_right_eq_some.mp begun
    cases same
    have fresh : h.next ≠ all := Nat.ne_of_gt bound
    cases List.mem_append.mp inside with
    | inl registers =>
      obtain ⟨s, _, same⟩ := List.mem_map.mp registers
      rw [← same] at serves
      exact fresh (Callable.release.inj serves)
    | inr releases =>
      simp only [List.mem_cons, List.not_mem_nil, or_false] at releases
      rcases releases with first | second
      · rw [first] at serves
        exact fresh serves
      · rw [second] at serves
        exact fresh serves
  | whenAny others =>
    obtain ⟨_, same⟩ := Option.ite_none_right_eq_some.mp begun
    cases same
    obtain ⟨s, _, same⟩ := List.mem_map.mp inside
    rw [← same] at serves
    cases serves

namespace Inv

/-- When nothing works for a `WhenAll`, no call completes an input, and all inputs are decided,
nobody owns the activator. -/
theorem whenAll_over (inv : Inv h P) (made : h.origin all = some (.whenAll inputs))
    (unserved : ∀ x ∈ P, ¬ x.serves h all) (unvisited : ∀ s ∈ inputs, ∀ x ∈ P, ¬ x.visits s)
    (decided : ∀ s ∈ inputs, h.Decided s) : h.owners all = ∅ := by
  have none {p : Instr V ε X → Bool} (serves : ∀ x, p x = true → x.serves h all) :
      Stacks.count P p = 0 := by
    apply Stacks.count_eq_zero.mpr
    intro x inside
    apply Bool.eq_false_of_not_eq_true
    exact fun counted => unserved x inside (serves x counted)
  have unreleased (owner : Owner) : .releaseActivator all owner ∉ P :=
    fun inside => unserved _ inside rfl
  apply Finset.eq_empty_of_forall_notMem
  intro owner held
  have shared : ∃ d copy, owner = .closure d copy := by
    by_contra unshared
    have locals := inv.activators.locals all inputs made owner fun d copy same =>
      unshared ⟨d, copy, same⟩
    rw [if_pos held] at locals
    obtain ⟨x, inside, releases⟩ := Stacks.count_pos.mp (by rw [locals]; exact Nat.one_pos)
    cases x with
    | releaseActivator other holder =>
      simp only [Instr.isRelease, Bool.and_eq_true, beq_iff_eq] at releases
      rw [releases.1, releases.2] at inside
      exact unreleased owner inside
    | _ => cases releases
  obtain ⟨d, copy, same⟩ := shared
  rw [same] at held
  obtain ⟨s, derived⟩ := (inv.layout.owners all _ held).2 d copy rfl
  have input := inv.layout.input_of_release derived made
  -- the closure is only in the list of the input
  have live := (inv.activators.alive all d copy held).resolve_right (unreleased _)
  have copies := inv.counts.copies d s _ derived copy
  have undestroyed : Stacks.count P (Instr.isDestroy d copy) = 0 := by
    apply none
    intro x counted
    cases x with
    | destroyClosure e other =>
      simp only [Instr.isDestroy, Bool.and_eq_true, beq_iff_eq] at counted
      rw [counted.1]
      exact ⟨s, derived⟩
    | _ => cases counted
  rw [undestroyed, if_pos live, Nat.zero_add] at copies
  have isListed : copy = .listed := by
    by_contra other
    rw [if_neg other] at copies
    cases copies
  rw [if_pos isListed] at copies
  have listed : d ∈ (h.cell s).continuations := List.count_pos_iff.mp (by omega)
  -- so it was not called, and its input was not completed
  rw [isListed] at held
  obtain ⟨stored, waiting⟩ := inv.activators.uncalled all d held
  have uncalled := waiting.resolve_right (unreleased _)
  have calls := (inv.counts.stored d s _ derived stored).1
  have uninvoked : Stacks.count P (Instr.isInvoke d .listed) = 0 := by
    apply none
    intro x counted
    cases x with
    | invoke e other =>
      simp only [Instr.isInvoke, Bool.and_eq_true, beq_iff_eq] at counted
      rw [counted.1]
      exact ⟨s, derived⟩
    | _ => cases counted
  have unwalked : Stacks.count P (Instr.walksTo s ((h.cell s).continuations.idxOf d)) = 0 := by
    apply Stacks.count_eq_zero.mpr
    intro x inside
    apply Bool.eq_false_of_not_eq_true
    intro counted
    cases x with
    | walk t index =>
      simp only [Instr.walksTo, Bool.and_eq_true, beq_iff_eq] at counted
      rw [counted.1] at inside
      exact unvisited s input _ inside rfl
    | _ => cases counted
  rw [uncalled, uninvoked, unwalked] at calls
  have broken : h.outcome s = some .brokenPromise := by
    by_contra unbroken
    have walked := inv.walked_iff.mpr ⟨decided s input, unbroken⟩
    omega
  -- but then its promise has ended, and with it the list
  have retired := (inv.decisions.broken s broken).1
  cases inv.decisions.retired s retired with
  | inl breaking => exact unvisited s input _ breaking rfl
  | inr cleared =>
    cases cleared.2 with
    | inl empty =>
      rw [empty] at listed
      cases listed
    | inr clearing => exact unvisited s input _ clearing rfl

/-- Then its state is decided. -/
theorem whenAll_fired (inv : Inv h P) (made : h.origin all = some (.whenAll inputs))
    (unserved : ∀ x ∈ P, ¬ x.serves h all) (unvisited : ∀ s ∈ inputs, ∀ x ∈ P, ¬ x.visits s)
    (decided : ∀ s ∈ inputs, h.Decided s) : h.Decided all := by
  have gone := inv.whenAll_over made unserved unvisited decided
  apply (inv.activators.ended all inputs made gone).resolve_right
  intro counted
  obtain ⟨x, inside, decides⟩ := Stacks.count_pos.mp counted
  have typed := inv.layout.typed x inside
  cases x with
  | setValue s value =>
    have same : s = all := by
      simpa only [Instr.decidesOn, beq_iff_eq] using decides
    exact unserved _ inside same
  | resolve s value =>
    have same : s = all := by
      simpa only [Instr.decidesOn, beq_iff_eq] using decides
    rw [same] at typed
    exact Heap.not_promised_whenAll made (Or.inr typed.2)
  | setException s error =>
    have same : s = all := by
      simpa only [Instr.decidesOn, beq_iff_eq] using decides
    rw [same] at typed
    exact Heap.not_promised_whenAll made typed
  | _ => cases decides

end Inv

end Azul.Async
