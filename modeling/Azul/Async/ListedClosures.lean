import Azul.Async.ContinuationWalk
import Azul.Async.WhenAllCode

/-!
# Stored closures

The copy of a closure that a list holds is called by a walk over the list and destroyed by the end
of the antecedent's promise, and whatever releases its share of an activator runs above one of
these. Once such a share is released it stays released, and the list of a decided state only
shrinks.
-/

namespace Azul.Async

open Foundation

variable {V ε X : Type} {h h' : Heap V ε} {P P' : Multiset (Instr V ε X)} {x : Instr V ε X}
  {old new base : List (Instr V ε X)} {σ σ' : Config V ε X} {d s : StateId}

/-! ## Who handles the listed copy -/

/-- The instruction calls or destroys the listed copy of a closure, or releases its share of an
activator. -/
def Instr.handles (d : StateId) : Instr V ε X → Prop
  | .invoke e copy | .destroyClosure e copy => e = d ∧ copy = .listed
  | .releaseActivator _ owner => owner = .closure d .listed
  | _ => False

/-- It does so above a call that walks or clears the list. -/
def Heap.handleNeeds (h : Heap V ε) (x : Instr V ε X) (below : Instr V ε X → Prop) : Prop :=
  ∀ d, x.handles d → ∃ s callable, h.origin d = some (.derived s callable) ∧
    ∃ y, y.visits s ∧ below y

/-- Needs are met by more instructions below. -/
theorem Heap.handleNeeds_grow (x : Instr V ε X) (below wider : Instr V ε X → Prop)
    (wide : ∀ y, below y → wider y) (needs : h.handleNeeds x below) : h.handleNeeds x wider := by
  intro d handles
  obtain ⟨s, callable, made, y, visits, under⟩ := needs d handles
  exact ⟨s, callable, made, y, visits, wide y under⟩

/-- Such an instruction comes from such an instruction, or from the call that visits the list. -/
theorem execute_handles (layout : Layout h P) (executed : execute h x = some (h', new))
    {before after : List (Instr V ε X)} {y : Instr V ε X} (split : new = before ++ y :: after)
    (handles : y.handles d) : x.handles d ∨ ∃ s callable, h.origin d = some (.derived s callable) ∧
      ∃ z ∈ after, z.visits s := by
  have inside : y ∈ new := by
    rw [split]
    exact List.mem_append_right _ List.mem_cons_self
  have only {z : Instr V ε X} (one : y ∈ [z]) : z.handles d := by
    rw [List.mem_singleton.mp one] at handles
    exact handles
  have first {one two : Instr V ε X} (pair : new = [one, two]) (plain : ¬ two.handles d) :
      y = one ∧ after = [two] := by
    rw [pair] at split
    cases before with
    | nil =>
      obtain ⟨here, rest⟩ := List.cons.inj split
      exact ⟨here.symm, rest.symm⟩
    | cons other before =>
      have later : y ∈ [two] := by
        rw [(List.cons.inj split).2]
        exact List.mem_append_right _ List.mem_cons_self
      exact absurd (only later) plain
  cases x with
  | setValue t value | resolve t value =>
    exfalso
    simp only [execute] at executed
    split at executed
    all_goals
      cases executed
      first
      | exact List.not_mem_nil inside
      | exact only inside
  | setException t error | aboutToDestroyPromise t =>
    cases executed
    exact (only inside).elim
  | walk t index =>
    simp only [execute] at executed
    split at executed
    case h_1 =>
      cases executed
      cases inside
    case h_2 e found =>
      obtain ⟨_, pair⟩ := Prod.mk.inj (Option.some.inj executed)
      obtain ⟨here, rest⟩ := first pair.symm id
      rw [here] at handles
      obtain ⟨_, callable, origin⟩ := layout.listed t e (List.mem_of_getElem? found)
      rw [handles.1] at origin
      refine Or.inr ⟨t, callable, origin, .walk t (index + 1), ?_, rfl⟩
      rw [rest]
      exact List.mem_cons_self
  | clear t =>
    simp only [execute] at executed
    split at executed
    case h_1 =>
      cases executed
      cases inside
    case h_2 e remaining found =>
      obtain ⟨_, pair⟩ := Prod.mk.inj (Option.some.inj executed)
      obtain ⟨here, rest⟩ := first pair.symm id
      rw [here] at handles
      have listed : e ∈ (h.cell t).continuations := by
        rw [found]
        exact List.mem_cons_self
      obtain ⟨_, callable, origin⟩ := layout.listed t e listed
      rw [handles.1] at origin
      refine Or.inr ⟨t, callable, origin, .clear t, ?_, rfl⟩
      rw [rest]
      exact List.mem_cons_self
  | invoke e copy =>
    left
    simp only [execute] at executed
    split at executed
    case h_1 =>
      cases executed
      exact (only inside).elim
    case h_2 t all origin =>
      cases executed
      cases List.mem_cons.mp inside with
      | inl released =>
        rw [released] at handles
        exact Owner.closure.inj handles
      | inr resolves => exact (only resolves).elim
    case h_3 t any origin =>
      cases executed
      cases List.mem_cons.mp inside with
      | inl fires =>
        rw [fires] at handles
        exact handles.elim
      | inr resolves => exact (only resolves).elim
    case h_4 => cases executed
  | destroyClosure e copy =>
    left
    cases executed
    cases mem_dropped inside with
    | inl last =>
      rw [last.2] at handles
      exact handles.elim
    | inr releases =>
      obtain ⟨_, _, _, same⟩ := releases
      rw [same] at handles
      exact Owner.closure.inj handles
  | thenFunc t callable =>
    exfalso
    cases executed
    simp only [Instr.thenCode, List.mem_cons, List.not_mem_nil, or_false] at inside
    rcases inside with registers | argument | lambda
    · rw [registers] at handles
      exact handles
    · rw [argument] at handles
      cases handles.2
    · rw [lambda] at handles
      cases handles.2
  | registerThen e =>
    exfalso
    simp only [execute] at executed
    split at executed
    case h_1 =>
      split at executed
      all_goals cases executed
      · cases (only inside).2
      · cases inside
    case h_2 => cases executed
  | releaseActivator all owner =>
    exfalso
    cases executed
    split at inside
    · exact only inside
    · cases inside
  | inCallable | external => cases executed

/-- No call of the program begins with a listed copy. -/
theorem begin_handles {api : Api V ε} (begun : h.begin api = some (h', new)) (inside : x ∈ new) :
    ¬ x.handles d := by
  intro handles
  cases api with
  | newPromise isVoid =>
    cases begun
    cases inside
  | complete s result =>
    obtain ⟨_, made⟩ := Option.ite_none_right_eq_some.mp begun
    cases result with
    | ok value =>
      cases made
      rw [List.mem_singleton.mp inside] at handles
      exact handles
    | error error =>
      cases made
      rw [List.mem_singleton.mp inside] at handles
      exact handles
  | destroyPromise s =>
    obtain ⟨_, made⟩ := Option.ite_none_right_eq_some.mp begun
    cases made
    rw [List.mem_singleton.mp inside] at handles
    exact handles
  | «then» s isVoid =>
    obtain ⟨_, made⟩ := Option.ite_none_right_eq_some.mp begun
    cases made
    simp only [Instr.thenCode, List.mem_cons, List.not_mem_nil, or_false] at inside
    rcases inside with registers | argument | lambda
    · rw [registers] at handles
      exact handles
    · rw [argument] at handles
      cases handles.2
    · rw [lambda] at handles
      cases handles.2
  | whenAll inputs =>
    obtain ⟨_, made⟩ := Option.ite_none_right_eq_some.mp begun
    cases made
    simp only [List.mem_append, List.mem_map, List.mem_cons, List.not_mem_nil, or_false] at inside
    rcases inside with registers | func | activator
    · obtain ⟨_, _, same⟩ := registers
      rw [← same] at handles
      exact handles
    · rw [func] at handles
      cases handles
    · rw [activator] at handles
      cases handles
  | whenAny inputs =>
    obtain ⟨_, made⟩ := Option.ite_none_right_eq_some.mp begun
    cases made
    obtain ⟨_, _, same⟩ := List.mem_map.mp inside
    rw [← same] at handles
    exact handles

/-- Whatever comes on a stack runs above the call that it needs. -/
theorem Cause.handleNested (layout : Layout h P) (extended : h.Extends h')
    (cause : Cause h h' old new)
    (needs : ∀ x ∈ old, h.handleNeeds x (· ∈ base))
    (nested : Stacks.Nested h'.handleNeeds base) :
    Stacks.Nested h'.handleNeeds (new ++ base) := by
  have plain (none : ∀ y ∈ new, ∀ d, ¬ y.handles d) :
      Stacks.Nested h'.handleNeeds (new ++ base) := by
    apply nested.append
    intro y inside _ _ d handles
    exact absurd handles (none y inside d)
  cases cause with
  | @executes x heap _ executed =>
    apply nested.append_split
    intro before y after split below all d handles
    cases execute_handles layout executed split handles with
    | inl mine =>
      obtain ⟨s, callable, made, z, visits, inside⟩ := needs x List.mem_cons_self d mine
      exact ⟨s, callable, layout.origin_kept extended made, z, visits,
        all z (List.mem_append_right after inside)⟩
    | inr visits =>
      obtain ⟨s, callable, made, z, inside, visits⟩ := visits
      exact ⟨s, callable, layout.origin_kept extended made, z, visits,
        all z (List.mem_append_left base inside)⟩
  | returns | throws =>
    apply plain
    intro y inside d
    rw [List.mem_singleton.mp inside]
    exact id
  | calls begun => exact plain fun y inside d => begin_handles begun inside
  | enters code | leaves _ code =>
    apply plain
    intro y inside d
    obtain ⟨_, _, same⟩ := List.mem_map.mp inside
    rw [← same]
    exact id

/-- What all of a stack needs, every instruction on top of it needs. -/
theorem Heap.handleNeeds_top (nested : Stacks.Nested h.handleNeeds (old ++ base))
    (single : old.length ≤ 1) : ∀ x ∈ old, h.handleNeeds x (· ∈ base) := by
  intro x inside
  cases old with
  | nil => cases inside
  | cons y rest =>
    have none : rest = [] := List.eq_nil_of_length_eq_zero (by simpa using single)
    rw [none] at nested inside
    rw [List.mem_singleton.mp inside]
    exact nested.1

/-- At most one instruction is replaced. -/
theorem Cause.single (cause : Cause h h' old new) : old.length ≤ 1 := by
  cases cause with
  | executes | returns | throws | leaves => exact Nat.le_refl 1
  | calls | enters => exact Nat.zero_le 1

/-- In every reachable configuration, what handles a listed copy runs above a call that visits the
list. -/
theorem handleNested (reached : (runtime V ε X).Reachable σ) :
    ∀ stack ∈ σ.threads, Stacks.Nested σ.heap.handleNeeds stack := by
  apply reached.invariant
  · intro σ initial stack member
    obtain ⟨count, same⟩ := initial
    rw [same] at member
    rw [List.eq_of_mem_replicate member]
    trivial
  · intro σ event σ' reached met stepped
    have ok := Config.ok reached
    obtain ⟨disciplined, stepped⟩ := System.under_step.mp stepped
    have extended := (ok.step_extends disciplined stepped).1
    obtain ⟨thread, old, new, base, replaced, cause⟩ := step_cause stepped
    apply replaced.nested met
    · intro x _ below _ needs d handles
      obtain ⟨s, callable, made, rest⟩ := needs d handles
      exact ⟨s, callable, ok.inv.layout.origin_kept extended made, rest⟩
    · have here := met _ (List.mem_of_getElem? replaced.found)
      exact cause.handleNested ok.inv.layout extended (Heap.handleNeeds_top here cause.single)

/-! ## What is over stays over -/

/-- No share of an activator that the stored copy of a closure has released comes back, and no
closure is added to the list of a decided state. -/
structure Heap.Settles (h h' : Heap V ε) : Prop where
  appended : ∀ d, h.appended d = true → h'.appended d = true
  owners : ∀ all d, h.appended d = true → .closure d .listed ∈ h'.owners all →
    .closure d .listed ∈ h.owners all
  listed : ∀ s, h.Decided s → ∀ d ∈ (h'.cell s).continuations, d ∈ (h.cell s).continuations

/-- Every change settles. -/
theorem Change.settles (inv : Inv h P) (change : Change h P h' P') : h.Settles h' := by
  have still {cell : FutureState (Value V) ε StateId} {t : StateId}
      (same : cell.continuations = (h.cell t).continuations) (s d : StateId)
      (inside : d ∈ (Function.update h.cell t cell s).continuations) :
      d ∈ (h.cell s).continuations := by
    rwa [FutureState.continuations_update_same same] at inside
  cases change
  case decide x t result decision undecided =>
    refine ⟨fun _ => id, fun _ _ _ => id, fun s _ d inside => ?_⟩
    exact still (FutureState.continuations_complete _ _) s d inside
  case breakPromise t =>
    refine ⟨fun _ => id, fun _ _ _ => id, fun s _ d inside => ?_⟩
    exact still (FutureState.continuations_breakPromise _) s d inside
  case clearNext t e rest found =>
    refine ⟨fun _ => id, fun _ _ _ => id, fun s _ d inside => ?_⟩
    rw [FutureState.continuations_update] at inside
    split at inside
    case isTrue same =>
      rw [same, found]
      exact List.mem_cons_of_mem _ inside
    case isFalse => exact inside
  case storeClosure e t callable origin undecided lambda argument =>
    constructor
    · intro d stored
      by_cases same : d = e
      · rw [same]
        exact Function.update_self ..
      · exact (Function.update_of_ne same _ _).trans stored
    · intro all d stored inside
      apply (mem_shared.mp inside).resolve_left
      intro shared
      have same : d = e := (Owner.closure.inj (Finset.mem_singleton.mp shared.2)).1
      rw [same] at stored
      have registered := (inv.counts.stored e t callable origin stored).2.2
      rw [Stacks.count_cons] at registered
      have one : (Instr.isRegister e (.registerThen e : Instr V ε X)) = true :=
        beq_self_eq_true e
      rw [if_pos one] at registered
      cases registered
    · intro s decided d inside
      rw [FutureState.continuations_update] at inside
      split at inside
      case isTrue same =>
        rw [same] at decided
        exact absurd decided undecided
      case isFalse => exact inside
  case releaseLast all owner last =>
    refine ⟨fun _ => id, fun other d _ inside => ?_, fun _ _ _ => id⟩
    exact (mem_update_erase.mp inside).1
  case releaseOther all owner other =>
    refine ⟨fun _ => id, fun other d _ inside => ?_, fun _ _ _ => id⟩
    exact (mem_update_erase.mp inside).1
  case thenFunc t callable shared =>
    refine ⟨fun _ => id, fun all d _ inside => ?_, fun _ _ _ => id⟩
    apply (mem_shared.mp inside).resolve_left
    intro fresh
    simp at fresh
  case «then» t isVoid valid =>
    refine ⟨fun _ => id, fun all d _ inside => ?_, fun _ _ _ => id⟩
    apply (mem_shared.mp inside).resolve_left
    intro fresh
    cases fresh.1
  case whenAll inputs valid =>
    refine ⟨fun _ => id, fun all d _ inside => ?_, fun _ _ _ => id⟩
    change _ ∈ Function.update h.owners h.next {Owner.activatorVar, Owner.funcVar} all at inside
    by_cases same : all = h.next
    · rw [same, Function.update_self] at inside
      simp at inside
    · rwa [Function.update_of_ne same] at inside
  all_goals exact ⟨fun _ => id, fun _ _ _ => id, fun _ _ _ => id⟩

/-- What a replay of the runtime finds over stays over. -/
theorem replay_settles {events : List (Event V ε X)} (reached : (runtime V ε X).Reachable σ)
    (replayed : (runtime V ε X).replay σ events = some σ') : σ.heap.Settles σ'.heap := by
  let relates (first last : Config V ε X) : Prop :=
    first.heap.Settles last.heap ∧ ∀ s, first.heap.Decided s → last.heap.Decided s
  suffices related : relates σ σ' from related.1
  apply reached.replay_relates _ _ replayed
  · exact fun _ => ⟨⟨fun _ => id, fun _ _ _ => id, fun _ _ _ => id⟩, fun _ => id⟩
  · intro first state event after middle related stepped
    obtain ⟨before, decided⟩ := related
    have ok := Config.ok middle
    obtain ⟨disciplined, taken⟩ := System.under_step.mp stepped
    have later := (ok.step_extends disciplined taken).2
    refine ⟨?_, fun s was => later s (decided s was)⟩
    cases ok.heap_change disciplined taken with
    | inl same =>
      rw [same]
      exact before
    | inr changed =>
      obtain ⟨P', change⟩ := changed
      have next := change.settles ok.inv
      constructor
      · exact fun d stored => next.appended d (before.appended d stored)
      · intro all d stored inside
        exact before.owners all d stored (next.owners all d (before.appended d stored) inside)
      · intro s was d inside
        exact before.listed s was d (next.listed s (decided s was) d inside)

end Azul.Async
