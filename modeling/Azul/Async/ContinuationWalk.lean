import Azul.Async.Idle
import Azul.Async.RuntimeSteps

/-!
# The walk over the continuations

`SetValue` and `SetException` walk `_continuations` without the lock, and call arbitrary code on
the way. That code may register continuations, complete promises and drop futures: the list of a
decided state does not grow, and only the end of its promise clears it. So it may not destroy the
promise that is being completed. As long as it does not, no list changes while it is walked, and
every completing call runs all of it.
-/

namespace Azul.Async

open Foundation

variable {V ε X : Type} {h h' : Heap V ε} {σ σ' : Config V ε X}

/-! ## The program -/

/-- A promise is used and destroyed as long as it is there. -/
def Alive (σ : Config V ε X) : Event V ε X → Prop
  | .call _ (.complete s _) | .call _ (.destroyPromise s) => σ.heap.destroyed s = false
  | _ => True

/-- No promise is destroyed while its `SetValue` or `SetException` is in progress. -/
def Uninterrupted (σ : Config V ε X) : Event V ε X → Prop
  | .call _ (.destroyPromise s) => ∀ stack ∈ σ.threads, ∀ x ∈ stack, x.completes s = false
  | _ => True

instance (σ : Config V ε X) : (event : Event V ε X) → Decidable (Alive σ event)
  | .call _ (.complete s _) | .call _ (.destroyPromise s) =>
    inferInstanceAs (Decidable (σ.heap.destroyed s = false))
  | .call _ (.newPromise _) | .call _ (.then _ _) | .call _ (.whenAll _) | .call _ (.whenAny _)
  | .run _ | .ret _ _ | .enter _ _ _ => inferInstanceAs (Decidable True)

instance (σ : Config V ε X) : (event : Event V ε X) → Decidable (Uninterrupted σ event)
  | .call _ (.destroyPromise s) =>
    inferInstanceAs (Decidable (∀ stack ∈ σ.threads, ∀ x ∈ stack, x.completes s = false))
  | .call _ (.complete _ _) | .call _ (.newPromise _) | .call _ (.then _ _) | .call _ (.whenAll _)
  | .call _ (.whenAny _) | .run _ | .ret _ _ | .enter _ _ _ => inferInstanceAs (Decidable True)

/-- The runtime with any number of threads, in a program that calls no destroyed promise. -/
def program (V ε X : Type) : System (Config V ε X) (Event V ε X) :=
  System.under { initial := fun σ => ∃ count, σ = Config.start count, step := Config.step } Alive

/-- A program that does not destroy a promise during a call of it keeps its promises in order. -/
theorem disciplined_of_alive {event : Event V ε X} (alive : Alive σ event)
    (uninterrupted : Uninterrupted σ event) : Disciplined σ event := by
  cases event with
  | call thread api =>
    cases api with
    | complete s result => exact alive
    | destroyPromise s => exact ⟨alive, uninterrupted⟩
    | _ => trivial
  | _ => trivial

/-- What such a program reaches the runtime reaches. -/
theorem reachable_runtime (reached : ((program V ε X).under Uninterrupted).Reachable σ) :
    (runtime V ε X).Reachable σ := by
  induction reached with
  | start initial => exact .start initial
  | @next σ σ' event reached stepped ih =>
    obtain ⟨uninterrupted, stepped⟩ := System.under_step.mp stepped
    obtain ⟨alive, stepped⟩ := System.under_step.mp stepped
    exact ih.next (System.under_step.mpr ⟨disciplined_of_alive alive uninterrupted, stepped⟩)

/-! ## Calls from the walk -/

/-- A closure in a list is called by the loop over that list. -/
def Heap.walkNeeds (h : Heap V ε) (x : Instr V ε X) (below : Instr V ε X → Prop) : Prop :=
  ∀ d, x = .invoke d .listed → ∃ s callable index,
    h.origin d = some (.derived s callable) ∧ below (.walk s index)

theorem walkNeeds_of_other {x : Instr V ε X} (other : ∀ d, x ≠ .invoke d .listed)
    (below : Instr V ε X → Prop) : h.walkNeeds x below :=
  fun d same => absurd same (other d)

/-- Code without a call of a listed closure may be put on any stack. -/
theorem nested_walkNeeds {new base : List (Instr V ε X)} (other : ∀ d, .invoke d .listed ∉ new)
    (nested : Stacks.Nested h.walkNeeds base) : Stacks.Nested h.walkNeeds (new ++ base) := by
  apply nested.append
  intro x inside below _
  apply walkNeeds_of_other
  intro d same
  rw [same] at inside
  exact other d inside

/-- Only the loop over a list calls a closure in it. -/
theorem execute_invokes {x : Instr V ε X} {new : List (Instr V ε X)}
    (executed : execute h x = some (h', new)) {d : StateId} (inside : .invoke d .listed ∈ new) :
    ∃ s index, d ∈ (h.cell s).continuations ∧
      new = [.invoke d .listed, .walk s index] := by
  cases x with
  | walk s index =>
    simp only [execute] at executed
    split at executed
    case h_1 =>
      cases executed
      cases inside
    case h_2 e found =>
      cases executed
      have same : d = e := by simpa using inside
      rw [same]
      exact ⟨s, index + 1, List.mem_of_getElem? found, rfl⟩
  | setValue | resolve | clear | invoke =>
    simp only [execute] at executed
    split at executed <;> cases executed <;> simp at inside
  | registerThen e =>
    simp only [execute] at executed
    split at executed
    case h_1 => split at executed <;> cases executed <;> simp at inside
    case h_2 => cases executed
  | setException | aboutToDestroyPromise =>
    cases executed
    simp at inside
  | destroyClosure e copy =>
    cases executed
    cases mem_dropped inside with
    | inl same => cases same.2
    | inr released =>
      obtain ⟨_, _, _, same⟩ := released
      cases same
  | thenFunc =>
    cases executed
    simp [Instr.thenCode] at inside
  | releaseActivator all owner =>
    cases executed
    split at inside <;> simp at inside
  | inCallable | external => cases executed

theorem begin_invokes {api : Api V ε} {new : List (Instr V ε X)}
    (begun : h.begin api = some (h', new)) (d : StateId) : .invoke d .listed ∉ new := by
  intro inside
  cases api with
  | newPromise isVoid =>
    cases begun
    cases inside
  | complete s result =>
    obtain ⟨-, made⟩ := Option.ite_none_right_eq_some.mp begun
    cases result <;> cases made <;> simp at inside
  | destroyPromise s =>
    obtain ⟨-, made⟩ := Option.ite_none_right_eq_some.mp begun
    cases made
    simp at inside
  | «then» s isVoid =>
    obtain ⟨-, made⟩ := Option.ite_none_right_eq_some.mp begun
    cases made
    simp [Instr.thenCode] at inside
  | whenAll inputs | whenAny inputs =>
    obtain ⟨-, made⟩ := Option.ite_none_right_eq_some.mp begun
    cases made
    simp at inside

/-- Whatever comes on a stack finds the loop that it needs. -/
theorem Cause.walkNested {old new base : List (Instr V ε X)} (layout : Layout h σ.pending)
    (extended : h.Extends h') (cause : Cause h h' old new)
    (nested : Stacks.Nested h'.walkNeeds base) : Stacks.Nested h'.walkNeeds (new ++ base) := by
  cases cause with
  | executes executed =>
    by_cases calls : ∃ d, .invoke d .listed ∈ new
    · obtain ⟨d, inside⟩ := calls
      obtain ⟨s, index, listed, code⟩ := execute_invokes executed inside
      obtain ⟨-, callable, made⟩ := layout.listed s d listed
      rw [code]
      refine ⟨?_, walkNeeds_of_other (fun _ same => by cases same) _, nested⟩
      intro e same
      rw [← (Instr.invoke.inj same).1]
      exact ⟨s, callable, index, layout.origin_kept extended made, List.mem_cons_self⟩
    · exact nested_walkNeeds (not_exists.mp calls) nested
  | returns | throws =>
    apply nested_walkNeeds _ nested
    intro d inside
    cases List.mem_singleton.mp inside
  | calls begun => exact nested_walkNeeds (begin_invokes begun) nested
  | enters code | leaves x code =>
    apply nested_walkNeeds _ nested
    intro d inside
    obtain ⟨c, _, same⟩ := List.mem_map.mp inside
    cases same

/-- In every reachable configuration the loops are there that call listed closures. -/
theorem walkNested (reached : (runtime V ε X).Reachable σ) :
    ∀ stack ∈ σ.threads, Stacks.Nested σ.heap.walkNeeds stack := by
  apply reached.invariant
  · intro σ initial stack member
    obtain ⟨count, same⟩ := initial
    rw [same] at member
    rw [List.eq_of_mem_replicate member]
    trivial
  · intro σ event σ' reached met stepped
    have ok := Config.ok reached
    obtain ⟨disciplined, stepped⟩ := System.under_step.mp stepped
    have extended := (ok.step_extends disciplined stepped).1
    obtain ⟨thread, old, new, base, replaced, cause⟩ := step_cause stepped
    apply replaced.nested met
    · intro x inside below _ needs d same
      obtain ⟨s, callable, index, made, walks⟩ := needs d same
      exact ⟨s, callable, index, ok.inv.layout.origin_kept extended made, walks⟩
    · exact cause.walkNested ok.inv.layout extended

/-! ## Walks -/

/-- A list of continuations does not change while a completing call walks it. -/
theorem Change.walked_same {P P' : Multiset (Instr V ε X)} (inv : Inv h P)
    (exclusive : Exclusive h P) (change : Change h P h' P') {s : StateId} {index : Nat}
    (walks : .walk s index ∈ P) :
    (h'.cell s).continuations = (h.cell s).continuations := by
  have alive := exclusive _ walks s (by simp [Instr.completes])
  have decided : h.Decided s := by
    by_contra undecided
    have walked := inv.decisions.walking s index walks
    rw [inv.decisions.unwalked s undecided] at walked
    exact Nat.lt_irrefl 0 walked
  cases change
  case decide | breakPromise =>
    apply FutureState.continuations_update_same
    simp
  case clearNext t e rest found =>
    have other : s ≠ t := by
      intro same
      rw [same] at alive
      exact alive (inv.decisions.destroying _ (Multiset.mem_cons_self ..) t
        (by simp [Instr.destroys]))
    rw [FutureState.continuations_update, if_neg other]
  case storeClosure t callable origin undecided lambda argument =>
    have other : s ≠ t := by
      intro same
      rw [same] at decided
      exact undecided decided
    rw [FutureState.continuations_update, if_neg other]
  all_goals rfl

/-- A step of a program in order does not change a list that is being walked. -/
theorem Config.Ok.walked_same {event : Event V ε X} (ok : σ.Ok)
    (disciplined : Disciplined σ event) (stepped : σ.step event = some σ') {s : StateId}
    {index : Nat} (walks : .walk s index ∈ σ.pending) :
    (σ'.heap.cell s).continuations = (σ.heap.cell s).continuations := by
  cases ok.heap_change disciplined stepped with
  | inl same => rw [same]
  | inr changed =>
    obtain ⟨P', change⟩ := changed
    exact change.walked_same ok.inv ok.exclusive walks

/-- No step changes a list that is being walked. -/
def Config.WalksUnchanged (σ : Config V ε X) (system : System (Config V ε X) (Event V ε X)) :
    Prop :=
  ∀ s index, .walk s index ∈ σ.pending → ∀ event σ', system.step σ event = some σ' →
    (σ'.heap.cell s).continuations = (σ.heap.cell s).continuations

/-- When nobody completes a state, every closure that was stored in its list has been called once
by every completing call that walked the list. -/
def Config.WalksComplete (σ : Config V ε X) : Prop :=
  ∀ s, (∀ x ∈ σ.pending, x.completes s = false) → ∀ d callable,
    σ.heap.origin d = some (.derived s callable) → σ.heap.appended d = true →
      σ.heap.invocations d = σ.heap.walks s

/-- In every run in which no promise is destroyed while its `SetValue` or `SetException` is in
progress, lists do not change while they are walked, and every walk runs all of its list. -/
theorem walks_whole (reached : ((program V ε X).under Uninterrupted).Reachable σ) :
    σ.WalksUnchanged ((program V ε X).under Uninterrupted) ∧ σ.WalksComplete := by
  have reached := reachable_runtime reached
  have ok := Config.ok reached
  constructor
  · intro s index walks event σ' stepped
    obtain ⟨uninterrupted, stepped⟩ := System.under_step.mp stepped
    obtain ⟨alive, stepped⟩ := System.under_step.mp stepped
    exact ok.walked_same (disciplined_of_alive alive uninterrupted) stepped walks
  · intro s still d callable made stored
    obtain ⟨calls, _, _⟩ := ok.inv.counts.stored d s callable made stored
    have unwalked : Stacks.count σ.pending
        (Instr.walksTo s ((σ.heap.cell s).continuations.idxOf d)) = 0 := by
      apply count_absent still
      intro x counted
      cases x with
      | walk t index =>
        simp only [Instr.walksTo, Bool.and_eq_true] at counted
        exact counted.1
      | _ => cases counted
    have uncalled : Stacks.count σ.pending (Instr.isInvoke d .listed) = 0 := by
      apply Stacks.count_eq_zero.mpr
      intro x inside
      by_contra calling
      have same : x = .invoke d .listed := by
        cases x with
        | invoke e copy =>
          simp only [Instr.isInvoke, Bool.not_eq_false, Bool.and_eq_true, beq_iff_eq] at calling
          rw [calling.1, calling.2]
        | _ => cases calling rfl
      obtain ⟨stack, member, held⟩ := Stacks.mem_pending.mp inside
      have grows (x : Instr V ε X) (below wider : Instr V ε X → Prop)
          (wide : ∀ y, below y → wider y) (needs : σ.heap.walkNeeds x below) :
          σ.heap.walkNeeds x wider := by
        intro d same
        obtain ⟨s, callable, index, made, walks⟩ := needs d same
        exact ⟨s, callable, index, made, wide _ walks⟩
      obtain ⟨t, _, index, origin, walks⟩ :=
        (walkNested reached stack member).needs grows held d same
      rw [made] at origin
      obtain ⟨antecedent, _⟩ := Origin.derived.inj (Option.some.inj origin)
      have completing := still _ (Stacks.mem_pending.mpr ⟨stack, member, walks⟩)
      rw [← antecedent] at completing
      simp [Instr.completes] at completing
    omega

/-! ## Two continuations -/

/-- A promise with two continuations is completed; the first one has been called. -/
def walkingRun : List (Event Nat String Empty) :=
  [Event.call 0 (.newPromise false), Event.call 0 (.then 0 false)] ++
    List.replicate 3 (Event.run 0) ++ [Event.call 0 (.then 0 false)] ++
    List.replicate 3 (Event.run 0) ++ [Event.call 0 (.complete 0 (.ok (.val 5)))] ++
    List.replicate 3 (Event.run 0)

/-- The first continuation returns, so does the second one, and then the promise is destroyed. -/
def wholeRun : List (Event Nat String Empty) :=
  walkingRun ++ [Event.ret 0 (.ok (.val 7))] ++ List.replicate 4 (Event.run 0) ++
    [Event.ret 0 (.ok (.val 8))] ++ List.replicate 3 (Event.run 0) ++
    [Event.call 0 (.destroyPromise 0)] ++ List.replicate 10 (Event.run 0)

theorem wholeRun_replays :
    (((program Nat String Empty).under Uninterrupted).replay (Config.start 1) wholeRun).isSome =
      true := by
  decide +kernel

def wholeEnd : Config Nat String Empty :=
  (((program Nat String Empty).under Uninterrupted).replay (Config.start 1) wholeRun).get
    wholeRun_replays

/-- Both continuations have been called once. -/
theorem walks_whole_two :
    wholeEnd.heap.walks 0 = 1 ∧ wholeEnd.heap.invocations 1 = 1 ∧
      wholeEnd.heap.invocations 2 = 1 := by
  have starts : ((program Nat String Empty).under Uninterrupted).initial (Config.start 1) :=
    ⟨1, rfl⟩
  have whole := (walks_whole (System.Reachable.of_replay starts wholeRun_replays)).2
  have walked : wholeEnd.heap.walks 0 = 1 := by decide +kernel
  have first := whole 0 (by decide +kernel) 1 .user (by decide +kernel) (by decide +kernel)
  have second := whole 0 (by decide +kernel) 2 .user (by decide +kernel) (by decide +kernel)
  exact ⟨walked, first.trans walked, second.trans walked⟩

/-- The first continuation destroys the promise. -/
def destroyingRun : List (Event Nat String Empty) :=
  walkingRun ++ [Event.call 0 (.destroyPromise 0), Event.run 0]

/-- It returns after that. -/
def interruptedRun : List (Event Nat String Empty) :=
  destroyingRun ++ List.replicate 9 (Event.run 0) ++ [Event.ret 0 (.ok (.val 7))] ++
    List.replicate 4 (Event.run 0)

theorem interruptedRun_replays :
    ((program Nat String Empty).replay (Config.start 1) destroyingRun).isSome = true ∧
      ((program Nat String Empty).replay (Config.start 1) interruptedRun).isSome = true := by
  decide +kernel

/-- The destructor of the promise is about to clear the list. -/
def destroyingEnd : Config Nat String Empty :=
  ((program Nat String Empty).replay (Config.start 1) destroyingRun).get interruptedRun_replays.1

def interruptedEnd : Config Nat String Empty :=
  ((program Nat String Empty).replay (Config.start 1) interruptedRun).get interruptedRun_replays.2

theorem clearing_enabled :
    ((program Nat String Empty).step destroyingEnd (.run 0)).isSome = true := by
  decide +kernel

/-- When a continuation destroys the promise that is being completed, the list is cleared while it
is walked, and the second continuation is never called. -/
theorem walk_interrupted :
    (¬ ∀ σ, (program Nat String Empty).Reachable σ →
      σ.WalksUnchanged (program Nat String Empty)) ∧
    ¬ ∀ σ, (program Nat String Empty).Reachable σ → σ.WalksComplete := by
  have starts : (program Nat String Empty).initial (Config.start 1) := ⟨1, rfl⟩
  constructor
  · intro claim
    have reached := System.Reachable.of_replay starts interruptedRun_replays.1
    have walking : 0 < Stacks.count destroyingEnd.pending (Instr.walksTo 0 1) := by decide +kernel
    obtain ⟨x, inside, walks⟩ := Stacks.count_pos.mp walking
    cases x with
    | walk s index =>
      simp only [Instr.walksTo, Bool.and_eq_true, beq_iff_eq] at walks
      rw [walks.1] at inside
      have same := claim destroyingEnd reached 0 index inside (.run 0) _
        (Option.some_get clearing_enabled).symm
      exact absurd same (by decide +kernel)
    | _ => cases walks
  · intro claim
    have reached := System.Reachable.of_replay starts interruptedRun_replays.2
    have called := claim interruptedEnd reached 0 (by decide +kernel) 2 .user (by decide +kernel)
      (by decide +kernel)
    exact absurd called (by decide +kernel)

end Azul.Async
