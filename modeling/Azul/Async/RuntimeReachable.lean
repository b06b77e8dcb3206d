import Azul.Async.RuntimeCombinators

/-!
# Every reachable configuration

The runtime's steps are changes. What a change demands beyond its own guard comes from nesting: an
instruction runs on behalf of a suspended one below it in its own stack, a closure that is called
is owned by that one, and so no completing call is in progress on a state whose promise is gone.
The program owes its promises what C++ demands of any object: it calls no member of a promise that
is being destroyed, and it destroys no promise that is being called, or twice.
-/

namespace Azul.Async

open Foundation

variable {V ε X : Type} {h h' : Heap V ε} {P P' : Multiset (Instr V ε X)}

/-! ## Nesting -/

/-- A derived state is completed by a closure that the thread keeps alive: the argument of
`FutureState::Then`, or an element of the list it walks. -/
def Heap.Held (h : Heap V ε) (d : StateId) (below : Instr V ε X → Prop) : Prop :=
  below (.destroyClosure d .argument) ∨
  ∃ s callable index, h.origin d = some (.derived s callable) ∧ d ∈ (h.cell s).continuations ∧
    below (.walk s index)

/-- What an instruction needs below it in its own stack. -/
def Heap.needs (h : Heap V ε) : Instr V ε X → (Instr V ε X → Prop) → Prop
  | .invoke d _, below | .inCallable d, below | .resolve d _, below | .setException d _, below
  | .walk d _, below => h.Derived d → h.Held d below
  | .registerThen d, below =>
    below (.destroyClosure d .argument) ∧ below (.destroyClosure d .lambda)
  | .thenFunc _ callable, below =>
    ∀ all, callable = .release all → below (.releaseActivator all .funcVar)
  | _, _ => True

/-- What is below stays below. -/
theorem Heap.Held.grow {d : StateId} {below wider : Instr V ε X → Prop}
    (wide : ∀ x, below x → wider x) (held : h.Held d below) : h.Held d wider := by
  rcases held with destroyed | ⟨s, callable, index, made, inside, walks⟩
  · exact Or.inl (wide _ destroyed)
  · exact Or.inr ⟨s, callable, index, made, inside, wide _ walks⟩

/-- Needs are met by more instructions below. -/
theorem Heap.needs_grow (x : Instr V ε X) (below wider : Instr V ε X → Prop)
    (wide : ∀ y, below y → wider y) (needs : h.needs x below) : h.needs x wider := by
  cases x with
  | invoke | inCallable | resolve | setException | walk =>
    exact fun derived => (needs derived).grow wide
  | registerThen => exact ⟨wide _ needs.1, wide _ needs.2⟩
  | thenFunc s callable => exact fun all same => wide _ (needs all same)
  | _ => trivial

/-- All stacks are nested. -/
def Heap.AllNested (h : Heap V ε) (threads : List (List (Instr V ε X))) : Prop :=
  ∀ stack ∈ threads, Stacks.Nested h.needs stack

/-- A state whose closure is held is not retired. -/
theorem Heap.Held.not_retired (inv : Inv h P) {d s : StateId} {callable : Callable}
    (made : h.origin d = some (.derived s callable)) {below : Instr V ε X → Prop}
    (pending : ∀ x, below x → x ∈ P) (held : h.Held d below) : ¬ h.Retired d := by
  rw [Heap.retired_derived made]
  intro gone
  rcases held with destroyed | ⟨a, func, index, origin, inside, -⟩
  · have live := inv.counts.copy_live made (pending _ destroyed)
    simp [gone] at live
  · have live := inv.counts.listed_live origin inside
    simp [gone] at live

/-- In nested stacks nothing completes a state whose promise is gone. -/
theorem Heap.AllNested.exclusive {threads : List (List (Instr V ε X))}
    (nested : h.AllNested threads) (inv : Inv h (Stacks.pending threads)) :
    Exclusive h (Stacks.pending threads) := by
  intro x inside s completes retired
  rcases retired.promised with made | ⟨a, callable, made⟩
  · have alive := inv.decisions.live s made x inside completes
    rw [Heap.retired_promise made, alive] at retired
    cases retired
  · obtain ⟨stack, member, found⟩ := Stacks.mem_pending.mp inside
    have needs := (nested stack member).needs Heap.needs_grow found
    have pending (y : Instr V ε X) (held : y ∈ stack) : y ∈ Stacks.pending threads :=
      Stacks.mem_pending.mpr ⟨stack, member, held⟩
    have typed := inv.layout.typed x inside
    cases x <;> simp only [Instr.completes, beq_iff_eq, Bool.false_eq_true] at completes
    case setValue t value => exact typed.2.2 (completes ▸ ⟨a, callable, made⟩)
    all_goals
      subst completes
      exact Heap.Held.not_retired inv made pending (needs ⟨a, callable, made⟩) retired

/-! ## Steps are changes -/

/-- The critical section of `SetValue` stores the value exactly if the state was undecided. -/
theorem Heap.setValue_cases {s : StateId} {value : Value V}
    (fits : h.isVoid s = true → value = .void) :
    (¬ h.Decided s ∧ h.setValue s value = .ok (some ((h.cell s).complete (.ok value)))) ∨
    (h.Decided s ∧ h.setValue s value = .ok none) ∨
    (h.Decided s ∧ h.setValue s value = .error (.futureError .futureAlreadySet)) := by
  have decided : h.Decided s ↔ (h.cell s).state ≠ .undefined := by
    rw [Heap.Decided, Heap.outcome, Ne, FutureState.outcome_eq_none]
  rw [decided]
  unfold Heap.setValue
  by_cases undefined : (h.cell s).state = .undefined
  · left
    refine ⟨fun other => other undefined, ?_⟩
    split
    · rw [fits ‹_›]
      simp [FutureState.setValueVoid, FutureState.complete, undefined]
    · simp [FutureState.setValue, FutureState.complete, undefined, Except.map]
  · right
    split
    · exact Or.inl ⟨undefined, by simp [FutureState.setValueVoid, undefined]⟩
    · exact Or.inr ⟨undefined, by simp [FutureState.setValue, undefined, Except.map]⟩

/-- `FutureState::Then` stores the continuation exactly if the state is undecided. -/
theorem Heap.then_cases (h : Heap V ε) (s d : StateId) :
    (¬ h.Decided s ∧ (h.cell s).then d = some ((h.cell s).append d)) ∨
    (h.Decided s ∧ (h.cell s).then d = none) := by
  rw [Heap.Decided, Heap.outcome, Ne, FutureState.outcome_eq_none, not_not]
  unfold FutureState.then FutureState.append
  by_cases undefined : (h.cell s).state = .undefined
  · exact Or.inl ⟨undefined, if_pos undefined⟩
  · exact Or.inr ⟨undefined, if_neg undefined⟩

/-- Executing an instruction is a change. -/
theorem execute_change {x : Instr V ε X} {new : List (Instr V ε X)} (typed : x.Typed h)
    (needs : h.needs x (· ∈ P)) (executed : execute h x = some (h', new)) :
    Change h (x ::ₘ P) h' ((new : Multiset (Instr V ε X)) + P) := by
  cases x with
  | setValue s value =>
    rcases Heap.setValue_cases typed.1 with ⟨undecided, set⟩ | ⟨decided, set⟩ | ⟨decided, set⟩
    all_goals
      simp only [execute, set, Option.some.injEq, Prod.mk.injEq] at executed
      obtain ⟨rfl, rfl⟩ := executed
    · exact .decide rfl fun _ _ => undecided
    · simpa using Change.skip rfl decided
    · simpa using Change.skip rfl decided
  | resolve s value =>
    rcases Heap.setValue_cases typed.1 with ⟨undecided, set⟩ | ⟨decided, set⟩ | ⟨decided, set⟩
    all_goals
      simp only [execute, set, Option.some.injEq, Prod.mk.injEq] at executed
      obtain ⟨rfl, rfl⟩ := executed
    · exact .decide rfl fun _ _ => undecided
    · simpa using Change.skip rfl decided
    · exact .throw decided
  | setException s error =>
    cases executed
    have decision : (Instr.setException s error : Instr V ε X).decision =
        some (s, .error error) := rfl
    exact .decide decision fun _ clash => by cases clash
  | walk s index =>
    simp only [execute] at executed
    split at executed
    · cases executed
      simpa using Change.walkEnd ‹_›
    · cases executed
      rw [Stacks.coe_cons_add, Stacks.coe_cons_add, Stacks.coe_nil_add]
      exact .walkNext ‹_›
  | aboutToDestroyPromise s =>
    cases executed
    exact .breakPromise
  | clear s =>
    simp only [execute] at executed
    split at executed
    · cases executed
      simpa using Change.clearEnd ‹_›
    · cases executed
      rw [Stacks.coe_cons_add, Stacks.coe_cons_add, Stacks.coe_nil_add]
      exact .clearNext ‹_›
  | invoke d copy =>
    simp only [execute] at executed
    split at executed
    · cases executed
      exact .invokeUser ‹_›
    · cases executed
      rw [Stacks.coe_cons_add, Stacks.coe_cons_add, Stacks.coe_nil_add]
      exact .invokeRelease ‹_›
    · cases executed
      rw [Stacks.coe_cons_add, Stacks.coe_cons_add, Stacks.coe_nil_add]
      exact .invokeFire ‹_›
    · cases executed
  | inCallable d => cases executed
  | destroyClosure d copy =>
    cases executed
    exact .destroyClosure
  | thenFunc s callable =>
    cases executed
    exact .thenFunc needs
  | registerThen d =>
    simp only [execute] at executed
    split at executed
    case h_1 s callable origin =>
      rcases h.then_cases s d with ⟨undecided, stored⟩ | ⟨decided, stored⟩
      · simp only [stored, Option.some.injEq, Prod.mk.injEq] at executed
        obtain ⟨rfl, rfl⟩ := executed
        rw [Stacks.coe_nil_add]
        exact .storeClosure origin undecided needs.2 needs.1
      · simp only [stored, Option.some.injEq, Prod.mk.injEq] at executed
        obtain ⟨rfl, rfl⟩ := executed
        exact .runInline origin decided
    case h_2 => cases executed
  | releaseActivator all owner =>
    cases executed
    split
    · exact .releaseLast ‹_›
    · simpa using Change.releaseOther ‹_›
  | external x => cases executed

/-- Beginning a call is a change, if the program keeps its promises in order. -/
theorem begin_change {api : Api V ε} {new : List (Instr V ε X)}
    (alive : ∀ s result, api = .complete s result → h.destroyed s = false)
    (idle : ∀ s, api = .destroyPromise s →
      h.destroyed s = false ∧ ∀ x ∈ P, x.completes s = false)
    (begun : h.begin api = some (h', new)) :
    Change h P h' ((new : Multiset (Instr V ε X)) + P) := by
  cases api with
  | newPromise isVoid =>
    cases begun
    simpa using Change.newPromise
  | complete s result =>
    obtain ⟨⟨origin, fits⟩, made⟩ := Option.ite_none_right_eq_some.mp begun
    have live := alive s result rfl
    cases result <;> cases made
    · exact .complete origin rfl (by simp) fits live
    · exact .complete origin rfl (by simp) fits live
  | destroyPromise s =>
    obtain ⟨origin, made⟩ := Option.ite_none_right_eq_some.mp begun
    cases made
    exact .destroyPromise origin (idle s rfl).1 (idle s rfl).2
  | «then» s isVoid =>
    obtain ⟨valid, made⟩ := Option.ite_none_right_eq_some.mp begun
    cases made
    exact .then valid
  | whenAll inputs =>
    obtain ⟨valid, made⟩ := Option.ite_none_right_eq_some.mp begun
    cases made
    exact .whenAll valid
  | whenAny inputs =>
    obtain ⟨valid, made⟩ := Option.ite_none_right_eq_some.mp begun
    cases made
    exact .whenAny valid

/-- A closure stays listed while a completing call walks the list. -/
theorem Change.listed_kept (inv : Inv h P) (exclusive : Exclusive h P) (change : Change h P h' P')
    {s d : StateId} {index : Nat} (walks : .walk s index ∈ P)
    (inside : d ∈ (h.cell s).continuations) : d ∈ (h'.cell s).continuations := by
  have fresh (grew : h.next < h'.next) : d ∈ (h'.cell s).continuations :=
    (change.allocates inv.layout grew).cell ▸ inside
  have alive := exclusive _ walks s (by simp [Instr.completes])
  cases change
  case thenFunc | «then» | newPromise | whenAll | whenAny => exact fresh (Nat.lt_succ_self _)
  case decide | breakPromise => rwa [FutureState.continuations_update_same (by simp)]
  case clearNext t e rest found =>
    have other : s ≠ t := by
      rintro rfl
      exact alive (inv.decisions.destroying _ (Multiset.mem_cons_self ..) s
        (by simp [Instr.destroys]))
    rwa [FutureState.continuations_update, if_neg other]
  case storeClosure =>
    rw [FutureState.continuations_update]
    split
    · subst s
      simp [inside]
    · exact inside
  all_goals exact inside

/-- A step of one thread leaves the needs met that instructions of others have. -/
theorem Change.needs_kept (inv : Inv h P) (exclusive : Exclusive h P) (change : Change h P h' P')
    {x : Instr V ε X} (inside : x ∈ P) {below : Instr V ε X → Prop} (pending : ∀ y, below y → y ∈ P)
    (needs : h.needs x below) : h'.needs x below := by
  have ext := change.extends
  have held (d : StateId) (old : d < h.next) (needs : h.Derived d → h.Held d below)
      (derived : h'.Derived d) : h'.Held d below := by
    have before : h.Derived d := by
      obtain ⟨s, callable, made⟩ := derived
      exact ⟨s, callable, (ext.origin d old).symm.trans made⟩
    rcases needs before with destroyed | ⟨s, callable, index, made, listed, walks⟩
    · exact Or.inl destroyed
    · exact Or.inr ⟨s, callable, index, inv.layout.origin_kept ext made,
        change.listed_kept inv exclusive (pending _ walks) listed, walks⟩
  have typed := inv.layout.typed x inside
  cases x with
  | invoke d copy => exact held d (inv.layout.derived_lt typed.2) needs
  | inCallable d => exact held d (inv.layout.derived_lt (typed.imp fun _ made => ⟨_, made⟩)) needs
  | resolve d value => exact held d (inv.layout.derived_lt typed.2) needs
  | setException d error => exact held d (inv.layout.promised_lt typed) needs
  | walk d index => exact held d typed needs
  | registerThen d => exact needs
  | thenFunc s callable => exact needs
  | _ => trivial

/-- What an executed instruction schedules finds below it what it needs. -/
theorem execute_nested {x : Instr V ε X} {rest new : List (Instr V ε X)} (typed : x.Typed h)
    (ext : h.Extends h') (layout : Layout h P)
    (needs : h.needs x (· ∈ rest)) (same : h'.needs x (· ∈ rest))
    (nested : Stacks.Nested h'.needs rest) (executed : execute h x = some (h', new)) :
    Stacks.Nested h'.needs (new ++ rest) := by
  cases x with
  | setValue s value =>
    rcases Heap.setValue_cases typed.1 with ⟨undecided, set⟩ | ⟨decided, set⟩ | ⟨decided, set⟩
    all_goals
      simp only [execute, set, Option.some.injEq, Prod.mk.injEq] at executed
      obtain ⟨rfl, rfl⟩ := executed
    · exact ⟨fun derived => absurd derived typed.2.2, nested⟩
    · exact nested
    · exact nested
  | resolve s value =>
    rcases Heap.setValue_cases typed.1 with ⟨undecided, set⟩ | ⟨decided, set⟩ | ⟨decided, set⟩
    all_goals
      simp only [execute, set, Option.some.injEq, Prod.mk.injEq] at executed
      obtain ⟨rfl, rfl⟩ := executed
    · exact ⟨same, nested⟩
    · exact nested
    · exact ⟨same, nested⟩
  | setException s error =>
    cases executed
    exact ⟨same, nested⟩
  | walk s index =>
    simp only [execute] at executed
    split at executed
    · cases executed
      exact nested
    case h_2 d found =>
      cases executed
      obtain ⟨-, callable, made⟩ := layout.listed s d (List.mem_of_getElem? found)
      exact ⟨fun _ => Or.inr ⟨s, callable, index + 1, made, List.mem_of_getElem? found,
        List.mem_cons_self⟩, same, nested⟩
  | aboutToDestroyPromise s =>
    cases executed
    exact ⟨trivial, nested⟩
  | clear s =>
    simp only [execute] at executed
    split at executed
    · cases executed
      exact nested
    · cases executed
      exact ⟨trivial, trivial, nested⟩
  | invoke d copy =>
    simp only [execute] at executed
    split at executed
    · cases executed
      exact ⟨same, nested⟩
    · cases executed
      exact ⟨trivial, same, nested⟩
    · cases executed
      exact ⟨trivial, same, nested⟩
    · cases executed
  | inCallable d => cases executed
  | destroyClosure d copy =>
    cases executed
    refine Stacks.Nested.append (fun x inside below _ => ?_) nested
    rcases mem_dropped inside with ⟨-, rfl⟩ | ⟨_, _, -, rfl⟩ <;> trivial
  | thenFunc s callable =>
    cases executed
    exact ⟨⟨by simp, by simp⟩, trivial, trivial, nested⟩
  | registerThen d =>
    simp only [execute] at executed
    split at executed
    case h_1 s callable origin =>
      rcases h.then_cases s d with ⟨undecided, stored⟩ | ⟨decided, stored⟩
      · simp only [stored, Option.some.injEq, Prod.mk.injEq] at executed
        obtain ⟨rfl, rfl⟩ := executed
        exact nested
      · simp only [stored, Option.some.injEq, Prod.mk.injEq] at executed
        obtain ⟨rfl, rfl⟩ := executed
        exact ⟨fun _ => Or.inl needs.1, nested⟩
    case h_2 => cases executed
  | releaseActivator all owner =>
    cases executed
    split
    · exact ⟨trivial, nested⟩
    · exact nested
  | external x => cases executed

/-- A call of the library schedules code that finds below it what it needs. -/
theorem begin_nested {api : Api V ε} {stack new : List (Instr V ε X)}
    (nested : Stacks.Nested h'.needs stack) (begun : h.begin api = some (h', new)) :
    Stacks.Nested h'.needs (new ++ stack) := by
  cases api with
  | newPromise isVoid =>
    cases begun
    exact nested
  | complete s result =>
    obtain ⟨⟨origin, fits⟩, made⟩ := Option.ite_none_right_eq_some.mp begun
    cases result <;> cases made
    · refine ⟨?_, nested⟩
      rintro ⟨a, callable, derived⟩
      cases origin.symm.trans derived
    · exact ⟨trivial, nested⟩
  | destroyPromise s =>
    obtain ⟨origin, made⟩ := Option.ite_none_right_eq_some.mp begun
    cases made
    exact ⟨trivial, nested⟩
  | «then» s isVoid =>
    obtain ⟨valid, made⟩ := Option.ite_none_right_eq_some.mp begun
    cases made
    exact ⟨⟨by simp, by simp⟩, trivial, trivial, nested⟩
  | whenAll inputs =>
    obtain ⟨valid, made⟩ := Option.ite_none_right_eq_some.mp begun
    cases made
    rw [List.append_assoc]
    refine Stacks.Nested.append (fun x inside below all => ?_) ⟨trivial, trivial, nested⟩
    obtain ⟨s, -, rfl⟩ := List.mem_map.mp inside
    intro other same
    cases same
    exact all _ List.mem_cons_self
  | whenAny inputs =>
    obtain ⟨valid, made⟩ := Option.ite_none_right_eq_some.mp begun
    cases made
    refine Stacks.Nested.append (fun x inside below _ => ?_) nested
    obtain ⟨s, -, rfl⟩ := List.mem_map.mp inside
    exact fun all clash => by cases clash

/-! ## The runtime as a system -/

/-- What the program owes to a promise: no call after the start of its destructor, no destructor
during a call, and one destructor. -/
def Disciplined (σ : Config V ε X) : Event V ε X → Prop
  | .call _ (.complete s _) => σ.heap.destroyed s = false
  | .call _ (.destroyPromise s) => σ.heap.destroyed s = false ∧
      ∀ stack ∈ σ.threads, ∀ x ∈ stack, x.completes s = false
  | _ => True

instance (σ : Config V ε X) (event : Event V ε X) : Decidable (Disciplined σ event) := by
  unfold Disciplined
  split <;> infer_instance

/-- The runtime with any number of threads, in a program that keeps its promises in order. -/
def runtime (V ε X : Type) : System (Config V ε X) (Event V ε X) :=
  System.under { initial := fun σ => ∃ count, σ = Config.start count, step := Config.step }
    Disciplined

/-- The invariant of configurations. -/
structure Config.Ok (σ : Config V ε X) : Prop where
  inv : Inv σ.heap σ.pending
  nested : σ.heap.AllNested σ.threads

/-- Nothing completes a state whose promise is gone. -/
theorem Config.Ok.exclusive {σ : Config V ε X} (ok : σ.Ok) : Exclusive σ.heap σ.pending :=
  ok.nested.exclusive ok.inv

/-- Before anything was allocated no state has a promise. -/
theorem Heap.not_promised_empty (s : StateId) : ¬ (Heap.empty : Heap V ε).Promised s := by
  rintro (clash | ⟨_, _, clash⟩) <;> cases clash

/-- The invariant holds before anything was allocated. -/
theorem Inv.empty : Inv (Heap.empty : Heap V ε) (0 : Multiset (Instr V ε X)) where
  layout :=
    { blank := fun s _ => ⟨rfl, rfl, rfl, rfl, rfl, rfl, rfl, rfl, rfl⟩
      allocated := fun s old => absurd old (Nat.not_lt_zero s)
      typed := fun x inside => absurd inside (Multiset.notMem_zero x)
      listed := fun s d inside => absurd inside List.not_mem_nil
      nodup := fun s => List.nodup_nil
      owners := fun all owner inside => absurd inside (Finset.notMem_empty owner) }
  counts :=
    { copies := fun d s callable made => by cases made
      stored := fun d s callable made => by cases made
      inline := fun d s callable made => by cases made
      unlisted := fun d _ => Finset.notMem_empty _
      kept := fun d s callable made => by cases made }
  decisions :=
    { destroying := fun x inside => absurd inside (Multiset.notMem_zero x)
      retired := fun s retired => absurd retired.promised (Heap.not_promised_empty s)
      clearing := fun s inside => absurd inside (Multiset.notMem_zero _)
      broken := fun s broken => by cases broken
      unwalked := fun s _ => rfl
      walked := fun s o decided => by cases decided
      walking := fun s index inside => absurd inside (Multiset.notMem_zero _)
      live := fun s made => by cases made
      receivedLe := fun s promised => absurd promised (Heap.not_promised_empty s)
      receivedGe := fun s promised => absurd promised (Heap.not_promised_empty s)
      receivedPending := fun s promised => absurd promised (Heap.not_promised_empty s)
      receivedOutcome := fun s promised => absurd promised (Heap.not_promised_empty s)
      returned := fun d derived => absurd (Or.inr derived) (Heap.not_promised_empty d)
      combinator := fun s _ o decided => by cases decided }
  activators :=
    { locals := fun all inputs made => by cases made
      alive := fun all d copy inside => absurd inside (Finset.notMem_empty _)
      uncalled := fun all d inside => absurd inside (Finset.notMem_empty _)
      releasedLambda := fun all d inside => absurd inside (Multiset.notMem_zero _)
      releasedListed := fun all d inside => absurd inside (Multiset.notMem_zero _)
      lambda := fun d s all made => by cases made
      listed := fun d s all made => by cases made
      fired := fun all inputs made => by cases made
      ended := fun all inputs made => by cases made }
  registrations :=
    { all := fun all inputs made => by cases made
      any := fun any inputs made => by cases made
      fires := fun d s any made => by cases made
      fired := fun any inputs made => by cases made }

namespace Config

/-- A fresh configuration is in order. -/
theorem Ok.start (count : Nat) : (Config.start count : Config V ε X).Ok where
  inv := by
    rw [Config.pending, Config.start, Stacks.pending_replicate_nil]
    exact Inv.empty
  nested stack inside := by
    rw [List.eq_of_mem_replicate inside]
    trivial

/-- Replacing one stack after a change of what it and the other stacks have pending. -/
theorem Ok.update {σ : Config V ε X} (ok : σ.Ok) {thread : Nat} {stack changed : List (Instr V ε X)}
    {heap : Heap V ε} (found : σ.threads[thread]? = some stack)
    (change : ∀ others : Multiset (Instr V ε X),
      σ.pending = (stack : Multiset (Instr V ε X)) + others →
      Change σ.heap σ.pending heap ((changed : Multiset (Instr V ε X)) + others))
    (nested : (∀ x ∈ stack, ∀ below : Instr V ε X → Prop, (∀ y, below y → y ∈ stack) →
        σ.heap.needs x below → heap.needs x below) → σ.heap.Extends heap →
      Stacks.Nested heap.needs changed) :
    (σ.update thread heap changed).Ok := by
  obtain ⟨others, split, replaced⟩ := Stacks.pending_split found
  have step := change others split
  have kept (other : List (Instr V ε X)) (member : other ∈ σ.threads) :
      ∀ x ∈ other, ∀ below : Instr V ε X → Prop, (∀ y, below y → y ∈ other) →
        σ.heap.needs x below → heap.needs x below := fun x inside below limit needs =>
    step.needs_kept ok.inv ok.exclusive (Stacks.mem_pending.mpr ⟨other, member, inside⟩)
      (fun y held => Stacks.mem_pending.mpr ⟨other, member, limit y held⟩) needs
  constructor
  · have same : (σ.update thread heap changed).pending =
        (changed : Multiset (Instr V ε X)) + others := replaced changed
    rw [same]
    exact step.inv ok.inv ok.exclusive
  · intro other member
    rcases List.mem_or_eq_of_mem_set member with old | rfl
    · exact (ok.nested other old).mono (kept other old)
    · exact nested (kept stack (List.mem_of_getElem? found)) step.extends

/-- Replacing a stack twice replaces it once. -/
theorem update_update (σ : Config V ε X) (thread : Nat) (heap later : Heap V ε)
    (stack changed : List (Instr V ε X)) :
    (σ.update thread heap stack).update thread later changed = σ.update thread later changed := by
  simp [update]

/-- Executing the next instruction of a thread is a change. -/
theorem Ok.run_change {σ : Config V ε X} (ok : σ.Ok) {thread : Nat} {x : Instr V ε X}
    {rest new : List (Instr V ε X)} {heap : Heap V ε}
    (found : σ.threads[thread]? = some (x :: rest))
    (executed : execute σ.heap x = some (heap, new)) (others : Multiset (Instr V ε X))
    (split : σ.pending = ((x :: rest : List (Instr V ε X)) : Multiset (Instr V ε X)) + others) :
    Change σ.heap σ.pending heap (((new ++ rest : List (Instr V ε X)) :
      Multiset (Instr V ε X)) + others) := by
  have member := List.mem_of_getElem? found
  have typed : x.Typed σ.heap :=
    ok.inv.layout.typed x (Stacks.mem_pending.mpr ⟨_, member, List.mem_cons_self⟩)
  rw [split, Stacks.coe_cons_add, ← Multiset.coe_add, add_assoc]
  refine execute_change typed (Heap.needs_grow x _ _ (fun y below => ?_)
    (ok.nested _ member).1) executed
  exact Multiset.mem_add.mpr (Or.inl (Multiset.mem_coe.mpr below))

/-- Executing the next instruction of a thread keeps a configuration in order. -/
theorem Ok.run {σ : Config V ε X} (ok : σ.Ok) {thread : Nat} {x : Instr V ε X}
    {rest new : List (Instr V ε X)} {heap : Heap V ε}
    (found : σ.threads[thread]? = some (x :: rest))
    (executed : execute σ.heap x = some (heap, new)) : (σ.update thread heap (new ++ rest)).Ok := by
  have member := List.mem_of_getElem? found
  have typed : x.Typed σ.heap :=
    ok.inv.layout.typed x (Stacks.mem_pending.mpr ⟨_, member, List.mem_cons_self⟩)
  have nested := ok.nested _ member
  refine ok.update found (ok.run_change found executed) fun kept ext => ?_
  refine execute_nested typed ext ok.inv.layout nested.1 ?_ ?_ executed
  · exact kept x List.mem_cons_self _ (fun y => List.mem_cons_of_mem x) nested.1
  · exact nested.2.mono fun y inside below limit =>
      kept y (List.mem_cons_of_mem x inside) below fun z held =>
        List.mem_cons_of_mem x (limit z held)

/-- The end of a callable keeps a configuration in order. -/
theorem Ok.ret {σ : Config V ε X} (ok : σ.Ok) {thread : Nat} {d : StateId} {x : Instr V ε X}
    {rest : List (Instr V ε X)} {result : Result V ε}
    (found : σ.threads[thread]? = some (.inCallable d :: rest))
    (decision : x.decision = some (d, result)) (resolves : ∀ value, x ≠ .setValue d value)
    (fits : result.fits (σ.heap.isVoid d) = true) :
    (σ.update thread (σ.heap.receive d result) (x :: rest)).Ok := by
  have nested := ok.nested _ (List.mem_of_getElem? found)
  refine ok.update found (fun others split => ?_) fun kept ext => ⟨?_, ?_⟩
  · rw [split, Stacks.coe_cons_add, Stacks.coe_cons_add]
    exact .callableEnd decision resolves fits
  · have held := kept _ List.mem_cons_self _ (fun y => List.mem_cons_of_mem _) nested.1
    cases x <;>
      simp only [Instr.decision, Option.some.injEq, Prod.mk.injEq, reduceCtorEq] at decision
    all_goals obtain ⟨rfl, rfl⟩ := decision
    · exact absurd rfl (resolves _)
    · exact held
    · exact held
  · exact nested.2.mono fun y inside below limit =>
      kept y (List.mem_cons_of_mem _ inside) below fun z held =>
        List.mem_cons_of_mem _ (limit z held)

/-- A call of the library is a change. -/
theorem Ok.call_change {σ : Config V ε X} {thread : Nat} {stack new : List (Instr V ε X)}
    {api : Api V ε} {heap : Heap V ε}
    (disciplined : Disciplined σ (.call thread api : Event V ε X))
    (begun : σ.heap.begin api = some (heap, new)) (others : Multiset (Instr V ε X))
    (split : σ.pending = (stack : Multiset (Instr V ε X)) + others) :
    Change σ.heap σ.pending heap (((new ++ stack : List (Instr V ε X)) :
      Multiset (Instr V ε X)) + others) := by
  rw [← Multiset.coe_add, add_assoc, ← split]
  refine begin_change (fun s result same => ?_) (fun s same => ?_) begun
  · subst same
    exact disciplined
  · subst same
    refine ⟨disciplined.1, fun x inside => ?_⟩
    obtain ⟨other, member, held⟩ := Stacks.mem_pending.mp inside
    exact disciplined.2 other member x held

/-- A call of the library keeps a configuration in order. -/
theorem Ok.call {σ : Config V ε X} (ok : σ.Ok) {thread : Nat} {stack new : List (Instr V ε X)}
    {api : Api V ε} {heap : Heap V ε} (found : σ.threads[thread]? = some stack)
    (disciplined : Disciplined σ (.call thread api : Event V ε X))
    (begun : σ.heap.begin api = some (heap, new)) : (σ.update thread heap (new ++ stack)).Ok :=
  ok.update found (call_change disciplined begun) fun kept _ =>
    begin_nested ((ok.nested _ (List.mem_of_getElem? found)).mono kept) begun

/-- Entering a component above the runtime keeps a configuration in order. -/
theorem Ok.enter {σ : Config V ε X} (ok : σ.Ok) {thread : Nat} {stack : List (Instr V ε X)}
    (found : σ.threads[thread]? = some stack) (code : List X) :
    (σ.update thread σ.heap (code.map .external ++ stack)).Ok := by
  refine ok.update found (fun others split => ?_) fun kept ext => ?_
  · rw [← Multiset.coe_add, add_assoc, ← split]
    exact .enter
  · refine Stacks.Nested.append (fun x inside below _ => ?_)
      ((ok.nested _ (List.mem_of_getElem? found)).mono kept)
    obtain ⟨c, -, rfl⟩ := List.mem_map.mp inside
    trivial

/-- Leaving a component above the runtime keeps a configuration in order. -/
theorem Ok.leave {σ : Config V ε X} (ok : σ.Ok) {thread : Nat} {x : X} {rest : List (Instr V ε X)}
    (found : σ.threads[thread]? = some (.external x :: rest)) :
    (σ.update thread σ.heap rest).Ok := by
  refine ok.update found (fun others split => ?_) fun kept ext => ?_
  · rw [split, Stacks.coe_cons_add]
    exact .leave
  · exact (ok.nested _ (List.mem_of_getElem? found)).2.mono fun y inside below limit =>
      kept y (List.mem_cons_of_mem _ inside) below fun z held =>
        List.mem_cons_of_mem _ (limit z held)

/-- Every disciplined step keeps a configuration in order. -/
theorem Ok.step {σ σ' : Config V ε X} {event : Event V ε X} (ok : σ.Ok)
    (disciplined : Disciplined σ event) (stepped : σ.step event = some σ') : σ'.Ok := by
  cases event with
  | run thread =>
    simp only [Config.step] at stepped
    split at stepped
    case h_1 x rest found =>
      obtain ⟨⟨heap, new⟩, executed, rfl⟩ := Option.map_eq_some_iff.mp stepped
      exact ok.run found executed
    case h_2 => cases stepped
  | ret thread result =>
    simp only [Config.step] at stepped
    split at stepped
    case h_1 d rest found =>
      obtain ⟨fits, same⟩ := Option.ite_none_right_eq_some.mp stepped
      cases result <;> cases same
      · exact ok.ret found rfl (by simp) fits
      · exact ok.ret found rfl (by simp) fits
    case h_2 => cases stepped
  | call thread api =>
    simp only [Config.step] at stepped
    split at stepped
    case h_1 stack found =>
      obtain ⟨-, same⟩ := Option.ite_none_right_eq_some.mp stepped
      obtain ⟨⟨heap, new⟩, begun, rfl⟩ := Option.map_eq_some_iff.mp same
      exact ok.call found disciplined begun
    case h_2 => cases stepped
  | enter thread leave code =>
    simp only [Config.step] at stepped
    split at stepped
    case h_1 x rest found =>
      cases stepped
      have bound := (List.getElem?_eq_some_iff.mp found).1
      have popped : (σ.update thread σ.heap rest).threads[thread]? = some rest := by
        simp [Config.update, bound]
      have left := (ok.leave found).enter popped code
      rwa [update_update] at left
    case h_2 _ _ _ found =>
      obtain ⟨-, same⟩ := Option.ite_none_right_eq_some.mp stepped
      cases same
      exact ok.enter found code
    case h_3 => cases stepped

/-- Entering or leaving a component above the runtime leaves the heap alone. -/
theorem enter_heap {σ σ' : Config V ε X} {thread : Nat} {leave : Bool} {code : List X}
    (stepped : σ.step (.enter thread leave code) = some σ') : σ'.heap = σ.heap := by
  simp only [Config.step] at stepped
  split at stepped
  · cases stepped
    rfl
  · obtain ⟨-, made⟩ := Option.ite_none_right_eq_some.mp stepped
    cases made
    rfl
  · cases stepped

/-- What a disciplined step does to the heap is a change. -/
theorem Ok.heap_change {σ σ' : Config V ε X} {event : Event V ε X} (ok : σ.Ok)
    (disciplined : Disciplined σ event) (stepped : σ.step event = some σ') :
    σ'.heap = σ.heap ∨ ∃ P', Change σ.heap σ.pending σ'.heap P' := by
  cases event with
  | run thread =>
    simp only [Config.step] at stepped
    split at stepped
    case h_1 x rest found =>
      obtain ⟨⟨heap, new⟩, executed, same⟩ := Option.map_eq_some_iff.mp stepped
      obtain ⟨others, split, _⟩ := Stacks.pending_split found
      rw [← same]
      exact Or.inr ⟨_, ok.run_change found executed others split⟩
    case h_2 => cases stepped
  | ret thread result =>
    simp only [Config.step] at stepped
    split at stepped
    case h_1 d rest found =>
      obtain ⟨fits, same⟩ := Option.ite_none_right_eq_some.mp stepped
      obtain ⟨others, split, _⟩ := Stacks.pending_split found
      have pending : σ.pending = .inCallable d ::ₘ ((rest : Multiset (Instr V ε X)) + others) := by
        rw [← Stacks.coe_cons_add]
        exact split
      right
      rw [pending, ← Option.some.inj same]
      cases result with
      | ok value => exact ⟨.resolve d value ::ₘ (_ + others), .callableEnd rfl nofun fits⟩
      | error error => exact ⟨.setException d error ::ₘ (_ + others), .callableEnd rfl nofun fits⟩
    case h_2 => cases stepped
  | call thread api =>
    simp only [Config.step] at stepped
    split at stepped
    case h_1 stack found =>
      obtain ⟨_, same⟩ := Option.ite_none_right_eq_some.mp stepped
      obtain ⟨⟨heap, new⟩, begun, same⟩ := Option.map_eq_some_iff.mp same
      obtain ⟨others, split, _⟩ := Stacks.pending_split found
      rw [← same]
      exact Or.inr ⟨_, Ok.call_change disciplined begun others split⟩
    case h_2 => cases stepped
  | enter thread leave code => exact Or.inl (enter_heap stepped)

/-- Every disciplined step extends the heap and undecides nothing. -/
theorem Ok.step_extends {σ σ' : Config V ε X} {event : Event V ε X} (ok : σ.Ok)
    (disciplined : Disciplined σ event) (stepped : σ.step event = some σ') :
    σ.heap.Extends σ'.heap ∧ ∀ s, σ.heap.Decided s → σ'.heap.Decided s := by
  cases ok.heap_change disciplined stepped with
  | inl same =>
    rw [same]
    exact ⟨⟨le_refl _, fun _ _ => rfl, fun _ _ => rfl⟩, fun _ => id⟩
  | inr changed =>
    obtain ⟨P', change⟩ := changed
    exact ⟨change.extends, fun _ => change.decided_kept ok.inv.layout⟩

/-- Every reachable configuration is in order. -/
theorem ok {σ : Config V ε X} (reached : (runtime V ε X).Reachable σ) : σ.Ok :=
  reached.invariant (fun _ ⟨count, same⟩ => same ▸ Ok.start count)
    fun _ _ _ _ ok stepped =>
      have ⟨disciplined, taken⟩ := System.under_step.mp stepped
      ok.step disciplined taken

/-- The end of a run that can be replayed. -/
def after (count : Nat) (events : List (Event V ε X))
    (replayed : ((runtime V ε X).replay (start count) events).isSome = true) : Config V ε X :=
  ((runtime V ε X).replay (start count) events).get replayed

/-- A run that can be replayed ends in a reachable configuration. -/
theorem reachable_after {count : Nat} {events : List (Event V ε X)}
    (replayed : ((runtime V ε X).replay (start count) events).isSome = true) :
    (runtime V ε X).Reachable (after count events replayed) :=
  have initial : (runtime V ε X).initial (start count) := ⟨count, rfl⟩
  System.Reachable.of_replay initial replayed

end Config

end Azul.Async
