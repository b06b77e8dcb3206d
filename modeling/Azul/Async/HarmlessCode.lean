import Azul.Async.ListedClosures
import Azul.Async.TaskLedger

/-!
# Code that runs no callable of the program

Code that keeps to hidden futures, which have no continuations but those of combinators, and to
stored closures that have released what they captured neither calls nor destroys a callable of the
program, and what follows from it does not either.
-/

namespace Azul.Async

open Foundation

variable {V ε X : Type} {h h' : Heap V ε} {hidden hidden' : StateId → Prop} {x : Instr V ε X}
  {new : List (Instr V ε X)} {d s : StateId}

/-- The closure of a combinator is stored, and its stored copy has released what it captured. -/
def Heap.Spent (h : Heap V ε) (d : StateId) : Prop :=
  h.appended d = true ∧ ∃ s callable, h.origin d = some (.derived s callable) ∧
    callable ≠ .user ∧ ∀ all, callable = .release all → .closure d .listed ∉ h.owners all

/-- The closure belongs to a `WhenAll` with a hidden future. -/
def Heap.Joining (h : Heap V ε) (hidden : StateId → Prop) (d : StateId) : Prop :=
  ∃ s all, h.origin d = some (.derived s (.release all)) ∧ hidden all

/-- What the instruction does concerns hidden futures and spent closures only. -/
def Instr.Harmless (h : Heap V ε) (hidden : StateId → Prop) : Instr V ε X → Prop
  | .setValue s _ | .resolve s _ | .setException s _ | .walk s _ => hidden s
  | .aboutToDestroyPromise s | .clear s =>
    hidden s ∨ h.Decided s ∧ ∀ d ∈ (h.cell s).continuations, h.Spent d
  | .invoke d _ | .registerThen d => h.Joining hidden d
  | .destroyClosure d copy => h.Joining hidden d ∨ copy = .listed ∧ h.Spent d
  | .thenFunc _ callable => ∃ all, callable = .release all ∧ hidden all
  | .releaseActivator all owner => hidden all ∨
    ∃ d, owner = .closure d .listed ∧ h.appended d = true ∧ owner ∉ h.owners all
  | .inCallable _ | .external _ => False

/-- A spent closure stays spent. -/
theorem Heap.Spent.kept (spent : h.Spent d) (later : h.Later h') (settles : h.Settles h') :
    h'.Spent d := by
  obtain ⟨stored, s, callable, made, other, released⟩ := spent
  refine ⟨settles.appended d stored, s, callable, later.origin d _ made, other, ?_⟩
  intro all same again
  exact released all same (settles.owners all d stored again)

theorem Heap.Joining.kept (joining : h.Joining hidden d) (later : h.Later h')
    (grows : ∀ s, hidden s → hidden' s) : h'.Joining hidden' d := by
  obtain ⟨s, all, made, inside⟩ := joining
  exact ⟨s, all, later.origin d _ made, grows all inside⟩

/-- Harmless code stays harmless. -/
theorem Instr.Harmless.kept (harmless : x.Harmless h hidden) (later : h.Later h')
    (settles : h.Settles h') (grows : ∀ s, hidden s → hidden' s) : x.Harmless h' hidden' := by
  have cleared {s : StateId}
      (clears : hidden s ∨ h.Decided s ∧ ∀ d ∈ (h.cell s).continuations, h.Spent d) :
      hidden' s ∨ h'.Decided s ∧ ∀ d ∈ (h'.cell s).continuations, h'.Spent d := by
    apply clears.imp (grows s)
    intro ⟨decided, spent⟩
    refine ⟨later.decided s decided, fun d listed => ?_⟩
    exact (spent d (settles.listed s decided d listed)).kept later settles
  cases x with
  | setValue s | resolve s | setException s | walk s => exact grows s harmless
  | aboutToDestroyPromise | clear => exact cleared harmless
  | invoke | registerThen => exact Heap.Joining.kept harmless later grows
  | destroyClosure d copy =>
    cases harmless with
    | inl joining => exact Or.inl (joining.kept later grows)
    | inr spent => exact Or.inr ⟨spent.1, spent.2.kept later settles⟩
  | thenFunc =>
    obtain ⟨all, same, inside⟩ := harmless
    exact ⟨all, same, grows all inside⟩
  | releaseActivator all owner =>
    cases harmless with
    | inl inside => exact Or.inl (grows all inside)
    | inr released =>
      obtain ⟨d, same, stored, gone⟩ := released
      refine Or.inr ⟨d, same, settles.appended d stored, ?_⟩
      rw [same] at gone ⊢
      exact fun again => gone (settles.owners all d stored again)
  | inCallable | external => exact harmless

/-- Harmless code is followed by harmless code, if hidden futures have no continuations and the
futures that combinators drop are hidden. -/
theorem execute_harmless (executed : execute h x = some (h', new))
    (harmless : x.Harmless h hidden) (later : h.Later h') (settles : h.Settles h')
    (grows : ∀ s, hidden s → hidden' s) (alone : ∀ s, hidden s → (h.cell s).continuations = [])
    (dropped : ∀ d s callable, h'.origin d = some (.derived s callable) → callable ≠ .user →
      hidden' d) : ∀ y ∈ new, y.Harmless h' hidden' := by
  have joined {d : StateId} (joining : h.Joining hidden d) : hidden' d := by
    obtain ⟨s, all, made, _⟩ := joining
    refine dropped d s _ (later.origin d _ made) ?_
    intro same
    cases same
  cases x with
  | setValue s value =>
    simp only [execute] at executed
    split at executed
    all_goals cases executed
    · intro y inside
      cases inside
    · intro y inside
      cases inside
    · intro y inside
      rw [List.mem_singleton.mp inside]
      exact grows s harmless
  | resolve s value =>
    simp only [execute] at executed
    split at executed
    all_goals cases executed
    · intro y inside
      rw [List.mem_singleton.mp inside]
      exact grows s harmless
    · intro y inside
      cases inside
    · intro y inside
      rw [List.mem_singleton.mp inside]
      exact grows s harmless
  | setException s error =>
    cases executed
    intro y inside
    rw [List.mem_singleton.mp inside]
    exact grows s harmless
  | walk s index =>
    have empty := alone s harmless
    simp only [execute, empty, List.getElem?_nil] at executed
    cases executed
    intro y inside
    cases inside
  | aboutToDestroyPromise s =>
    have clears : (Instr.clear s : Instr V ε X).Harmless h hidden := harmless
    have next := clears.kept later settles grows
    cases executed
    intro y inside
    rw [List.mem_singleton.mp inside]
    exact next
  | clear s =>
    have clears : (Instr.clear s : Instr V ε X).Harmless h hidden := harmless
    have next := clears.kept later settles grows
    simp only [execute] at executed
    split at executed
    case h_1 =>
      cases executed
      intro y inside
      cases inside
    case h_2 d rest found =>
      cases executed
      intro y inside
      simp only [List.mem_cons, List.not_mem_nil, or_false] at inside
      cases inside with
      | inr again =>
        rw [again]
        exact next
      | inl destroys =>
        rw [destroys]
        cases harmless with
        | inl inside =>
          rw [alone s inside] at found
          cases found
        | inr spent =>
          have listed : d ∈ (h.cell s).continuations := by
            rw [found]
            exact List.mem_cons_self
          exact Or.inr ⟨rfl, (spent.2 d listed).kept later settles⟩
  | invoke d copy =>
    obtain ⟨s, all, made, inside⟩ := harmless
    have derived : hidden' d := by
      refine dropped d s _ (later.origin d _ made) ?_
      intro same
      cases same
    simp only [execute, made] at executed
    cases executed
    intro y inside'
    simp only [List.mem_cons, List.not_mem_nil, or_false] at inside'
    cases inside' with
    | inl releases =>
      rw [releases]
      exact Or.inl (grows all inside)
    | inr resolves =>
      rw [resolves]
      exact derived
  | destroyClosure d copy =>
    have derived : hidden' d := by
      cases harmless with
      | inl joining => exact joined joining
      | inr spent =>
        obtain ⟨_, s, callable, made, other, _⟩ := spent.2
        exact dropped d s callable (later.origin d _ made) other
    cases executed
    intro y inside
    cases mem_dropped inside with
    | inl last =>
      rw [last.2]
      exact Or.inl derived
    | inr releases =>
      obtain ⟨s, all, origin, same⟩ := releases
      rw [same]
      cases harmless with
      | inl joining =>
        obtain ⟨_, all', made, inside⟩ := joining
        rw [origin] at made
        cases made
        exact Or.inl (grows all inside)
      | inr spent =>
        obtain ⟨listed, stored, _, callable, made, _, released⟩ := spent
        rw [origin] at made
        cases made
        rw [listed]
        exact Or.inr ⟨d, rfl, stored, released all rfl⟩
  | thenFunc s callable =>
    obtain ⟨all, same, inside⟩ := harmless
    have joining : h'.Joining hidden' h.next := by
      refine ⟨s, all, ?_, grows all inside⟩
      cases executed
      rw [← same]
      exact Function.update_self ..
    cases executed
    intro y inside
    simp only [Instr.thenCode, List.mem_cons, List.not_mem_nil, or_false] at inside
    rcases inside with registers | argument | lambda
    · rw [registers]
      exact joining
    · rw [argument]
      exact Or.inl joining
    · rw [lambda]
      exact Or.inl joining
  | registerThen d =>
    have joining := Heap.Joining.kept harmless later grows
    obtain ⟨s, all, made, inside⟩ := harmless
    simp only [execute, made] at executed
    split at executed
    all_goals cases executed
    · intro y inside
      rw [List.mem_singleton.mp inside]
      exact joining
    · intro y inside
      cases inside
  | releaseActivator all owner =>
    cases executed
    intro y inside
    split at inside
    case isFalse => cases inside
    case isTrue last =>
      cases harmless with
      | inl hides =>
        rw [List.mem_singleton.mp inside]
        exact grows all hides
      | inr released =>
        obtain ⟨_, _, _, gone⟩ := released
        exact absurd last.1 gone
  | inCallable | external => exact harmless.elim

/-- `WhenAll` registers closures that concern its own future. -/
theorem begin_harmless {inputs : List StateId}
    (begun : h.begin (.whenAll inputs) = some (h', new)) (fresh : hidden' h.next) :
    ∀ y ∈ new, y.Harmless h' hidden' := by
  obtain ⟨_, made⟩ := Option.ite_none_right_eq_some.mp begun
  cases made
  intro y inside
  simp only [List.mem_append, List.mem_map, List.mem_cons, List.not_mem_nil, or_false] at inside
  rcases inside with registers | func | activator
  · obtain ⟨s, _, same⟩ := registers
    rw [← same]
    exact ⟨h.next, rfl, fresh⟩
  · rw [func]
    exact Or.inl fresh
  · rw [activator]
    exact Or.inl fresh

/-! ## Spent closures -/

variable {σ : Config V ε X} {callable : Callable}

/-- Nobody is at the stored closures of a state whose completing calls are over and whose promise
is there. -/
theorem unhandled (reached : (runtime V ε X).Reachable σ) (kept : ¬ σ.heap.Retired s)
    (ended : ∀ x ∈ σ.pending, x.completes s = false)
    (made : σ.heap.origin d = some (.derived s callable)) : ∀ x ∈ σ.pending, ¬ x.handles d := by
  intro x inside handles
  obtain ⟨stack, member, held⟩ := Stacks.mem_pending.mp inside
  obtain ⟨t, _, other, y, visits, there⟩ :=
    (handleNested reached stack member).needs Heap.handleNeeds_grow held d handles
  rw [made] at other
  cases other
  have pending := Stacks.mem_pending.mpr ⟨stack, member, there⟩
  have quiet := ended y pending
  have stays : y.destroys s = false := by
    cases destroys : y.destroys s with
    | false => rfl
    | true => exact absurd ((Config.ok reached).inv.decisions.destroying y pending s destroys) kept
  cases y with
  | walk t index =>
    have same : t = s := visits
    rw [same] at quiet
    exact absurd (beq_self_eq_true s) (Bool.eq_false_iff.mp quiet)
  | aboutToDestroyPromise t | clear t =>
    have same : t = s := visits
    rw [same] at stays
    exact absurd (beq_self_eq_true s) (Bool.eq_false_iff.mp stays)
  | _ => exact visits

/-- The closures that combinators have stored in a state are spent when a completing call has walked
past them and nobody is at them. -/
theorem spent_of_walked (reached : (runtime V ε X).Reachable σ) (kept : ¬ σ.heap.Retired s)
    (ended : ∀ x ∈ σ.pending, x.completes s = false) (walked : 0 < σ.heap.walks s)
    (listed : d ∈ (σ.heap.cell s).continuations)
    (combined : ∀ t, σ.heap.origin d ≠ some (.derived t .user)) : σ.heap.Spent d := by
  have inv := (Config.ok reached).inv
  obtain ⟨stored, callable, made⟩ := inv.layout.listed s d listed
  have alone := unhandled reached kept ended made
  have uncalled : Stacks.count σ.pending (Instr.isInvoke d .listed) = 0 := by
    apply Stacks.count_eq_zero.mpr
    intro x inside
    cases is : x.isInvoke d .listed with
    | false => rfl
    | true =>
      cases x with
      | invoke e copy =>
        obtain ⟨one, two⟩ := Bool.and_eq_true_iff.mp is
        exact absurd ⟨eq_of_beq one, eq_of_beq two⟩ (alone _ inside)
      | _ => cases is
  have unwalked (index : Nat) : Stacks.count σ.pending (Instr.walksTo s index) = 0 := by
    apply Stacks.count_eq_zero.mpr
    intro x inside
    have quiet := ended x inside
    cases x with
    | walk t i =>
      have apart : (t == s) = false := quiet
      change (t == s && decide (i ≤ index)) = false
      rw [apart, Bool.false_and]
    | _ => rfl
  refine ⟨stored, s, callable, made, ?_, ?_⟩
  · intro user
    rw [user] at made
    exact combined s made
  · intro all same owned
    have invoked := (inv.counts.stored d s callable made stored).1
    cases (inv.activators.uncalled all d owned).2 with
    | inl never =>
      rw [never, uncalled, unwalked] at invoked
      omega
    | inr releases => exact alone _ releases rfl

end Azul.Async
