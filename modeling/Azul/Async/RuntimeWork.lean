import Azul.Async.RuntimeSteps
import Azul.Foundation.Accounting
import Mathlib.Tactic.Ring

/-!
# Calls of the library return

A completing call walks the continuations of a state, which complete the states that `Then` derived
from it, and these calls walk further: how far is bounded, as a state is derived from earlier ones
only. `work size s` bounds what completing or breaking a state sets off in a heap with room for a
number of states, and every pending instruction has a weight that covers what it may still set off.
Executing an instruction of the library pays one unit out of these weights, a call of the library is
charged its cost, and nothing else adds to them: a list of continuations grows only while its state
is undecided, and then nobody walks or clears it.
-/

namespace Azul.Async

open Foundation

variable {V ε X : Type} {h h' : Heap V ε} {P P' : Multiset (Instr V ε X)} {x : Instr V ε X}
  {new : List (Instr V ε X)} {size : Nat}

/-! ## Weights -/

/-- A bound on what completing or breaking a state sets off, in a heap with room for a number of
states. -/
def work (size : Nat) (s : StateId) : Nat := (8 * (size + 1)) ^ (size - s)

/-- The state that the closure of a derived state is attached to. -/
def Heap.antecedent (h : Heap V ε) (d : StateId) : StateId :=
  match h.origin d with
  | some (.derived s _) => s
  | _ => d

/-- A bound on the steps that an instruction sets off. -/
def Instr.weight (size : Nat) (h : Heap V ε) : Instr V ε X → Nat
  | .setValue s _ | .setException s _ | .aboutToDestroyPromise s => work size s
  | .resolve d _ => work size d + 1
  | .inCallable d => work size d + 2
  | .walk s index =>
    1 + ((h.cell s).continuations.length - index) * (1 + 5 * work size (s + 1))
  | .clear s => 1 + (h.cell s).continuations.length * (1 + 4 * work size (s + 1))
  | .invoke d _ => 5 * work size (h.antecedent d + 1)
  | .destroyClosure d _ => 4 * work size (h.antecedent d + 1)
  | .registerThen d => 6 * work size (h.antecedent d + 1)
  | .thenFunc s _ => 15 * work size (s + 1)
  | .releaseActivator all _ => work size all + 1
  | .external _ => 0

/-- A bound on the steps that a call of the library sets off. -/
def Api.cost (size : Nat) : Api V ε → Nat
  | .newPromise _ => 0
  | .complete _ _ | .destroyPromise _ => work size 0
  | .then _ _ => 14 * work size 0
  | .whenAll inputs => inputs.length * (15 * work size 0) + 2 * (work size 0 + 1)
  | .whenAny inputs => inputs.length * (15 * work size 0)

theorem work_pos (size : Nat) (s : StateId) : 0 < work size s :=
  Nat.pow_pos (Nat.mul_pos (Nat.zero_lt_succ 7) size.succ_pos)

/-- Later states set off less. -/
theorem work_le {s t : StateId} (later : s ≤ t) : work size t ≤ work size s :=
  Nat.pow_le_pow_right (Nat.mul_pos (Nat.zero_lt_succ 7) size.succ_pos)
    (Nat.sub_le_sub_left later size)

/-- A state sets off much more than the ones after it. -/
theorem work_succ {s : StateId} (room : s < size) :
    work size s = 8 * (size + 1) * work size (s + 1) := by
  have one : size - s = size - (s + 1) + 1 := (Nat.sub_add_cancel (Nat.sub_pos_of_lt room)).symm
  rw [work, one, Nat.pow_succ, Nat.mul_comm]
  rfl

/-- As many visits as there are states fit into the work of a state. -/
theorem visits_lt {s : StateId} {visits each : Nat} (room : s < size) (few : visits ≤ size)
    (cheap : each ≤ 5) :
    1 + visits * (1 + each * work size (s + 1)) + 1 ≤ work size s := by
  have positive := work_pos size (s + 1)
  have visit : 1 + each * work size (s + 1) ≤ 6 * work size (s + 1) := by
    have bound := Nat.mul_le_mul_right (work size (s + 1)) cheap
    omega
  calc 1 + visits * (1 + each * work size (s + 1)) + 1
      ≤ 1 + size * (6 * work size (s + 1)) + 1 := by
        have bound := Nat.mul_le_mul few visit
        omega
    _ ≤ 8 * (size + 1) * work size (s + 1) := by
        have split : 8 * (size + 1) * work size (s + 1) =
            size * (6 * work size (s + 1)) + 2 * (size * work size (s + 1)) +
              8 * work size (s + 1) := by ring
        omega
    _ = work size s := (work_succ room).symm

theorem Heap.antecedent_eq {d s : StateId} {callable : Callable}
    (made : h.origin d = some (.derived s callable)) : h.antecedent d = s := by
  rw [Heap.antecedent, made]

/-- The closure of a derived state stays where it is attached. -/
theorem Heap.antecedent_kept (layout : Layout h P) (ext : h.Extends h') {d : StateId}
    (derived : h.Derived d) : h'.antecedent d = h.antecedent d := by
  obtain ⟨s, callable, made⟩ := derived
  rw [Heap.antecedent_eq made, Heap.antecedent_eq (layout.origin_kept ext made)]

/-- A state has no more continuations than there are states. -/
theorem Layout.length_le (layout : Layout h P) (s : StateId) :
    (h.cell s).continuations.length ≤ h.next := by
  have inside : (h.cell s).continuations ⊆ List.range h.next := fun d listed =>
    have ⟨callable, made⟩ := (layout.listed s d listed).2
    List.mem_range.mpr (layout.lt_next made)
  simpa using ((layout.nodup s).subperm inside).length_le

/-- What a completing call walks fits into the work of the state. -/
theorem Layout.walk_lt (layout : Layout h P) (room : h.next ≤ size) {s : StateId}
    (old : s < h.next) {cells : StateId → FutureState (Value V) ε StateId}
    (same : (cells s).continuations = (h.cell s).continuations) :
    (Instr.walk s 0 : Instr V ε X).weight size { h with cell := cells } + 1 ≤ work size s := by
  change 1 + ((cells s).continuations.length - 0) * (1 + 5 * work size (s + 1)) + 1 ≤ work size s
  rw [same]
  exact visits_lt (Nat.lt_of_lt_of_le old room) ((layout.length_le s).trans room) (le_refl 5)

/-- What the activator of a combinator sets off is covered at the inputs. -/
theorem Layout.combinator_le (layout : Layout h P) {d s t : StateId} {callable : Callable}
    (made : h.origin d = some (.derived s callable))
    (captures : callable = .release t ∨ callable = .fire t) :
    work size t ≤ work size (s + 1) := by
  obtain ⟨_, captured, _⟩ := layout.originOk made
  apply work_le
  cases captures with
  | inl same =>
    rw [same] at captured
    obtain ⟨inputs, origin, inside⟩ := captured
    exact (layout.originOk origin).2 s inside
  | inr same =>
    rw [same] at captured
    obtain ⟨inputs, origin, inside⟩ := captured
    exact (layout.originOk origin).2 s inside

/-! ## Steps -/

/-- A decided state gets no more continuations. -/
theorem Change.length_le (change : Change h P h' P') {s : StateId} (decided : h.Decided s) :
    (h'.cell s).continuations.length ≤ (h.cell s).continuations.length := by
  cases change
  case decide t result decision undecided =>
    exact Nat.le_of_eq (congrArg List.length
      (FutureState.continuations_update_same (FutureState.continuations_complete _ _)))
  case breakPromise t =>
    exact Nat.le_of_eq (congrArg List.length
      (FutureState.continuations_update_same (FutureState.continuations_breakPromise _)))
  case clearNext t d rest found =>
    change (Function.update h.cell t _ s).continuations.length ≤ _
    rw [FutureState.continuations_update]
    split
    case isTrue same =>
      rw [same, found]
      exact Nat.le_succ _
    case isFalse => exact le_refl _
  case storeClosure d t callable origin undecided lambda argument =>
    change (Function.update h.cell t _ s).continuations.length ≤ _
    rw [FutureState.continuations_update]
    split
    case isTrue same => exact absurd (same ▸ decided) undecided
    case isFalse => exact le_refl _
  all_goals exact le_refl _

/-- No step makes another instruction heavier. -/
theorem Change.weight_le (inv : Inv h P) (change : Change h P h' P') (inside : x ∈ P) :
    x.weight size h' ≤ x.weight size h := by
  have typed := inv.layout.typed x inside
  have ext := change.extends
  cases x with
  | walk s index =>
    have decided : h.Decided s := by
      by_contra undecided
      have walked := inv.decisions.walking s index inside
      rw [inv.decisions.unwalked s undecided] at walked
      exact absurd walked (Nat.lt_irrefl 0)
    have shorter := Nat.sub_le_sub_right (change.length_le decided) index
    exact Nat.add_le_add_left (Nat.mul_le_mul_right _ shorter) 1
  | clear s =>
    have shorter := change.length_le (inv.decisions.clearing s inside)
    exact Nat.add_le_add_left (Nat.mul_le_mul_right _ shorter) 1
  | invoke d copy =>
    exact Nat.le_of_eq (by
      rw [Instr.weight, Instr.weight, Heap.antecedent_kept inv.layout ext typed.2])
  | destroyClosure d copy | registerThen d =>
    exact Nat.le_of_eq (by
      rw [Instr.weight, Instr.weight, Heap.antecedent_kept inv.layout ext typed])
  | _ => exact le_refl _

/-- The weight of code. -/
def weighCode (size : Nat) (h : Heap V ε) (code : List (Instr V ε X)) : Nat :=
  (code.map (Instr.weight size h)).sum

/-- What `Then` still has to do after its allocations. -/
theorem weigh_thenCode {s d : StateId} (attached : h.antecedent d = s) :
    weighCode size h (Instr.thenCode d : List (Instr V ε X)) = 14 * work size (s + 1) := by
  simp only [weighCode, Instr.thenCode, List.map_cons, List.map_nil, List.sum_cons, List.sum_nil,
    Instr.weight, attached]
  omega

/-- Executing an instruction pays one unit. -/
theorem execute_pays (layout : Layout h P) (typed : x.Typed h) (room : h.next ≤ size)
    (executed : execute h x = some (h', new)) :
    1 + weighCode size h' new ≤ x.weight size h := by
  have completes {s : StateId} {cells : StateId → FutureState (Value V) ε StateId}
      (old : s < h.next) (same : (cells s).continuations = (h.cell s).continuations) :
      1 + weighCode size { h with cell := cells } [(Instr.walk s 0 : Instr V ε X)] ≤
        work size s := by
    have walked := layout.walk_lt (X := X) room old same
    simp only [weighCode, List.map_cons, List.map_nil, List.sum_cons, List.sum_nil]
    omega
  have some (s : StateId) := work_pos size s
  cases x with
  | setValue s value =>
    have old := typed.2.1
    rcases Heap.setValue_cases typed.1 with ⟨undecided, set⟩ | ⟨decided, set⟩ | ⟨decided, set⟩
    all_goals
      simp only [execute, set, Option.some.injEq, Prod.mk.injEq] at executed
      obtain ⟨rfl, rfl⟩ := executed
    · apply completes old
      rw [Function.update_self]
      exact FutureState.continuations_complete _ _
    · exact some s
    · exact some s
  | resolve s value =>
    have old := layout.derived_lt typed.2
    rcases Heap.setValue_cases typed.1 with ⟨undecided, set⟩ | ⟨decided, set⟩ | ⟨decided, set⟩
    all_goals
      simp only [execute, set, Option.some.injEq, Prod.mk.injEq] at executed
      obtain ⟨rfl, rfl⟩ := executed
    · apply (completes old _).trans (Nat.le_succ _)
      rw [Function.update_self]
      exact FutureState.continuations_complete _ _
    · exact Nat.succ_pos _
    · exact Nat.le_of_eq (Nat.add_comm _ _)
  | setException s error =>
    cases executed
    apply completes (layout.promised_lt typed)
    rw [Function.update_self]
    rfl
  | walk s index =>
    simp only [execute] at executed
    split at executed
    · cases executed
      exact Nat.le_add_right 1 _
    case h_2 d found =>
      cases executed
      obtain ⟨callable, made⟩ := (layout.listed s d (List.mem_of_getElem? found)).2
      obtain ⟨more, _⟩ := List.getElem?_eq_some_iff.mp found
      have left : (h.cell s).continuations.length - index =
          (h.cell s).continuations.length - (index + 1) + 1 := by omega
      simp only [weighCode, List.map_cons, List.map_nil, List.sum_cons, List.sum_nil,
        Instr.weight, Heap.antecedent_eq made]
      rw [left, Nat.add_mul _ 1 (1 + 5 * work size (s + 1))]
      omega
  | aboutToDestroyPromise s =>
    cases executed
    have old := layout.promised_lt typed
    have cleared : 1 + (h.cell s).continuations.length * (1 + 4 * work size (s + 1)) + 1 ≤
        work size s :=
      visits_lt (Nat.lt_of_lt_of_le old room) ((layout.length_le s).trans room) (by omega)
    simp only [weighCode, List.map_cons, List.map_nil, List.sum_cons, List.sum_nil,
      Instr.weight, Function.update_self, FutureState.continuations_breakPromise]
    omega
  | clear s =>
    simp only [execute] at executed
    split at executed
    · cases executed
      exact Nat.le_add_right 1 _
    case h_2 d rest found =>
      cases executed
      have listed : d ∈ (h.cell s).continuations := found ▸ List.mem_cons_self
      obtain ⟨callable, made⟩ := (layout.listed s d listed).2
      simp only [weighCode, List.map_cons, List.map_nil, List.sum_cons, List.sum_nil,
        Instr.weight, Function.update_self, found, List.length_cons,
        Heap.antecedent, made]
      rw [Nat.add_mul rest.length 1]
      omega
  | invoke d copy =>
    obtain ⟨s, callable, made⟩ := typed.2
    have derived : work size d ≤ work size (s + 1) := work_le (layout.originOk made).1
    have positive := some (s + 1)
    simp only [execute, made] at executed
    cases callable with
    | user =>
      cases executed
      simp only [weighCode, List.map_cons, List.map_nil, List.sum_cons, List.sum_nil,
        Instr.weight, Heap.antecedent_eq made]
      omega
    | release all =>
      cases executed
      have fires : work size all ≤ work size (s + 1) :=
        layout.combinator_le made (Or.inl rfl)
      simp only [weighCode, List.map_cons, List.map_nil, List.sum_cons, List.sum_nil,
        Instr.weight, Heap.antecedent_eq made]
      omega
    | fire any =>
      cases executed
      have fires : work size any ≤ work size (s + 1) :=
        layout.combinator_le made (Or.inr rfl)
      simp only [weighCode, List.map_cons, List.map_nil, List.sum_cons, List.sum_nil,
        Instr.weight, Heap.antecedent_eq made]
      omega
  | destroyClosure d copy =>
    cases executed
    obtain ⟨s, callable, made⟩ := typed
    have derived : work size d ≤ work size (s + 1) := work_le (layout.originOk made).1
    have positive := some (s + 1)
    have breaks : weighCode size (h.dropCopy d copy)
        (if h.lastCopy d copy then [(.aboutToDestroyPromise d : Instr V ε X)] else []) ≤
        work size (s + 1) := by
      split
      · simpa [weighCode, Instr.weight] using derived
      · exact Nat.zero_le _
    have releases : weighCode size (h.dropCopy d copy)
        (h.releaseCallable d copy : List (Instr V ε X)) ≤ work size (s + 1) + 1 := by
      unfold Heap.releaseCallable
      rw [made]
      cases callable with
      | user | fire => exact Nat.zero_le _
      | release all =>
        have fires : work size all ≤ work size (s + 1) :=
          layout.combinator_le made (Or.inl rfl)
        simpa [weighCode, Instr.weight] using fires
    have both : weighCode size (h.dropCopy d copy)
        ((if h.lastCopy d copy then [(.aboutToDestroyPromise d : Instr V ε X)] else []) ++
          h.releaseCallable d copy) ≤ work size (s + 1) + (work size (s + 1) + 1) := by
      unfold weighCode at breaks releases ⊢
      rw [List.map_append, List.sum_append]
      exact Nat.add_le_add breaks releases
    have weight : (Instr.destroyClosure d copy : Instr V ε X).weight size h =
        4 * work size (s + 1) := by
      rw [Instr.weight, Heap.antecedent_eq made]
    omega
  | thenFunc s callable =>
    cases executed
    have attached : (h.allocateThen s callable true).antecedent h.next = s := by
      apply Heap.antecedent_eq
      exact Function.update_self _ _ _
    rw [weigh_thenCode attached]
    have positive := some (s + 1)
    change 1 + 14 * work size (s + 1) ≤ 15 * work size (s + 1)
    omega
  | registerThen d =>
    obtain ⟨s, callable, made⟩ := typed
    have positive := some (s + 1)
    simp only [execute, made] at executed
    rcases h.then_cases s d with ⟨undecided, stored⟩ | ⟨decided, stored⟩
    all_goals
      simp only [stored, Option.some.injEq, Prod.mk.injEq] at executed
      obtain ⟨rfl, rfl⟩ := executed
      simp only [weighCode, List.map_cons, List.map_nil, List.sum_cons, List.sum_nil,
        Instr.weight, Heap.antecedent_eq made]
      omega
  | releaseActivator all owner =>
    cases executed
    split
    · simp only [weighCode, List.map_cons, List.map_nil, List.sum_cons, List.sum_nil,
        Instr.weight]
      omega
    · exact Nat.succ_pos _
  | inCallable | external => cases executed

/-- A call of the library is charged its cost. -/
theorem begin_charged {api : Api V ε} (begun : h.begin api = some (h', new)) :
    weighCode size h' new ≤ api.cost size := by
  have first (s : StateId) : work size s ≤ work size 0 := work_le (Nat.zero_le s)
  have registers (inputs : List StateId) (callable : Callable) :
      weighCode size h' (inputs.map fun s => (.thenFunc s callable : Instr V ε X)) ≤
        inputs.length * (15 * work size 0) := by
    induction inputs with
    | nil => exact Nat.zero_le _
    | cons s inputs ih =>
      have bound := Nat.mul_le_mul_left 15 (first (s + 1))
      unfold weighCode at ih ⊢
      rw [List.map_cons, List.map_cons, List.sum_cons, List.length_cons,
        Nat.add_mul inputs.length 1]
      simp only [Instr.weight] at ih ⊢
      omega
  cases api with
  | newPromise isVoid =>
    cases begun
    exact le_refl 0
  | complete s result =>
    obtain ⟨-, made⟩ := Option.ite_none_right_eq_some.mp begun
    cases result <;> cases made <;> exact first s
  | destroyPromise s =>
    obtain ⟨-, made⟩ := Option.ite_none_right_eq_some.mp begun
    cases made
    exact first s
  | «then» s isVoid =>
    obtain ⟨-, made⟩ := Option.ite_none_right_eq_some.mp begun
    cases made
    have attached : (h.allocateThen s .user isVoid).antecedent h.next = s := by
      apply Heap.antecedent_eq
      exact Function.update_self _ _ _
    rw [weigh_thenCode attached]
    exact Nat.mul_le_mul_left 14 (first (s + 1))
  | whenAll inputs =>
    obtain ⟨-, made⟩ := Option.ite_none_right_eq_some.mp begun
    cases made
    have registered := registers inputs (.release h.next)
    have released := first h.next
    unfold weighCode at registered ⊢
    rw [List.map_append, List.sum_append]
    simp only [List.map_cons, List.map_nil, List.sum_cons, List.sum_nil, Instr.weight, Api.cost]
      at registered ⊢
    omega
  | whenAny inputs =>
    obtain ⟨-, made⟩ := Option.ite_none_right_eq_some.mp begun
    cases made
    exact registers inputs (.fire h.next)

end Azul.Async
