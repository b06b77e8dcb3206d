import Azul.Foundation.Stacks
import Azul.Foundation.System
import Mathlib.Tactic.Abel

/-!
# Disposers

A `Disposer` owns a cleanup and calls it at its end. The objects of a program are modelled with
their addresses, so that an object may be moved onto itself. Whatever is handed to a disposer is
called once, is still held, or was overwritten: neither `Set` nor the move assignment calls the
cleanup that its target holds.
-/

namespace Azul.Utils

open Foundation

variable {κ : Type}

/-- The disposers of a program; the last two fields are history that no operation reads. -/
structure Disposers (κ : Type) where
  /-- `_func` of every object, in the order of construction: `none` after the destructor, and
  `some none` while the function is empty. -/
  objects : List (Option (Option κ))
  /-- The cleanups that were handed to a constructor or to `Set`. -/
  handed : List κ
  /-- The cleanups that were called. -/
  called : List κ
  deriving DecidableEq

/-- An operation on disposers, which are named by their place in the order of construction. -/
inductive Operation (κ : Type)
  /-- `Disposer(func)`. -/
  | construct (func : Option κ)
  /-- `Disposer()`. -/
  | constructDefault
  /-- `Disposer(std::move(other))`. -/
  | moveConstruct (other : Nat)
  /-- `object = std::move(other)`. -/
  | moveAssign (object other : Nat)
  /-- `object.Set(func)`. -/
  | set (object : Nat) (func : Option κ)
  /-- `~Disposer()`. -/
  | destroy (object : Nat)
  deriving DecidableEq

namespace Disposers

/-- No disposers. -/
def start : Disposers κ where
  objects := []
  handed := []
  called := []

variable (σ : Disposers κ)

/-- `_func` of an object that is alive. -/
def func (object : Nat) : Option (Option κ) := σ.objects[object]?.join

/-- `_func = func`. -/
def assign (object : Nat) (func : Option κ) : Disposers κ :=
  { σ with objects := σ.objects.set object (some func) }

/-- A new object. -/
def add (func : Option κ) : Disposers κ := { σ with objects := σ.objects ++ [some func] }

/-- A function is handed over. -/
def receive (func : Option κ) : Disposers κ := { σ with handed := σ.handed ++ func.toList }

/-- Perform an operation; only objects that are alive have operations. -/
def step : Operation κ → Option (Disposers κ)
  | .construct func => some ((σ.add func).receive func)
  | .constructDefault => some (σ.add none)
  | .moveConstruct other =>
    (σ.func other).map fun func => (σ.add func).assign other none
  | .moveAssign object other =>
    (σ.func object).bind fun _ =>
      (σ.func other).map fun func => (σ.assign object func).assign other none
  | .set object func => (σ.func object).map fun _ => (σ.assign object func).receive func
  | .destroy object =>
    (σ.func object).map fun func =>
      { σ with objects := σ.objects.set object none, called := σ.called ++ func.toList }

/-- All objects are destroyed. -/
def Ended : Prop := ∀ object ∈ σ.objects, object = none

instance : Decidable σ.Ended := inferInstanceAs (Decidable (∀ object ∈ σ.objects, object = none))

/-- The cleanup that an operation overwrites. -/
def overwritten : Operation κ → Option κ
  | .moveAssign object _ | .set object _ => (σ.func object).join
  | _ => none

/-- What an object holds. -/
def contents (object : Option (Option κ)) : List κ := object.join.toList

/-- The cleanups that are held by some object. -/
def held : Multiset κ := Stacks.pending (σ.objects.map contents)

end Disposers

/-- Programs that use disposers. -/
def disposers (κ : Type) : System (Disposers κ) (Operation κ) where
  initial σ := σ = .start
  step := Disposers.step

namespace Disposers

/-- No operation of a program overwrites a cleanup. -/
def Spares (σ : Disposers κ) (operations : List (Operation κ)) : Prop :=
  ∀ before operation after, operations = before ++ operation :: after →
    ∀ σ', (disposers κ).replay σ before = some σ' → σ'.overwritten operation = none

variable {σ σ' : Disposers κ} {object : Nat} {func old : Option κ}

/-! ## What is held -/

theorem func_eq : σ.func object = some old ↔ σ.objects[object]? = some (some old) := by
  unfold func
  exact Option.join_eq_some_iff

theorem held_add : (σ.add func).held = σ.held + (func.toList : Multiset κ) := by
  unfold held add Stacks.pending
  rw [List.map_append, List.flatten_append, ← Multiset.coe_add, List.map_singleton,
    List.flatten_singleton]
  rfl

/-- What an object holds is replaced by what is put in its place. -/
theorem held_set (alive : σ.func object = some old) (changed : Option (Option κ)) :
    Stacks.pending ((σ.objects.set object changed).map contents) + (old.toList : Multiset κ) =
      σ.held + (contents changed : Multiset κ) := by
  have found : (σ.objects.map contents)[object]? = some old.toList := by
    rw [List.getElem?_map, func_eq.mp alive]
    rfl
  obtain ⟨rest, before, after⟩ := Stacks.pending_split found
  have held : σ.held = (old.toList : Multiset κ) + rest := before
  rw [List.map_set, after (contents changed), held]
  abel

theorem held_assign (alive : σ.func object = some old) (func : Option κ) :
    (σ.assign object func).held + (old.toList : Multiset κ) =
      σ.held + (func.toList : Multiset κ) := held_set alive (some func)

/-- Nothing is held when all objects are destroyed. -/
theorem Ended.held (ended : σ.Ended) : σ.held = 0 := by
  apply Multiset.eq_zero_of_forall_notMem
  intro f inside
  obtain ⟨stack, member, inside⟩ := Stacks.mem_pending.mp inside
  obtain ⟨object, listed, same⟩ := List.mem_map.mp member
  rw [← same, ended object listed] at inside
  cases inside

/-- The function of an object that was just assigned. -/
theorem func_assign_self (alive : σ.func object = some old) :
    (σ.assign object func).func object = some func := by
  have bound := (List.getElem?_eq_some_iff.mp (func_eq.mp alive)).1
  rw [func_eq]
  exact List.getElem?_set_self bound

/-- Other objects keep their functions. -/
theorem func_assign_ne {other : Nat} (apart : object ≠ other) :
    (σ.assign object func).func other = σ.func other := by
  unfold Disposers.func assign
  rw [List.getElem?_set_ne apart]

/-! ## The balance -/

/-- Every operation keeps count of the cleanups: what it was handed is held or called, and what it
overwrites is neither. -/
theorem step_balance {operation : Operation κ} (stepped : σ.step operation = some σ') :
    (σ'.handed : Multiset κ) + σ.called + σ.held =
      σ.handed + σ'.called + σ'.held + ((σ.overwritten operation).toList : Multiset κ) := by
  cases operation with
  | construct func =>
    cases stepped
    have held : ((σ.add func).receive func).held = σ.held + (func.toList : Multiset κ) := held_add
    rw [held]
    change ((σ.handed ++ func.toList : List κ) : Multiset κ) + σ.called + σ.held =
      σ.handed + σ.called + (σ.held + func.toList) + 0
    rw [← Multiset.coe_add]
    abel
  | constructDefault =>
    cases stepped
    have held : (σ.add none).held = σ.held + 0 := held_add
    rw [held]
    change (σ.handed : Multiset κ) + σ.called + σ.held = σ.handed + σ.called + (σ.held + 0) + 0
    abel
  | moveConstruct other =>
    obtain ⟨func, alive, made⟩ := Option.map_eq_some_iff.mp stepped
    cases made
    have there : (σ.add func).func other = some func := by
      have bound := (List.getElem?_eq_some_iff.mp (func_eq.mp alive)).1
      rw [func_eq]
      exact (List.getElem?_append_left bound).trans (func_eq.mp alive)
    have moved := held_assign there none
    rw [held_add] at moved
    have held : ((σ.add func).assign other none).held = σ.held := by
      apply add_right_cancel (b := (func.toList : Multiset κ))
      rw [moved]
      exact add_zero _
    rw [held]
    change (σ.handed : Multiset κ) + σ.called + σ.held = σ.handed + σ.called + σ.held + 0
    abel
  | moveAssign object other =>
    obtain ⟨old, alive, rest⟩ := Option.bind_eq_some_iff.mp stepped
    obtain ⟨func, source, made⟩ := Option.map_eq_some_iff.mp rest
    cases made
    -- the source still has its function, also if it is the target
    have there : (σ.assign object func).func other = some func := by
      by_cases same : object = other
      · rw [← same]
        exact func_assign_self alive
      · rw [func_assign_ne same]
        exact source
    have overwritten : σ.overwritten (.moveAssign object other) = old := by
      change (σ.func object).join = old
      rw [alive]
      rfl
    have assigned := held_assign alive func
    have emptied := held_assign there none
    have held : σ.held = ((σ.assign object func).assign other none).held + old.toList := by
      apply add_right_cancel (b := (func.toList : Multiset κ))
      rw [← assigned, ← add_zero (σ.assign object func).held]
      change _ + ((none : Option κ).toList : Multiset κ) + _ = _
      rw [← emptied]
      abel
    rw [held, overwritten]
    change (σ.handed : Multiset κ) + σ.called + _ = σ.handed + σ.called + _ + _
    abel
  | set object func =>
    obtain ⟨old, alive, made⟩ := Option.map_eq_some_iff.mp stepped
    cases made
    have overwritten : σ.overwritten (.set object func) = old := by
      change (σ.func object).join = old
      rw [alive]
      rfl
    have assigned : ((σ.assign object func).receive func).held + (old.toList : Multiset κ) =
        σ.held + (func.toList : Multiset κ) := held_assign alive func
    rw [overwritten, add_assoc _ _ (old.toList : Multiset κ), assigned]
    change ((σ.handed ++ func.toList : List κ) : Multiset κ) + σ.called + σ.held =
      σ.handed + σ.called + (σ.held + func.toList)
    rw [← Multiset.coe_add]
    abel
  | destroy object =>
    obtain ⟨func, alive, made⟩ := Option.map_eq_some_iff.mp stepped
    cases made
    have emptied := held_set alive none
    change (σ.handed : Multiset κ) + σ.called + σ.held = σ.handed +
      ((σ.called ++ func.toList : List κ) : Multiset κ) +
        Stacks.pending ((σ.objects.set object none).map contents) + 0
    have held : σ.held =
        Stacks.pending ((σ.objects.set object none).map contents) + func.toList := by
      rw [emptied]
      exact (add_zero _).symm
    rw [held, ← Multiset.coe_add]
    abel

/-- A program spares all cleanups if its first operation does and the rest does. -/
theorem spares_cons {operation : Operation κ} {operations : List (Operation κ)}
    (stepped : σ.step operation = some σ') : σ.Spares (operation :: operations) ↔
      σ.overwritten operation = none ∧ σ'.Spares operations := by
  have first (before : List (Operation κ)) :
      (disposers κ).replay σ (operation :: before) = (disposers κ).replay σ' before := by
    have taken : (disposers κ).step σ operation = some σ' := stepped
    rw [System.replay, taken]
    rfl
  constructor
  · intro spares
    refine ⟨spares [] operation operations rfl σ rfl, ?_⟩
    intro before other after split state replayed
    apply spares (operation :: before) other after (by rw [split, List.cons_append])
    rw [first]
    exact replayed
  · intro both before other after split state replayed
    obtain ⟨now, spares⟩ := both
    cases before with
    | nil =>
      cases replayed
      rw [← (List.cons.inj split).1]
      exact now
    | cons same before =>
      obtain ⟨head, tail⟩ := List.cons.inj split
      rw [← head, first] at replayed
      exact spares before other after tail state replayed

/-- What a run was handed is held or called, but for what it has overwritten. -/
theorem replay_balance {operations : List (Operation κ)}
    (replayed : (disposers κ).replay σ operations = some σ') : ∃ lost : Multiset κ,
      (σ'.handed : Multiset κ) + σ.called + σ.held = σ.handed + σ'.called + σ'.held + lost ∧
        (lost = 0 ↔ σ.Spares operations) := by
  induction operations generalizing σ with
  | nil =>
    cases replayed
    refine ⟨0, (add_zero _).symm, fun _ before operation after split => ?_, fun _ => rfl⟩
    exact absurd split.symm (List.append_ne_nil_of_right_ne_nil _ (List.cons_ne_nil _ _))
  | cons operation operations ih =>
    obtain ⟨middle, stepped, rest⟩ := Option.bind_eq_some_iff.mp replayed
    obtain ⟨lost, balance, spares⟩ := ih rest
    have now := step_balance stepped
    refine ⟨(σ.overwritten operation).toList + lost, ?_, ?_⟩
    · apply add_right_cancel (b := (middle.handed : Multiset κ) + middle.called + middle.held)
      calc (σ'.handed : Multiset κ) + σ.called + σ.held +
            (middle.handed + middle.called + middle.held)
          = (middle.handed + σ.called + σ.held) +
              (σ'.handed + middle.called + middle.held) := by abel
        _ = (σ.handed + middle.called + middle.held + (σ.overwritten operation).toList) +
              (middle.handed + σ'.called + σ'.held + lost) := by rw [now, balance]
        _ = σ.handed + σ'.called + σ'.held + ((σ.overwritten operation).toList + lost) +
              (middle.handed + middle.called + middle.held) := by abel
    · rw [spares_cons stepped, ← spares]
      cases σ.overwritten operation <;> simp

end Disposers

/-! ## Whole programs -/

section Programs

variable {operations : List (Operation κ)} {σ : Disposers κ}

/-- When all disposers are destroyed, every cleanup was called exactly once for each time that it
was handed to a constructor or to `Set` if and only if no `Set` and no move assignment had a target
that held a cleanup. -/
theorem called_once_iff (replayed : (disposers κ).replay .start operations = some σ)
    (ended : σ.Ended) : σ.called.Perm σ.handed ↔ Disposers.start.Spares operations := by
  obtain ⟨lost, balance, spares⟩ := Disposers.replay_balance replayed
  have all : (σ.handed : Multiset κ) = σ.called + lost := by
    change (σ.handed : Multiset κ) + 0 + 0 = 0 + σ.called + σ.held + lost at balance
    rw [add_zero, add_zero, zero_add, ended.held, add_zero] at balance
    exact balance
  rw [← spares, ← Multiset.coe_eq_coe, all]
  constructor
  · intro same
    exact add_left_cancel (same.symm.trans (add_zero _).symm)
  · intro none
    rw [none, add_zero]

end Programs

/-- A cleanup is moved into an empty disposer, whose end calls it. -/
theorem called_once_moved : Disposers.start.Spares
    [.constructDefault, .construct (some 7), .moveAssign 0 1, .destroy 1, .destroy 0] := by
  have run : (disposers Nat).replay .start
      [.constructDefault, .construct (some 7), .moveAssign 0 1, .destroy 1, .destroy 0] =
        some ⟨[none, none], [7], [7]⟩ := rfl
  exact (called_once_iff run (by decide)).mp (List.Perm.refl [7])

/-- A disposer that holds a cleanup is assigned to, is assigned to itself, or is given another
cleanup: each time its own is never called. -/
theorem cleanups_lost :
    let calls (operations : List (Operation Nat)) : Option (List Nat × List Nat) :=
      ((disposers Nat).replay .start operations).bind fun σ =>
        if σ.Ended then some (σ.handed, σ.called) else none
    calls [.construct (some 1), .construct (some 2), .moveAssign 0 1, .destroy 1, .destroy 0] =
        some ([1, 2], [2]) ∧
      calls [.construct (some 1), .moveAssign 0 0, .destroy 0] = some ([1], []) ∧
      calls [.construct (some 1), .set 0 (some 2), .destroy 0] = some ([1, 2], [2]) ∧
      ¬ ∀ (operations : List (Operation Nat)) σ,
        (disposers Nat).replay .start operations = some σ → σ.Ended →
          σ.called.Perm σ.handed := by
  refine ⟨rfl, rfl, rfl, fun once => ?_⟩
  have same := once [.construct (some 1), .moveAssign 0 0, .destroy 0] ⟨[none], [1], []⟩ rfl
    (by decide)
  exact absurd same.length_eq (by decide)

end Azul.Utils
