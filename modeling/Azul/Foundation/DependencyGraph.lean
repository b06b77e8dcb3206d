import Mathlib.Data.List.Basic

/-!
# Graphs of computations

A list of computations, each of which is a function of what comes out of earlier ones. Evaluating
them one after the other gives every computation one value. An assignment of values that respects
every computation on its own, however it came about, is this one as far as it goes: there is no
other, as every computation only depends on earlier ones.
-/

namespace Azul.Foundation

/-- A computation, by the positions of those that it depends on. -/
structure Node (α : Type*) where
  /-- The computations whose values it reads. -/
  dependencies : List Nat
  /-- What it makes of them. -/
  value : List α → α

namespace Node

variable {α : Type*} {graph : List (Node α)} {values : List α} {assigned : Nat → Option α} {i : Nat}

/-- The value of a computation after others. -/
def eval (node : Node α) (values : List α) : α :=
  node.value (node.dependencies.filterMap fun i => values[i]?)

/-- Evaluate computations one after the other, after others. -/
def evaluateFrom : List α → List (Node α) → List α
  | values, [] => values
  | values, node :: graph => evaluateFrom (values ++ [node.eval values]) graph

/-- Evaluate computations one after the other. -/
def evaluate (graph : List (Node α)) : List α := evaluateFrom [] graph

/-- Values that are there stay. -/
theorem evaluateFrom_append (values : List α) (graph : List (Node α)) :
    ∃ rest, evaluateFrom values graph = values ++ rest := by
  induction graph generalizing values with
  | nil => exact ⟨[], (List.append_nil values).symm⟩
  | cons node graph ih =>
    obtain ⟨rest, same⟩ := ih (values ++ [node.eval values])
    exact ⟨node.eval values :: rest, by rw [evaluateFrom, same, List.append_assoc]; rfl⟩

/-- A computation has its value after those before it. -/
theorem evaluateFrom_get (values : List α) {node : Node α} (found : graph[i]? = some node) :
    (evaluateFrom values graph)[values.length + i]? =
      some (node.eval ((evaluateFrom values graph).take (values.length + i))) := by
  induction graph generalizing values i with
  | nil => cases found
  | cons first graph ih =>
    cases i with
    | zero =>
      have same : first = node := Option.some.inj found
      obtain ⟨rest, all⟩ := evaluateFrom_append (values ++ [first.eval values]) graph
      rw [evaluateFrom, all, List.append_assoc, Nat.add_zero, List.take_left',
        List.getElem?_append_right (Nat.le_refl _), Nat.sub_self, same]
      · rfl
      · rfl
    | succ i =>
      have later := ih (values ++ [first.eval values]) found
      rw [List.length_append, List.length_singleton, Nat.add_assoc, Nat.add_comm 1 i] at later
      exact later

theorem evaluate_get {node : Node α} (found : graph[i]? = some node) :
    (evaluate graph)[i]? = some (node.eval ((evaluate graph).take i)) := by
  have value := evaluateFrom_get [] found
  rw [List.length_nil, Nat.zero_add] at value
  exact value

/-- Every value that is assigned is what its computation makes of values that are assigned to
earlier ones. -/
def Respects (graph : List (Node α)) (assigned : Nat → Option α) : Prop :=
  ∀ i a, assigned i = some a → ∃ node, graph[i]? = some node ∧
    (∀ j ∈ node.dependencies, j < i ∧ assigned j ≠ none) ∧
    a = node.value (node.dependencies.filterMap assigned)

/-- Values that are assigned stay, and others are added that respect their computations. -/
theorem Respects.extend {assigned' : Nat → Option α} (respects : Respects graph assigned)
    (kept : ∀ i a, assigned i = some a → assigned' i = some a)
    (fresh : ∀ i a, assigned i = none → assigned' i = some a → ∃ node, graph[i]? = some node ∧
      (∀ j ∈ node.dependencies, j < i ∧ assigned j ≠ none) ∧
      a = node.value (node.dependencies.filterMap assigned)) : Respects graph assigned' := by
  intro i a now
  have before : ∃ node, graph[i]? = some node ∧
      (∀ j ∈ node.dependencies, j < i ∧ assigned j ≠ none) ∧
      a = node.value (node.dependencies.filterMap assigned) := by
    cases was : assigned i with
    | none => exact fresh i a was now
    | some b =>
      rw [kept i b was] at now
      rw [← Option.some.inj now]
      exact respects i b was
  obtain ⟨node, found, earlier, value⟩ := before
  have same (j : Nat) (depends : j ∈ node.dependencies) : assigned j = assigned' j := by
    obtain ⟨b, was⟩ := Option.ne_none_iff_exists'.mp (earlier j depends).2
    rw [was, kept j b was]
  refine ⟨node, found, fun j depends => ⟨(earlier j depends).1, ?_⟩, ?_⟩
  · rw [← same j depends]
    exact (earlier j depends).2
  · rw [value, List.filterMap_congr same]

/-- An assignment that respects every computation is the evaluation of all. -/
theorem Respects.evaluate (respects : Respects graph assigned) {a : α}
    (known : assigned i = some a) : (evaluate graph)[i]? = some a := by
  -- the induction is on the position
  induction i using Nat.strongRecOn generalizing a with
  | _ i ih =>
    obtain ⟨node, found, earlier, same⟩ := respects i a known
    rw [evaluate_get found, same]
    unfold eval
    congr 2
    apply List.filterMap_congr
    intro j depends
    obtain ⟨before, some⟩ := earlier j depends
    obtain ⟨b, assigned⟩ := Option.ne_none_iff_exists'.mp some
    rw [List.getElem?_take_of_lt before, ih j before assigned, assigned]

end Node

end Azul.Foundation
