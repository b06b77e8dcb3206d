import Mathlib.Data.List.Nodup
import Mathlib.Logic.Function.Basic

/-!
# Assignments through references

A sequence of compound assignments, each of which combines the value of its target with a value
that it reads through a reference when its turn comes. An argument that is the target of an earlier
assignment is read after that assignment, so the sequence computes what it would compute from the
old values exactly if the new values of such arguments make no difference.
-/

namespace Azul.Foundation.Assignments

variable {ι α : Type*} [DecidableEq ι]

/-- Execute assignments `target op= argument`; `none` where an operation is not defined. -/
def execute (op : α → α → Option α) : List (ι × ι) → (ι → α) → Option (ι → α)
  | [], store => some store
  | (target, argument) :: rest, store =>
    (op (store target) (store argument)).bind fun value =>
      execute op rest (Function.update store target value)

variable {op : α → α → Option α} {assignments : List (ι × ι)} {store after : ι → α}

/-- What is no target stays. -/
theorem execute_other (done : execute op assignments store = some after) {place : ι}
    (other : place ∉ assignments.map Prod.fst) : after place = store place := by
  induction assignments generalizing store with
  | nil =>
    cases done
    rfl
  | cons assignment assignments ih =>
    obtain ⟨value, _, rest⟩ := Option.bind_eq_some_iff.mp done
    rw [List.map_cons, List.mem_cons, not_or] at other
    rw [ih rest other.2, Function.update_of_ne other.1]

/-- Assignments that keep to some states in which they are defined can be executed. -/
theorem execute_defined {valid : (ι → α) → Prop}
    (defined : ∀ store, valid store → ∀ assignment ∈ assignments, ∃ value,
      op (store assignment.1) (store assignment.2) = some value ∧
        valid (Function.update store assignment.1 value)) (start : valid store) :
    ∃ after, execute op assignments store = some after := by
  induction assignments generalizing store with
  | nil => exact ⟨store, rfl⟩
  | cons assignment assignments ih =>
    obtain ⟨value, computed, still⟩ := defined store start assignment List.mem_cons_self
    obtain ⟨after, rest⟩ := ih (fun store valid assignment inside =>
      defined store valid assignment (List.mem_cons_of_mem _ inside)) still
    refine ⟨after, ?_⟩
    rw [execute, computed, Option.bind_some]
    exact rest

/-- A target gets what the operation computes from its old value, and from the new value of its
argument if that was assigned before. -/
theorem execute_target (distinct : (assignments.map Prod.fst).Nodup)
    (done : execute op assignments store = some after) {before rest : List (ι × ι)}
    {target argument : ι} (split : assignments = before ++ (target, argument) :: rest) :
    op (store target) (if argument ∈ before.map Prod.fst then after argument else store argument) =
      some (after target) := by
  induction before generalizing assignments store with
  | nil =>
    rw [split] at done distinct
    obtain ⟨value, computed, later⟩ := Option.bind_eq_some_iff.mp done
    have last : target ∉ rest.map Prod.fst := (List.nodup_cons.mp distinct).1
    rw [execute_other later last, Function.update_self]
    exact computed
  | cons first before ih =>
    rw [split, List.cons_append] at done distinct
    obtain ⟨value, computed, later⟩ := Option.bind_eq_some_iff.mp done
    obtain ⟨once, others⟩ := List.nodup_cons.mp distinct
    have apart : target ≠ first.1 := by
      intro same
      apply once
      rw [List.map_append, ← same]
      exact List.mem_append_right _ List.mem_cons_self
    have assigned := ih others later rfl
    rw [Function.update_of_ne apart] at assigned
    rw [← assigned, List.map_cons]
    congr 1
    by_cases inside : argument ∈ before.map Prod.fst
    · rw [if_pos inside, if_pos (List.mem_cons_of_mem _ inside)]
    · rw [if_neg inside]
      by_cases same : argument = first.1
      · rw [same, if_pos List.mem_cons_self]
        exact execute_other later once
      · rw [if_neg, Function.update_of_ne same]
        rw [List.mem_cons, not_or]
        exact ⟨same, inside⟩

/-- A relation between the elements of a list and later ones. -/
theorem pairwise_iff_split {β : Type*} {R : β → β → Prop} {l : List β} :
    l.Pairwise R ↔ ∀ before x after, l = before ++ x :: after → ∀ y ∈ before, R y x := by
  constructor
  · intro related before x after split y inside
    rw [split, List.pairwise_append] at related
    exact related.2.2 y inside x List.mem_cons_self
  · intro related
    induction l with
    | nil => exact List.Pairwise.nil
    | cons first l ih =>
      apply List.Pairwise.cons
      · intro x inside
        obtain ⟨before, after, split⟩ := List.append_of_mem inside
        exact related (first :: before) x after (by rw [split, List.cons_append]) first
          List.mem_cons_self
      · apply ih
        intro before x after split y inside
        exact related (first :: before) x after (by rw [split, List.cons_append]) y
          (List.mem_cons_of_mem _ inside)

/-- All targets get what the operation computes from the old values exactly if every argument that
is assigned before it is read could as well be read before. -/
theorem simultaneous_iff (distinct : (assignments.map Prod.fst).Nodup)
    (done : execute op assignments store = some after) :
    (∀ assignment ∈ assignments,
      op (store assignment.1) (store assignment.2) = some (after assignment.1)) ↔
    assignments.Pairwise fun earlier later => later.2 = earlier.1 →
      op (store later.1) (after later.2) = op (store later.1) (store later.2) := by
  rw [pairwise_iff_split]
  constructor
  · intro old before later rest split earlier inside same
    have member : later ∈ assignments := by
      rw [split]
      exact List.mem_append_right _ List.mem_cons_self
    have read : later.2 ∈ before.map Prod.fst := by
      rw [same]
      exact List.mem_map_of_mem inside
    have assigned := execute_target distinct done split
    rw [if_pos read] at assigned
    rw [assigned, old later member]
  · intro steady assignment member
    obtain ⟨before, rest, split⟩ := List.append_of_mem member
    have assigned := execute_target distinct done split
    by_cases read : assignment.2 ∈ before.map Prod.fst
    · rw [if_pos read] at assigned
      obtain ⟨earlier, inside, same⟩ := List.mem_map.mp read
      rw [← steady before assignment rest split earlier inside same.symm]
      exact assigned
    · rw [if_neg read] at assigned
      exact assigned

end Azul.Foundation.Assignments
