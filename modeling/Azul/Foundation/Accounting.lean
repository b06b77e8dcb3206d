import Azul.Foundation.Stacks
import Azul.Foundation.System
import Mathlib.Algebra.Order.BigOperators.Group.Multiset
import Mathlib.Algebra.BigOperators.Group.Multiset.Basic
import Mathlib.Algebra.GroupWithZero.Nat
import Mathlib.Algebra.Order.Group.Nat

/-!
# Amortised accounting

How many events a run can have is bounded by a potential: an event pays out of the potential, or it
is charged to whoever causes it. Over a whole run the payments are covered by what was there at the
start and by the charges (`replay_accounts`). When the events of a kind are bounded in this way, a
run of them that is continued as long as possible ends where none of them is enabled (`Settles`).

For threads as stacks of pending instructions the potential is a sum of weights, and a step is
accounted for by the instruction that it executes, if it makes no other instruction heavier
(`weigh_step`).
-/

namespace Azul.Foundation

namespace System

variable {σ ε : Type*} {system : System σ ε}

variable (system) in
/-- The sum of an amount over the events of a run. -/
def total (amount : σ → ε → Nat) : σ → List ε → Nat
  | _, [] => 0
  | state, event :: events =>
    amount state event + ((system.step state event).elim 0 fun next => total amount next events)

/-- An amount that does not depend on the state is summed over the events. -/
theorem total_sum {amount : ε → Nat} {first last : σ} {events : List ε}
    (replayed : system.replay first events = some last) :
    system.total (fun _ => amount) first events = (events.map amount).sum := by
  induction events generalizing first with
  | nil => rfl
  | cons event events ih =>
    obtain ⟨middle, stepped, rest⟩ := Option.bind_eq_some_iff.mp replayed
    rw [total, stepped, List.map_cons, List.sum_cons, Option.elim_some, ih rest]

/-- The events of a kind in a run are covered by the potential at its start and by what its events
are charged, if every event of the kind pays one unit. A bound that holds at the end of the run, and
at the start of every step at whose end it holds, may be used for every step. -/
theorem Reachable.replay_accounts (within : σ → Prop) (potential : σ → Nat) (kind : ε → Bool)
    (charges : σ → ε → Nat)
    (narrows : ∀ state event after, system.Reachable state →
      system.step state event = some after → within after → within state)
    (account : ∀ state event after, system.Reachable state → within after →
      system.step state event = some after →
      (if kind event = true then 1 else 0) + potential after ≤
        potential state + charges state event)
    {first last : σ} {events : List ε} (reached : system.Reachable first)
    (replayed : system.replay first events = some last) (ends : within last) :
    within first ∧
      events.countP kind + potential last ≤
        potential first + system.total charges first events := by
  induction events generalizing first with
  | nil =>
    cases replayed
    exact ⟨ends, by simp⟩
  | cons event events ih =>
    obtain ⟨middle, stepped, rest⟩ := Option.bind_eq_some_iff.mp replayed
    obtain ⟨inside, later⟩ := ih (reached.next stepped) rest
    have now := account first event middle reached inside stepped
    refine ⟨narrows first event middle reached stepped inside, ?_⟩
    rw [List.countP_cons, total, stepped, Option.elim_some]
    omega

/-- An amount is summed by parts. -/
theorem total_add (one two : σ → ε → Nat) (first : σ) (events : List ε) :
    system.total (fun state event => one state event + two state event) first events =
      system.total one first events + system.total two first events := by
  induction events generalizing first with
  | nil => rfl
  | cons event events ih =>
    rw [total, total, total]
    cases system.step first event with
    | none => exact (Nat.add_zero _).trans (by simp only [Option.elim_none]; omega)
    | some next =>
      rw [Option.elim_some, Option.elim_some, Option.elim_some, ih next]
      omega

/-- A price is paid as often as what it is the price of. -/
theorem total_mul (count : σ → ε → Nat) (price : Nat) (first : σ) (events : List ε) :
    system.total (fun state event => count state event * price) first events =
      system.total count first events * price := by
  induction events generalizing first with
  | nil => exact (Nat.zero_mul price).symm
  | cons event events ih =>
    rw [total, total, Nat.add_mul]
    cases system.step first event with
    | none => rw [Option.elim_none, Option.elim_none, Nat.zero_mul]
    | some next => rw [Option.elim_some, Option.elim_some, ih next]

/-- A run whose events are free is free. -/
theorem total_free {charges : σ → ε → Nat} {first last : σ} {events : List ε}
    (free : ∀ state, ∀ event ∈ events, (system.step state event).isSome = true →
      charges state event = 0)
    (replayed : system.replay first events = some last) :
    system.total charges first events = 0 := by
  induction events generalizing first with
  | nil => rfl
  | cons event events ih =>
    obtain ⟨middle, stepped, rest⟩ := Option.bind_eq_some_iff.mp replayed
    have enabled : (system.step first event).isSome = true := by rw [stepped]; rfl
    rw [total, stepped, Option.elim_some, free first event List.mem_cons_self enabled,
      ih (fun state other inside => free state other (List.mem_cons_of_mem _ inside)) rest]

section Disciplined

variable {allowed : σ → ε → Prop} [∀ state event, Decidable (allowed state event)]
  {first last : σ} {events : List ε}

/-- It costs the same. -/
theorem total_of_under {charges : σ → ε → Nat}
    (replayed : (system.under allowed).replay first events = some last) :
    system.total charges first events = (system.under allowed).total charges first events := by
  induction events generalizing first with
  | nil => rfl
  | cons event events ih =>
    obtain ⟨middle, stepped, rest⟩ := Option.bind_eq_some_iff.mp replayed
    rw [total, total, stepped, (under_step.mp stepped).2, Option.elim_some, Option.elim_some,
      ih rest]

end Disciplined

/-- What every event of a kind keeps is kept by a run of such events. -/
theorem Reachable.replay_keeps {α : Type*} (amount : σ → α) {kind : ε → Prop}
    (kept : ∀ state event after, system.Reachable state → kind event →
      system.step state event = some after → amount after = amount state)
    {first last : σ} {events : List ε} (reached : system.Reachable first)
    (only : ∀ event ∈ events, kind event)
    (replayed : system.replay first events = some last) : amount last = amount first := by
  induction events generalizing first with
  | nil =>
    cases replayed
    rfl
  | cons event events ih =>
    obtain ⟨middle, stepped, rest⟩ := Option.bind_eq_some_iff.mp replayed
    rw [ih (reached.next stepped) (fun other inside => only other (List.mem_cons_of_mem _ inside))
      rest, kept first event middle reached (only event List.mem_cons_self) stepped]

variable (system) in
/-- Events of a kind follow each other at most so many times from a state, and where none of them is
enabled any more, something holds. -/
def Settles (kind : ε → Prop) (bound : Nat) (holds : σ → Prop) (first : σ) : Prop :=
  ∀ events last, (∀ event ∈ events, kind event) → system.replay first events = some last →
    events.length ≤ bound ∧
      ((∀ event, kind event → system.step last event = none) → holds last)

/-- What settles gets there. -/
theorem Settles.reaches {kind : ε → Prop} {bound : Nat} {holds : σ → Prop} {first : σ}
    (settles : system.Settles kind bound holds first) :
    ∃ events last, (∀ event ∈ events, kind event) ∧ system.replay first events = some last ∧
      holds last := by
  suffices general : ∀ room events last, (∀ event ∈ events, kind event) →
      system.replay first events = some last → bound ≤ events.length + room →
      ∃ more final, (∀ event ∈ more, kind event) ∧ system.replay first more = some final ∧
        holds final from
    general bound [] first (List.forall_mem_nil _) rfl (Nat.le_add_left _ _)
  have continued {events : List ε} {last next : σ} {event : ε}
      (only : ∀ event ∈ events, kind event) (replayed : system.replay first events = some last)
      (chosen : kind event) (stepped : system.step last event = some next) :
      (∀ other ∈ events ++ [event], kind other) ∧
        system.replay first (events ++ [event]) = some next := by
    refine ⟨List.forall_mem_append.mpr ⟨only, List.forall_mem_singleton.mpr chosen⟩, ?_⟩
    rw [replay_append, replayed, Option.bind_some, replay, stepped]
    rfl
  intro room
  induction room with
  | zero =>
    intro events last only replayed full
    refine ⟨events, last, only, replayed, (settles events last only replayed).2 ?_⟩
    intro event chosen
    by_contra enabled
    obtain ⟨next, stepped⟩ := Option.ne_none_iff_exists'.mp enabled
    obtain ⟨all, longer⟩ := continued only replayed chosen stepped
    have short := (settles _ next all longer).1
    rw [List.length_append, List.length_singleton] at short
    omega
  | succ room ih =>
    intro events last only replayed full
    by_cases rest : ∀ event, kind event → system.step last event = none
    · exact ⟨events, last, only, replayed, (settles events last only replayed).2 rest⟩
    · push Not at rest
      obtain ⟨event, chosen, enabled⟩ := rest
      obtain ⟨next, stepped⟩ := Option.ne_none_iff_exists'.mp enabled
      obtain ⟨all, longer⟩ := continued only replayed chosen stepped
      apply ih (events ++ [event]) next all longer
      rw [List.length_append, List.length_singleton]
      omega

end System

namespace Stacks

variable {ι : Type*}

/-- The weight of pending instructions. -/
def weigh (weight : ι → Nat) (pending : Multiset ι) : Nat := (pending.map weight).sum

@[simp]
theorem weigh_zero (weight : ι → Nat) : weigh weight (0 : Multiset ι) = 0 := rfl

@[simp]
theorem weigh_add (weight : ι → Nat) (first second : Multiset ι) :
    weigh weight (first + second) = weigh weight first + weigh weight second := by
  rw [weigh, Multiset.map_add, Multiset.sum_add]
  rfl

@[simp]
theorem weigh_coe (weight : ι → Nat) (code : List ι) :
    weigh weight (code : Multiset ι) = (code.map weight).sum := by
  rw [weigh, Multiset.map_coe, Multiset.sum_coe]

/-- Heavier instructions weigh more together. -/
theorem weigh_le {weight other : ι → Nat} {pending : Multiset ι}
    (lighter : ∀ x ∈ pending, weight x ≤ other x) : weigh weight pending ≤ weigh other pending :=
  Multiset.sum_map_le_sum_map weight other lighter

/-- A step that replaces some code, and makes nothing else heavier, changes the weight by what it
replaces. -/
theorem weigh_step {before after : ι → Nat} {old new rest : Multiset ι} {pays charge : Nat}
    (lighter : ∀ x ∈ rest, after x ≤ before x)
    (balance : pays + weigh after new ≤ weigh before old + charge) :
    pays + weigh after (new + rest) ≤ weigh before (old + rest) + charge := by
  have others := weigh_le lighter
  rw [weigh_add, weigh_add]
  omega

end Stacks

end Azul.Foundation
