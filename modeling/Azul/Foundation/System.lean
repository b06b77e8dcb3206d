import Mathlib.Logic.Function.Basic

/-!
# Guarded transition systems

A system is an executable, guarded step function: `step state event` is `none` when the event is
not enabled. Replaying a list of events evaluates a concrete run, and `Reachable` quantifies over
every run, so the guards that proofs use are the guards that replay uses. A discipline on the
environment is a further guard (`System.under`); it restricts who may do what, never what a step
computes.
-/

namespace Azul.Foundation

/-- Initial states and a guarded step function. -/
structure System (σ ε : Type*) where
  /-- The states in which a run may start. -/
  initial : σ → Prop
  /-- The state after an event, or `none` when the event is not enabled. -/
  step : σ → ε → Option σ

namespace System

variable {σ ε : Type*} (system : System σ ε)

/-- Replay events in order; `none` when one of them is not enabled. -/
def replay : σ → List ε → Option σ
  | state, [] => some state
  | state, event :: events => (system.step state event).bind fun next => replay next events

/-- Replaying a run and then another one replays both. -/
theorem replay_append (first : σ) (before after : List ε) :
    system.replay first (before ++ after) =
      (system.replay first before).bind fun middle => system.replay middle after := by
  induction before generalizing first with
  | nil => rfl
  | cons event before ih =>
    rw [List.cons_append, replay, replay, Option.bind_assoc]
    congr 1
    funext next
    exact ih next

/-- States that some run from an initial state reaches. -/
inductive Reachable : σ → Prop
  | start {state : σ} (initial : system.initial state) : Reachable state
  | next {state after : σ} {event : ε} (reached : Reachable state)
      (stepped : system.step state event = some after) : Reachable after

variable {system}

/-- A property that holds initially and that every enabled event preserves holds in every
reachable state. -/
theorem Reachable.invariant {holds : σ → Prop}
    (initially : ∀ state, system.initial state → holds state)
    (preserved : ∀ state event after, system.Reachable state → holds state →
      system.step state event = some after → holds after)
    {state : σ} (reached : system.Reachable state) : holds state := by
  induction reached with
  | start initial => exact initially _ initial
  | next reached stepped ih => exact preserved _ _ _ reached ih stepped

/-- A property of pairs of states that is reflexive and that every enabled event extends relates
the first state of a replay to its last one. -/
theorem replay_relates {relates : σ → σ → Prop} (reflexive : ∀ state, relates state state)
    (extended : ∀ first state event after, relates first state →
      system.step state event = some after → relates first after)
    {first last : σ} {events : List ε} (replayed : system.replay first events = some last) :
    relates first last := by
  suffices general : ∀ state, relates first state →
      system.replay state events = some last → relates first last from
    general first (reflexive first) replayed
  clear replayed
  induction events with
  | nil =>
    intro state related done
    cases done
    exact related
  | cons event events ih =>
    intro state related done
    obtain ⟨middle, stepped, rest⟩ := Option.bind_eq_some_iff.mp done
    exact ih middle (extended first state event middle related stepped) rest

/-- Replaying from a reachable state stays among the reachable states. -/
theorem Reachable.replay {first last : σ} {events : List ε} (reached : system.Reachable first)
    (replayed : system.replay first events = some last) : system.Reachable last := by
  let relates (first last : σ) : Prop := system.Reachable first → system.Reachable last
  have related : relates first last :=
    replay_relates (fun _ reached => reached)
      (fun _ _ _ _ related stepped reached => (related reached).next stepped) replayed
  exact related reached

/-- A property of pairs of states that is reflexive and that every event extends that is enabled in
a reachable state relates a reachable state to the last state of a replay. -/
theorem Reachable.replay_relates {relates : σ → σ → Prop}
    (reflexive : ∀ state, relates state state)
    (extended : ∀ first state event after, system.Reachable state → relates first state →
      system.step state event = some after → relates first after)
    {first last : σ} {events : List ε} (reached : system.Reachable first)
    (replayed : system.replay first events = some last) : relates first last := by
  let both (first last : σ) : Prop :=
    system.Reachable first → system.Reachable last ∧ relates first last
  have related : both first last := by
    apply System.replay_relates _ _ replayed
    · exact fun state reached => ⟨reached, reflexive state⟩
    · intro first state event after before stepped reached
      obtain ⟨middle, related⟩ := before reached
      exact ⟨middle.next stepped, extended first state event after middle related stepped⟩
  exact (related reached).2

/-- A run that can be replayed from an initial state ends in a reachable state. -/
theorem Reachable.of_replay {first : σ} (initial : system.initial first) {events : List ε}
    (replayed : (system.replay first events).isSome = true) :
    system.Reachable ((system.replay first events).get replayed) :=
  (Reachable.start initial).replay (Option.some_get replayed).symm

/-- An event that, as long as it is not done, can be taken and lowers a measure, is done after some
number of times. -/
theorem replay_until {running done : σ → Prop} {measure : σ → Nat} {event : ε}
    (advances : ∀ state, running state → done state ∨
      ∃ next, system.step state event = some next ∧ running next ∧ measure next < measure state)
    (state : σ) (start : running state) :
    ∃ steps last, system.replay state (List.replicate steps event) = some last ∧
      running last ∧ done last := by
  generalize bound : measure state = size
  induction size using Nat.strongRecOn generalizing state with
  | _ size ih =>
    rcases advances state start with ended | ⟨next, stepped, goes, smaller⟩
    · exact ⟨0, state, rfl, start, ended⟩
    · obtain ⟨steps, last, replayed, ended⟩ := ih (measure next) (bound ▸ smaller) next goes rfl
      refine ⟨steps + 1, last, ?_, ended⟩
      rw [List.replicate_succ, replay, stepped, Option.bind_some, replayed]

variable (system)

/-- Take an event as long as a state is not done, for a number of times at most. -/
def stepUntil (done : σ → Prop) [DecidablePred done] (event : ε) : Nat → σ → Option σ
  | 0, state => some state
  | steps + 1, state =>
    if done state then
      some state
    else
      (system.step state event).bind (stepUntil done event steps)

variable {system}

theorem stepUntil_done {done : σ → Prop} [DecidablePred done] {event : ε} {state : σ}
    (steps : Nat) (ended : done state) :
    system.stepUntil done event steps state = some state := by
  cases steps with
  | zero => rfl
  | succ steps => exact if_pos ended

theorem stepUntil_next {done : σ → Prop} [DecidablePred done] {event : ε} {state : σ}
    (steps : Nat) (going : ¬ done state) :
    system.stepUntil done event (steps + 1) state =
      (system.step state event).bind (system.stepUntil done event steps) :=
  if_neg going

variable (system)

/-- The same system in an environment that only issues the allowed events. -/
def under (allowed : σ → ε → Prop) [∀ state event, Decidable (allowed state event)] :
    System σ ε where
  initial := system.initial
  step state event := if allowed state event then system.step state event else none

variable {system}

/-- A step under a discipline is an allowed step of the system. -/
theorem under_step {allowed : σ → ε → Prop} [∀ state event, Decidable (allowed state event)]
    {state after : σ} {event : ε} :
    (system.under allowed).step state event = some after ↔
      allowed state event ∧ system.step state event = some after := by
  simp only [under, Option.ite_none_right_eq_some]

section Disciplined

variable {allowed : σ → ε → Prop} [∀ state event, Decidable (allowed state event)]
  {first last : σ} {events : List ε}

/-- A run under a discipline is a run. -/
theorem replay_of_under (replayed : (system.under allowed).replay first events = some last) :
    system.replay first events = some last := by
  induction events generalizing first with
  | nil => exact replayed
  | cons event events ih =>
    obtain ⟨middle, stepped, rest⟩ := Option.bind_eq_some_iff.mp replayed
    rw [replay, (under_step.mp stepped).2, Option.bind_some, ih rest]

/-- A run of allowed events is one under the discipline. -/
theorem replay_under (permitted : ∀ state, ∀ event ∈ events, allowed state event)
    (replayed : system.replay first events = some last) :
    (system.under allowed).replay first events = some last := by
  induction events generalizing first with
  | nil => exact replayed
  | cons event events ih =>
    obtain ⟨middle, stepped, rest⟩ := Option.bind_eq_some_iff.mp replayed
    rw [replay, under_step.mpr ⟨permitted first event List.mem_cons_self, stepped⟩,
      Option.bind_some,
      ih (fun state other inside => permitted state other (List.mem_cons_of_mem _ inside)) rest]

/-- What is reached under a discipline is reached. -/
theorem Reachable.of_under {state : σ} (reached : (system.under allowed).Reachable state) :
    system.Reachable state := by
  apply reached.invariant
  · exact fun _ initial => .start initial
  · exact fun _ _ _ _ before stepped => before.next (under_step.mp stepped).2

/-- What is reached under a discipline is reached under one that allows more. -/
theorem Reachable.under_weaker {weaker : σ → ε → Prop}
    [∀ state event, Decidable (weaker state event)]
    (allows : ∀ state event, allowed state event → weaker state event) {state : σ}
    (reached : (system.under allowed).Reachable state) :
    (system.under weaker).Reachable state := by
  apply reached.invariant
  · exact fun _ initial => .start initial
  · intro state event after _ before stepped
    obtain ⟨permitted, taken⟩ := under_step.mp stepped
    exact before.next (under_step.mpr ⟨allows state event permitted, taken⟩)

end Disciplined

section History

variable {γ : Type*}

variable (system)

/-- The same system with a history, which its steps add to and do not read. -/
def recording (start : γ) (record : σ → ε → σ → γ → γ) : System (σ × γ) ε where
  initial pair := system.initial pair.1 ∧ pair.2 = start
  step pair event :=
    (system.step pair.1 event).map fun after => (after, record pair.1 event after pair.2)

variable {system} {start : γ} {record : σ → ε → σ → γ → γ}

/-- A step with a history is a step of the system, which determines what it adds. -/
theorem recording_step {pair after : σ × γ} {event : ε} :
    (system.recording start record).step pair event = some after ↔
      system.step pair.1 event = some after.1 ∧
        after.2 = record pair.1 event after.1 pair.2 := by
  constructor
  · intro stepped
    obtain ⟨next, taken, same⟩ := Option.map_eq_some_iff.mp stepped
    rw [← same]
    exact ⟨taken, rfl⟩
  · intro ⟨taken, added⟩
    exact Option.map_eq_some_iff.mpr ⟨after.1, taken, Prod.ext rfl added.symm⟩

/-- A state that is reached with a history is reached without. -/
theorem Reachable.erased {pair : σ × γ} (reached : (system.recording start record).Reachable pair) :
    system.Reachable pair.1 := by
  apply reached.invariant
  · exact fun _ starts => Reachable.start starts.1
  · exact fun _ _ _ _ before stepped => before.next (recording_step.mp stepped).1

/-- What is reached under a discipline is reached without. -/
theorem Reachable.undisciplined {allowed : σ → ε → Prop}
    [∀ state event, Decidable (allowed state event)] {pair : σ × γ}
    (reached : ((system.under allowed).recording start record).Reachable pair) :
    (system.recording start record).Reachable pair := by
  apply reached.invariant
  · exact fun _ starts => Reachable.start starts
  · intro pair event after _ before stepped
    obtain ⟨taken, added⟩ := recording_step.mp stepped
    exact before.next (recording_step.mpr ⟨(under_step.mp taken).2, added⟩)

end History

end System

end Azul.Foundation
