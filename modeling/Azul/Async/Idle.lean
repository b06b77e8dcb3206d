import Azul.Async.RuntimeReachable

/-!
# Between calls

When no `SetValue`, `SetException` or `Then` call on a state is in progress the counts of the
runtime invariant become equations: a closure that was stored has been called once by every
completing call of its antecedent, and any other closure has been called once. When nothing at all
is pending for a closure, only a list owns it.
-/

namespace Azul.Async

open Foundation

variable {V ε X : Type} {h : Heap V ε} {P : Multiset (Instr V ε X)}

/-- The instruction completes a state, walks its continuations, or registers or runs the closure
that derives it. -/
def Instr.callOn (s : StateId) : Instr V ε X → Bool
  | .setValue t _ | .resolve t _ | .setException t _ | .walk t _ | .invoke t _ | .inCallable t
  | .registerThen t => t == s
  | _ => false

/-- The instruction is part of a call on a state, of the end of its promise, or of the end of the
closure that derives it. -/
def Instr.concerns (s : StateId) : Instr V ε X → Bool
  | .aboutToDestroyPromise t | .clear t | .destroyClosure t _ => t == s
  | x => x.callOn s

/-- The instruction belongs to a component above the library. -/
def Instr.isExternal : Instr V ε X → Bool
  | .external _ => true
  | _ => false

/-- No `SetValue`, `SetException` or `Then` call on a state is in progress, nor the call of the
closure that derives it. -/
def Idle (pending : Multiset (Instr V ε X)) (s : StateId) : Prop :=
  ∀ x ∈ pending, x.callOn s = false

/-- Nothing that is in progress concerns a state. -/
def Untouched (pending : Multiset (Instr V ε X)) (s : StateId) : Prop :=
  ∀ x ∈ pending, x.concerns s = false

/-- No call of the library is in progress. -/
def Quiet (pending : Multiset (Instr V ε X)) : Prop := ∀ x ∈ pending, x.isExternal = true

instance (pending : Multiset (Instr V ε X)) (s : StateId) : Decidable (Idle pending s) :=
  inferInstanceAs (Decidable (∀ x ∈ pending, x.callOn s = false))

instance (pending : Multiset (Instr V ε X)) (s : StateId) : Decidable (Untouched pending s) :=
  inferInstanceAs (Decidable (∀ x ∈ pending, x.concerns s = false))

instance (pending : Multiset (Instr V ε X)) : Decidable (Quiet pending) :=
  inferInstanceAs (Decidable (∀ x ∈ pending, x.isExternal = true))

/-- What no pending instruction is is not counted. -/
theorem count_absent {p q : Instr V ε X → Bool} (absent : ∀ x ∈ P, q x = false)
    (implies : ∀ x, p x = true → q x = true) : Stacks.count P p = 0 :=
  Stacks.count_eq_zero.mpr fun x inside => by
    by_contra counted
    have pending := implies x (by simpa using counted)
    rw [absent x inside] at pending
    cases pending

namespace Quiet

/-- Nothing but external code is counted. -/
theorem count (quiet : Quiet P) {p : Instr V ε X → Bool} (external : ∀ x, p (.external x) = false) :
    Stacks.count P p = 0 :=
  Stacks.count_eq_zero.mpr fun x inside => by
    have outside := quiet x inside
    cases x <;> first | exact external _ | cases outside

/-- Nothing but external code is pending. -/
theorem notMem (quiet : Quiet P) {x : Instr V ε X} (internal : x.isExternal = false) : x ∉ P :=
  fun inside => by
    rw [quiet x inside] at internal
    cases internal

/-- When no call is in progress, nothing concerns any state. -/
theorem untouched (quiet : Quiet P) (s : StateId) : Untouched P s := fun x inside => by
  have outside := quiet x inside
  cases x <;> first | rfl | cases outside

end Quiet

namespace Untouched

variable {s : StateId}

/-- When nothing concerns a state, no call on it is in progress. -/
theorem idle (untouched : Untouched P s) : Idle P s := fun x inside => by
  have absent := untouched x inside
  cases x <;> first | rfl | exact absent

/-- When nothing concerns a derived state, no copy of its closure is being destroyed. -/
theorem count_destroy (untouched : Untouched P s) (copy : Copy) :
    Stacks.count P (Instr.isDestroy s copy) = 0 :=
  count_absent untouched fun x counted => by
    cases x <;> simp_all [Instr.isDestroy, Instr.concerns]

/-- When nothing concerns a state, the end of its promise is not in progress. -/
theorem notMem (untouched : Untouched P s) {x : Instr V ε X} (concerns : x.concerns s = true) :
    x ∉ P := fun inside => by
  rw [untouched x inside] at concerns
  cases concerns

end Untouched

/-- When no call is in progress, no call on any state is. -/
theorem Quiet.idle (quiet : Quiet P) (s : StateId) : Idle P s := (quiet.untouched s).idle

namespace Idle

variable {s : StateId}

theorem count_invoke (idle : Idle P s) (copy : Copy) : Stacks.count P (Instr.isInvoke s copy) = 0 :=
  count_absent idle fun x counted => by cases x <;> simp_all [Instr.isInvoke, Instr.callOn]

theorem count_register (idle : Idle P s) : Stacks.count P (Instr.isRegister s) = 0 :=
  count_absent idle fun x counted => by cases x <;> simp_all [Instr.isRegister, Instr.callOn]

theorem count_walks (idle : Idle P s) (index : Nat) :
    Stacks.count P (Instr.walksTo s index) = 0 :=
  count_absent idle fun x counted => by cases x <;> simp_all [Instr.walksTo, Instr.callOn]

theorem count_decides (idle : Idle P s) : Stacks.count P (Instr.decidesOn s) = 0 :=
  count_absent idle fun x counted => by cases x <;> simp_all [Instr.decidesOn, Instr.callOn]

theorem count_inCallable (idle : Idle P s) : Stacks.count P (Instr.isInCallable s) = 0 :=
  count_absent idle fun x counted => by cases x <;> simp_all [Instr.isInCallable, Instr.callOn]

/-- A state that is decided or about to be is decided. -/
theorem firing_iff (idle : Idle P s) : Firing h P s ↔ h.Decided s := by
  unfold Firing
  rw [idle.count_decides]
  simp

end Idle

namespace Inv

/-- A stored closure was called by every completing call of its antecedent, any other closure
once. -/
theorem called (inv : Inv h P) {d s : StateId} {callable : Callable} (idle : Idle P d)
    (walked : Idle P s) (made : h.origin d = some (.derived s callable)) :
    h.invocations d = if h.appended d = true then h.walks s else 1 := by
  by_cases stored : h.appended d = true
  · have calls := (inv.counts.stored d s callable made stored).1
    rw [idle.count_invoke, walked.count_walks] at calls
    rw [if_pos stored]
    exact calls
  · have once := (inv.counts.inline d s callable made (by simpa using stored)).1
    rw [idle.count_invoke, idle.count_register] at once
    rw [if_neg stored]
    exact once

/-- A closure that was not stored found its antecedent decided. -/
theorem inline_decided (inv : Inv h P) {d s : StateId} {callable : Callable} (idle : Idle P d)
    (made : h.origin d = some (.derived s callable)) (unstored : h.appended d = false) :
    h.Decided s := by
  rcases (inv.counts.inline d s callable made unstored).2.2 with decided | registering
  · exact decided
  · rw [idle.count_register] at registering
    cases registering

/-- A state was completed exactly if it is decided otherwise than by the end of its promise. -/
theorem walked_iff (inv : Inv h P) {s : StateId} :
    0 < h.walks s ↔ h.Decided s ∧ h.outcome s ≠ some .brokenPromise := by
  constructor
  · intro walked
    refine ⟨fun undecided => ?_, fun broken => ?_⟩
    · have never := inv.decisions.unwalked s fun decided => decided undecided
      omega
    · have never := (inv.decisions.broken s broken).2
      omega
  · rintro ⟨decided, unbroken⟩
    obtain ⟨o, outcome⟩ := Option.ne_none_iff_exists'.mp decided
    exact inv.decisions.walked s o outcome fun same => unbroken (same ▸ outcome)

/-- A promised state that received a result was completed. -/
theorem received_walked (inv : Inv h P) {s : StateId} (idle : Idle P s)
    (promised : h.Promised s) (some : h.received s ≠ []) : 0 < h.walks s := by
  have effect := inv.decisions.receivedGe s promised some
  rwa [idle.count_decides, Nat.zero_add] at effect

/-- A promised state that received one result was completed once, and holds that result. -/
theorem received_one (inv : Inv h P) {s : StateId} (idle : Idle P s) (promised : h.Promised s)
    {result : Result V ε} (one : h.received s = [result]) :
    h.walks s = 1 ∧ h.outcome s = some result.outcome := by
  have walked := inv.received_walked idle promised (by simp [one])
  have bound := inv.decisions.receivedLe s promised
  rw [one, List.length_singleton] at bound
  exact ⟨by omega, inv.decisions.receivedOutcome s promised result one walked⟩

/-- A derived state whose closure was called once holds what the call handed over. -/
theorem called_once (inv : Inv h P) {d : StateId} (idle : Idle P d) (derived : h.Derived d)
    (once : h.invocations d = 1) :
    ∃ result, h.received d = [result] ∧ h.outcome d = some result.outcome := by
  have returned := inv.decisions.returned d derived
  rw [once, idle.count_inCallable, Nat.add_zero] at returned
  obtain ⟨result, one⟩ := List.length_eq_one_iff.mp returned.symm
  exact ⟨result, one, (inv.received_one idle (Or.inr derived) one).2⟩

/-- Between calls only a list owns a closure. -/
theorem copies_listed (inv : Inv h P) {d s : StateId} {callable : Callable}
    (untouched : Untouched P d) (made : h.origin d = some (.derived s callable)) {copy : Copy}
    (live : copy ∈ h.copies d) :
    copy = .listed ∧ d ∈ (h.cell s).continuations := by
  have balance := inv.counts.copies d s callable made copy
  rw [untouched.count_destroy, if_pos live, Nat.zero_add] at balance
  split at balance
  · exact ⟨‹_›, List.count_pos_iff.mp (by omega)⟩
  · cases balance

/-- Between calls a state whose promise is gone is decided and has nothing registered. -/
theorem retired_cleared (inv : Inv h P) {s : StateId} (untouched : Untouched P s)
    (retired : h.Retired s) :
    h.Decided s ∧ (h.cell s).continuations = [] := by
  rcases inv.decisions.retired s retired with breaking | ⟨decided, cleared | clearing⟩
  · exact absurd breaking (untouched.notMem (by simp [Instr.concerns]))
  · exact ⟨decided, cleared⟩
  · exact absurd clearing (untouched.notMem (by simp [Instr.concerns]))

end Inv

end Azul.Async
