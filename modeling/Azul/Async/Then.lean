import Azul.Async.Idle

/-!
# `Then` and the completion of its antecedent

A continuation is called by the completing call that walks past it, or by `Then` itself when the
antecedent was decided before. Either way a promise that is completed once calls it once, and the
derived future holds what the callable returned or threw. The end of a promise is different: it
destroys stored continuations without a call, while `Then` on a broken future still calls its own.
-/

namespace Azul.Async

open Foundation

variable {V ε X : Type} {σ τ : Config V ε X}

/-- `Get` reports the result that a state was completed with. -/
theorem Heap.get_of_outcome {h : Heap V ε} {s : StateId} {result : Result V ε}
    (outcome : h.outcome s = some result.outcome) : (h.cell s).get = some result := by
  rw [FutureState.get_eq, show (h.cell s).outcome = some result.outcome from outcome]
  cases result <;> rfl

namespace Config.Ok

/-- A closure is called only when its antecedent is decided. -/
theorem called_decided (ok : σ.Ok) {d s : StateId} {callable : Callable}
    (made : σ.heap.origin d = some (.derived s callable)) (called : 0 < σ.heap.invocations d) :
    σ.heap.Decided s := by
  by_cases stored : σ.heap.appended d = true
  · have walked := (ok.inv.counts.stored d s callable made stored).1
    exact (ok.inv.walked_iff.mp (by omega)).1
  · obtain ⟨once, -, decided | registering⟩ :=
      ok.inv.counts.inline d s callable made (by simpa using stored)
    · exact decided
    · omega

/-- A promise that received a result is not broken. -/
theorem unbroken_of_received (ok : σ.Ok) {s : StateId} (promised : σ.heap.Promised s)
    (received : σ.heap.received s ≠ []) : σ.heap.outcome s ≠ some .brokenPromise := by
  intro broken
  obtain ⟨retired, never⟩ := ok.inv.decisions.broken s broken
  have effect := ok.inv.decisions.receivedGe s promised received
  obtain ⟨x, inside, result, decision⟩ :=
    Stacks.decidesOn_pos (P := σ.pending) (s := s) (by omega)
  exact ok.exclusive x inside s (Instr.completes_of_decision decision) retired

/-- A promise that received nothing and is alive is undecided. -/
theorem undecided_of_live (ok : σ.Ok) {s : StateId} (made : σ.heap.origin s = some .promise)
    (none : σ.heap.received s = []) (alive : σ.heap.destroyed s = false) : ¬ σ.heap.Decided s := by
  intro decided
  have bound := ok.inv.decisions.receivedLe s (Or.inl made)
  rw [none, List.length_nil] at bound
  by_cases broken : σ.heap.outcome s = some .brokenPromise
  · have gone := (Heap.retired_promise made).mp (ok.inv.decisions.broken s broken).1
    rw [alive] at gone
    cases gone
  · have walked := ok.inv.walked_iff.mpr ⟨decided, broken⟩
    omega

/-- A closure is called at most once for each result that its antecedent received, and once if its
antecedent was decided when it was registered. -/
theorem invocations_le (ok : σ.Ok) {d s : StateId} {callable : Callable}
    (made : σ.heap.origin d = some (.derived s callable)) (promised : σ.heap.Promised s) :
    σ.heap.invocations d ≤ max 1 (σ.heap.received s).length := by
  by_cases stored : σ.heap.appended d = true
  · have walked := (ok.inv.counts.stored d s callable made stored).1
    have bound := ok.inv.decisions.receivedLe s promised
    omega
  · have once := (ok.inv.counts.inline d s callable made (by simpa using stored)).1
    omega

end Config.Ok

/-- In every reachable configuration a callable passed to `Then` on the future of a promise has not
been called before the promise received its result; once the promise received one result, it is
called at most once, only when `Get` reports that result, and whenever no completing call and no
`Then` is in progress on the two states it was called once and the derived future holds what it
returned or threw. -/
theorem then_once (reached : (runtime V ε X).Reachable σ) {s d : StateId}
    (made : σ.heap.origin s = some .promise) (derived : σ.heap.origin d = some (.derived s .user)) :
    (σ.heap.received s = [] → σ.heap.destroyed s = false → σ.heap.invocations d = 0) ∧
    ∀ result, σ.heap.received s = [result] →
      σ.heap.invocations d ≤ 1 ∧
      (0 < σ.heap.invocations d → (σ.heap.cell s).get = some result) ∧
      (Idle σ.pending s → Idle σ.pending d → σ.heap.invocations d = 1 ∧
        ∃ returned, σ.heap.received d = [returned] ∧
          σ.heap.outcome d = some returned.outcome) := by
  have ok := Config.ok reached
  refine ⟨fun none alive => ?_, fun result one => ⟨?_, fun called => ?_, fun walked idle => ?_⟩⟩
  · by_contra called
    exact ok.undecided_of_live made none alive
      (ok.called_decided derived (Nat.pos_of_ne_zero called))
  · have bound := ok.invocations_le derived (Or.inl made)
    rwa [one, List.length_singleton, max_self] at bound
  · have unbroken := ok.unbroken_of_received (Or.inl made) (by simp [one])
    have walked := ok.inv.walked_iff.mpr ⟨ok.called_decided derived called, unbroken⟩
    exact Heap.get_of_outcome (ok.inv.decisions.receivedOutcome s (Or.inl made) result one walked)
  · have once : σ.heap.invocations d = 1 := by
      rw [ok.inv.called idle walked derived, (ok.inv.received_one walked (Or.inl made) one).1,
        ite_self]
    exact ⟨once, ok.inv.called_once idle ⟨s, _, derived⟩ once⟩

/-- A promise is completed by one thread while another one registers a second callable; the first
callable throws. -/
def thenRun : List (Event Nat String Empty) :=
  [Event.call 0 (.newPromise false), Event.call 0 (.then 0 false)] ++
    List.replicate 3 (Event.run 0) ++
    [Event.call 0 (.complete 0 (.ok (.val 5))), Event.run 0, Event.call 1 (.then 0 true),
      Event.run 1, Event.run 0, Event.run 1, Event.run 0, Event.ret 1 (.ok .void),
      Event.ret 0 (.error (.user "thrown"))] ++ List.replicate 3 (Event.run 0) ++
    List.replicate 6 (Event.run 1)

/-- The run can be replayed. -/
theorem thenRun_replays :
    ((runtime Nat String Empty).replay (Config.start 2) thenRun).isSome = true := by
  decide +kernel

/-- The end of the run. -/
def thenEnd : Config Nat String Empty := .after 2 thenRun thenRun_replays

/-- The callable that threw was called once. -/
theorem thenRun_once : thenEnd.heap.invocations 1 = 1 ∧
    ∃ returned, thenEnd.heap.received 1 = [returned] ∧
      thenEnd.heap.outcome 1 = some returned.outcome :=
  have made : thenEnd.heap.origin 0 = some .promise := by decide +kernel
  have derived : thenEnd.heap.origin 1 = some (.derived 0 .user) := by decide +kernel
  have one : thenEnd.heap.received 0 = [.ok (.val 5)] := by decide +kernel
  ((then_once (Config.reachable_after thenRun_replays) made derived).2 _ one).2.2
    (by decide +kernel) (by decide +kernel)

/-! ## Before and after -/

/-- A derived state `d` that `Then` with a callable computing `f` has made from a promise's state
`s`, which was decided once, when no call on the two is in progress. -/
structure Config.ThenOf (σ : Config V ε X) (f : Outcome (Value V) ε → Result V ε)
    (s d : StateId) : Prop where
  antecedent : σ.heap.origin s = some .promise
  derived : σ.heap.origin d = some (.derived s .user)
  decided : σ.heap.Decided s
  once : (σ.heap.received s).length ≤ 1
  computes : ∀ o, σ.heap.outcome s = some o → ∀ result ∈ σ.heap.received d, result = f o
  walked : Idle σ.pending s
  idle : Idle σ.pending d

namespace Config.Ok

/-- A callable that was called once on a decided future leaves its result in the derived one. -/
theorem then_called (ok : σ.Ok) {f : Outcome (Value V) ε → Result V ε} {s d : StateId}
    (then_ : σ.ThenOf f s d) (called : σ.heap.invocations d = 1) {o : Outcome (Value V) ε}
    (outcome : σ.heap.outcome s = some o) : σ.heap.outcome d = some (f o).outcome := by
  obtain ⟨result, one, held⟩ := ok.inv.called_once then_.idle ⟨s, _, then_.derived⟩ called
  rw [held, then_.computes o outcome result (by simp [one])]

/-- A stored callable is not called by the end of the antecedent's promise. -/
theorem then_broken (ok : σ.Ok) {f : Outcome (Value V) ε → Result V ε} {s d : StateId}
    (then_ : σ.ThenOf f s d)
    (stored : σ.heap.appended d = true) (broken : σ.heap.outcome s = some .brokenPromise) :
    σ.heap.invocations d = 0 := by
  rw [ok.inv.called then_.idle then_.walked then_.derived, if_pos stored]
  exact (ok.inv.decisions.broken s broken).2

/-- A stored callable is called once by the one completing call of the antecedent. -/
theorem then_completed (ok : σ.Ok) {f : Outcome (Value V) ε → Result V ε} {s d : StateId}
    (then_ : σ.ThenOf f s d)
    (stored : σ.heap.appended d = true) (unbroken : σ.heap.outcome s ≠ some .brokenPromise) :
    σ.heap.invocations d = 1 := by
  rw [ok.inv.called then_.idle then_.walked then_.derived, if_pos stored]
  have walked := ok.inv.walked_iff.mpr ⟨then_.decided, unbroken⟩
  have bound := ok.inv.decisions.receivedLe s (Or.inl then_.antecedent)
  have once := then_.once
  omega

end Config.Ok

/-- The same callable registered before its antecedent was decided and after: whether it is called
and what the derived future holds agree exactly if the antecedent was not broken. -/
theorem then_commutes_iff (reached : (runtime V ε X).Reachable σ)
    (other : (runtime V ε X).Reachable τ) {f : Outcome (Value V) ε → Result V ε}
    {s d t e : StateId} (before : σ.ThenOf f s d) (after : τ.ThenOf f t e)
    (same : σ.heap.outcome s = τ.heap.outcome t) (stored : σ.heap.appended d = true)
    (unstored : τ.heap.appended e = false) :
    ((0 < σ.heap.invocations d ↔ 0 < τ.heap.invocations e) ∧
      σ.heap.outcome d = τ.heap.outcome e) ↔ σ.heap.outcome s ≠ some .brokenPromise := by
  have ok := Config.ok reached
  have otherOk := Config.ok other
  have inline : τ.heap.invocations e = 1 := by
    rw [otherOk.inv.called after.idle after.walked after.derived, unstored]
    rfl
  constructor
  · rintro ⟨agree, -⟩ broken
    rw [ok.then_broken before stored broken, inline] at agree
    exact absurd (agree.mpr Nat.one_pos) (Nat.lt_irrefl _)
  · intro unbroken
    have walked := ok.then_completed before stored unbroken
    obtain ⟨o, outcome⟩ := Option.ne_none_iff_exists'.mp before.decided
    rw [walked, inline, ok.then_called before walked outcome,
      otherOk.then_called after inline (same.symm.trans outcome)]
    exact ⟨Iff.rfl, rfl⟩

/-- `Then`, then a way to decide the antecedent, and what follows. -/
def beforeRun (way : Api Nat String) (rest : List (Event Nat String Empty)) :
    List (Event Nat String Empty) :=
  [Event.call 0 (.newPromise false), Event.call 0 (.then 0 false)] ++
    List.replicate 3 (Event.run 0) ++ [Event.call 0 way] ++ rest

/-- A way to decide the antecedent, then `Then`, whose callable returns 7. -/
def afterRun (way : Api Nat String) : List (Event Nat String Empty) :=
  [Event.call 0 (.newPromise false), Event.call 0 way, Event.run 0, Event.run 0,
      Event.call 0 (.then 0 false), Event.run 0, Event.run 0, Event.ret 0 (.ok (.val 7))] ++
    List.replicate 6 (Event.run 0)

/-- Completed with 5; the callable returns 7. -/
def completedBefore : List (Event Nat String Empty) :=
  beforeRun (.complete 0 (.ok (.val 5)))
    (List.replicate 3 (.run 0) ++ [.ret 0 (.ok (.val 7))] ++ List.replicate 3 (.run 0))

/-- Completed with 5; the callable returns 7. -/
def completedAfter : List (Event Nat String Empty) := afterRun (.complete 0 (.ok (.val 5)))

/-- The promise is destroyed uncompleted. -/
def brokenBefore : List (Event Nat String Empty) :=
  beforeRun (.destroyPromise 0) (List.replicate 6 (.run 0))

/-- The promise is destroyed uncompleted; the callable returns 7. -/
def brokenAfter : List (Event Nat String Empty) := afterRun (.destroyPromise 0)

/-- The four runs can be replayed. -/
theorem commutingRuns_replay :
    ((runtime Nat String Empty).replay (Config.start 1) completedBefore).isSome = true ∧
    ((runtime Nat String Empty).replay (Config.start 1) completedAfter).isSome = true ∧
    ((runtime Nat String Empty).replay (Config.start 1) brokenBefore).isSome = true ∧
    ((runtime Nat String Empty).replay (Config.start 1) brokenAfter).isSome = true := by
  decide +kernel

/-- `Config.ThenOf` for a callable that returns 7, from facts that can be evaluated. -/
theorem Config.ThenOf.returns {σ : Config Nat String Empty} (s d : StateId)
    (facts : σ.heap.origin s = some .promise ∧ σ.heap.origin d = some (.derived s .user) ∧
      σ.heap.Decided s ∧ (σ.heap.received s).length ≤ 1 ∧ σ.heap.received d ⊆ [.ok (.val 7)])
    (walked : Idle σ.pending s) (idle : Idle σ.pending d) :
    σ.ThenOf (fun _ => .ok (.val 7)) s d :=
  have ⟨antecedent, derived, decided, once, returned⟩ := facts
  ⟨antecedent, derived, decided, once, fun _ _ _ inside => List.mem_singleton.mp (returned inside),
    walked, idle⟩

/-- For a completed promise the two orders agree. -/
theorem completed_commutes :
    (0 < (Config.after 1 completedBefore commutingRuns_replay.1).heap.invocations 1 ↔
      0 < (Config.after 1 completedAfter commutingRuns_replay.2.1).heap.invocations 1) ∧
    (Config.after 1 completedBefore commutingRuns_replay.1).heap.outcome 1 =
      (Config.after 1 completedAfter commutingRuns_replay.2.1).heap.outcome 1 :=
  (then_commutes_iff (Config.reachable_after commutingRuns_replay.1)
    (Config.reachable_after commutingRuns_replay.2.1)
    (.returns 0 1 (by decide +kernel) (by decide +kernel) (by decide +kernel))
    (.returns 0 1 (by decide +kernel) (by decide +kernel) (by decide +kernel))
    (by decide +kernel) (by decide +kernel) (by decide +kernel)).mpr (by decide +kernel)

/-- For a broken promise they do not: only the later callable is called. -/
theorem broken_not_commuting :
    ¬ ∀ (σ τ : Config Nat String Empty) (f : Outcome (Value Nat) String → Result Nat String)
      (s d t e : StateId), (runtime Nat String Empty).Reachable σ →
      (runtime Nat String Empty).Reachable τ → σ.ThenOf f s d → τ.ThenOf f t e →
      σ.heap.outcome s = τ.heap.outcome t →
      σ.heap.appended d = true → τ.heap.appended e = false →
      (0 < σ.heap.invocations d ↔ 0 < τ.heap.invocations e) ∧
        σ.heap.outcome d = τ.heap.outcome e := by
  intro commutes
  have agree := commutes (Config.after 1 brokenBefore commutingRuns_replay.2.2.1)
    (Config.after 1 brokenAfter commutingRuns_replay.2.2.2) (fun _ => .ok (.val 7)) 0 1 0 1
    (Config.reachable_after _) (Config.reachable_after _)
    (.returns 0 1 (by decide +kernel) (by decide +kernel) (by decide +kernel))
    (.returns 0 1 (by decide +kernel) (by decide +kernel) (by decide +kernel))
    (by decide +kernel) (by decide +kernel) (by decide +kernel)
  exact absurd (agree.1.mpr (by decide +kernel)) (by decide +kernel)

end Azul.Async
