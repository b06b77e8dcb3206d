import Azul.Async.WhenAll
import Azul.Async.WhenAny

/-!
# Boolean expressions over futures

`operator&&` is `WhenAll` of two futures and `operator||` is `WhenAny` of two, so an expression is a
tree of combinators over promises. Its meaning is a monotone Boolean formula over the promises that
have been completed; the induction over the tree uses what the two combinators guarantee, and that
the state of a combinator is never broken.
-/

namespace Azul.Async

open Foundation

variable {V ε X : Type} {σ : Config V ε X}

/-- An expression built with `operator&&` and `operator||`. -/
inductive Expression
  /-- The future of a promise. -/
  | future (s : StateId)
  /-- `operator&&`. -/
  | and (left right : Expression)
  /-- `operator||`. -/
  | or (left right : Expression)

namespace Expression

/-- The formula an expression stands for. -/
def holds (completed : StateId → Prop) : Expression → Prop
  | .future s => completed s
  | .and left right => left.holds completed ∧ right.holds completed
  | .or left right => left.holds completed ∨ right.holds completed

/-- The promises of an expression. -/
def promises : Expression → List StateId
  | .future s => [s]
  | .and left right | .or left right => left.promises ++ right.promises

/-- The state that evaluating an expression has returned the future of. -/
inductive Built (h : Heap V ε) : Expression → StateId → Prop
  | future {s : StateId} (made : h.origin s = some .promise) : Built h (.future s) s
  | and {left right : Expression} {s t root : StateId} (first : Built h left s)
      (second : Built h right t) (made : h.origin root = some (.whenAll [s, t])) :
      Built h (.and left right) root
  | or {left right : Expression} {s t root : StateId} (first : Built h left s)
      (second : Built h right t) (made : h.origin root = some (.whenAny [s, t])) :
      Built h (.or left right) root

end Expression

namespace Config.Ok

/-- When no call is in progress, a promise that was not destroyed uncompleted is decided exactly if
it was completed, and it is not broken. -/
theorem completed_iff (ok : σ.Ok) {s : StateId} (idle : Idle σ.pending s)
    (made : σ.heap.origin s = some .promise)
    (kept : σ.heap.destroyed s = true → σ.heap.received s ≠ []) :
    (σ.heap.Decided s ↔ σ.heap.received s ≠ []) ∧ σ.heap.outcome s ≠ some .brokenPromise := by
  have unbroken : σ.heap.outcome s ≠ some .brokenPromise := by
    intro broken
    obtain ⟨retired, never⟩ := ok.inv.decisions.broken s broken
    have received := kept ((Heap.retired_promise made).mp retired)
    have walked := ok.inv.received_walked idle (Or.inl made) received
    omega
  refine ⟨⟨fun decided none => ?_, fun received => ?_⟩, unbroken⟩
  · have walked := ok.inv.walked_iff.mpr ⟨decided, unbroken⟩
    have bound := ok.inv.decisions.receivedLe s (Or.inl made)
    rw [none, List.length_nil] at bound
    omega
  · exact (ok.inv.walked_iff.mp (ok.inv.received_walked idle (Or.inl made) received)).1

/-- When no call is in progress, the state of an expression is decided exactly if its formula holds
of the completed promises, and it is not broken. -/
theorem expression_iff (ok : σ.Ok) (quiet : Quiet σ.pending) {e : Expression} {root : StateId}
    (built : e.Built σ.heap root)
    (kept : ∀ s ∈ e.promises, σ.heap.destroyed s = true → σ.heap.received s ≠ []) :
    (σ.heap.Decided root ↔ e.holds fun s => σ.heap.received s ≠ []) ∧
      σ.heap.outcome root ≠ some .brokenPromise := by
  induction built with
  | future made => exact ok.completed_iff (quiet.idle _) made (kept _ List.mem_cons_self)
  | @and left right s t root first second made ihFirst ihSecond =>
    obtain ⟨leftIff, -⟩ := ihFirst fun s inside => kept s (List.mem_append_left _ inside)
    obtain ⟨rightIff, -⟩ := ihSecond fun s inside => kept s (List.mem_append_right _ inside)
    refine ⟨?_, fun broken => ?_⟩
    · rw [Expression.holds, ← leftIff, ← rightIff]
      constructor
      · intro decided
        exact ⟨ok.whenAll_inputs made decided (by simp), ok.whenAll_inputs made decided (by simp)⟩
      · rintro ⟨first, second⟩ undecided
        have ready := ok.whenAll_decided quiet made (by simp [first, second])
        cases undecided.symm.trans ready
    · cases ok.inv.decisions.combinator root (Heap.not_promised_whenAll made) _ broken
  | @or left right s t root first second made ihFirst ihSecond =>
    obtain ⟨leftIff, leftWhole⟩ := ihFirst fun s inside => kept s (List.mem_append_left _ inside)
    obtain ⟨rightIff, rightWhole⟩ :=
      ihSecond fun s inside => kept s (List.mem_append_right _ inside)
    refine ⟨?_, fun broken => ?_⟩
    · rw [Expression.holds, ← leftIff, ← rightIff]
      constructor
      · intro decided
        obtain ⟨input, member, ready⟩ := ok.heard_decided quiet made
          ((ok.whenAny_iff_heard quiet made).mp decided)
        rcases List.mem_pair.mp member with rfl | rfl
        · exact Or.inl ready
        · exact Or.inr ready
      · intro ready
        refine (ok.whenAny_iff_heard quiet made).mpr ?_
        rcases ready with first | second
        · exact ok.heard_of_unbroken quiet made (by simp) first leftWhole
        · exact ok.heard_of_unbroken quiet made (by simp) second rightWhole
    · cases ok.inv.decisions.combinator root (Heap.not_promised_whenAny made) _ broken

end Config.Ok

/-- Whenever no call is in progress and no promise of the expression was destroyed uncompleted, the
future of an expression is ready exactly if its formula holds of the completed promises. -/
theorem expression_ready_iff (reached : (runtime V ε X).Reachable σ) (quiet : Quiet σ.pending)
    {e : Expression} {root : StateId} (built : e.Built σ.heap root)
    (kept : ∀ s ∈ e.promises, σ.heap.destroyed s = true → σ.heap.received s ≠ []) :
    σ.heap.Decided root ↔ e.holds fun s => σ.heap.received s ≠ [] :=
  ((Config.ok reached).expression_iff quiet built kept).1

/-- `(a && b) || c`, with `b` completed before and `a` after the expression was built. -/
def expressionRun : List (Event Nat String Empty) :=
  [Event.call 0 (.newPromise false), Event.call 0 (.newPromise true),
      Event.call 0 (.complete 1 (.ok .void))] ++ List.replicate 2 (Event.run 0) ++
    [Event.call 0 (.whenAll [0, 1])] ++ List.replicate 20 (Event.run 0) ++
    [Event.call 0 (.newPromise true), Event.call 0 (.whenAny [2, 5])] ++
    List.replicate 8 (Event.run 0) ++ [Event.call 0 (.complete 0 (.error .null))] ++
    List.replicate 15 (Event.run 0)

/-- The run can be replayed. -/
theorem expressionRun_replays :
    ((runtime Nat String Empty).replay (Config.start 1) expressionRun).isSome = true := by
  decide +kernel

/-- The end of the run. -/
def expressionEnd : Config Nat String Empty := .after 1 expressionRun expressionRun_replays

/-- The run ends with a ready expression. -/
theorem expressionRun_ready : expressionEnd.heap.Decided 6 := by
  have both : Expression.Built expressionEnd.heap (.and (.future 0) (.future 1)) 2 :=
    .and (.future (by decide +kernel)) (.future (by decide +kernel)) (by decide +kernel)
  have root : Expression.Built expressionEnd.heap
      (.or (.and (.future 0) (.future 1)) (.future 5)) 6 :=
    .or both (.future (by decide +kernel)) (by decide +kernel)
  refine (expression_ready_iff (Config.reachable_after expressionRun_replays) (by decide +kernel)
    root (by decide +kernel)).mpr (Or.inl ⟨?_, ?_⟩)
  · exact fun none => absurd (congrArg List.length none) (by decide +kernel)
  · exact fun none => absurd (congrArg List.length none) (by decide +kernel)

end Azul.Async
