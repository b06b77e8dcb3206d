import Azul.Async.Idle

/-!
# What makes a `WhenAny` ready

The state of a `WhenAny` is completed by the call of one of its closures. An input calls the
closure when it is completed, or at once when it was decided before; an input whose promise ends
with the closure still stored destroys it without a call. So `WhenAny` hears of every way to decide
an input but that one.
-/

namespace Azul.Async

open Foundation

variable {V ε X : Type} {σ : Config V ε X}

/-- `WhenAny` hears of an input: the input holds a value or an exception, or it was decided when
the closure was registered. -/
def Heap.Heard (h : Heap V ε) (any : StateId) : Prop :=
  ∃ d s, h.origin d = some (.derived s (.fire any)) ∧
    (h.Decided s ∧ h.outcome s ≠ some .brokenPromise ∨ h.appended d = false)

/-- When no call is in progress, the state of a `WhenAny` is decided exactly if it has heard of an
input. -/
theorem Config.Ok.whenAny_iff_heard (ok : σ.Ok) (quiet : Quiet σ.pending) {any : StateId}
    {inputs : List StateId} (made : σ.heap.origin any = some (.whenAny inputs)) :
    σ.heap.Decided any ↔ σ.heap.Heard any := by
  constructor
  · intro decided
    obtain ⟨d, s, derived, called⟩ := ok.inv.registrations.fired any inputs made (Or.inl decided)
    refine ⟨d, s, derived, ?_⟩
    rw [ok.inv.called (quiet.idle d) (quiet.idle s) derived] at called
    by_cases stored : σ.heap.appended d = true
    · rw [if_pos stored] at called
      exact Or.inl (ok.inv.walked_iff.mp called)
    · exact Or.inr (by simpa using stored)
  · rintro ⟨d, s, derived, heard⟩
    have called : 0 < σ.heap.invocations d := by
      rw [ok.inv.called (quiet.idle d) (quiet.idle s) derived]
      rcases heard with completed | unstored
      · have walked := ok.inv.walked_iff.mpr completed
        split <;> omega
      · rw [unstored]
        exact Nat.one_pos
    exact (quiet.idle any).firing_iff.mp (ok.inv.registrations.fires d s any derived called)

/-- `WhenAny` hears only of decided inputs. -/
theorem Config.Ok.heard_decided (ok : σ.Ok) (quiet : Quiet σ.pending) {any : StateId}
    {inputs : List StateId} (made : σ.heap.origin any = some (.whenAny inputs))
    (heard : σ.heap.Heard any) : ∃ s ∈ inputs, σ.heap.Decided s := by
  obtain ⟨d, s, derived, heard⟩ := heard
  obtain ⟨-, ⟨others, same, input⟩, -⟩ := ok.inv.layout.originOk derived
  cases made.symm.trans same
  refine ⟨s, input, ?_⟩
  rcases heard with completed | unstored
  · exact completed.1
  · exact ok.inv.inline_decided (quiet.idle d) derived unstored

/-- When no call is in progress, `WhenAny` has heard of every input that holds a value or an
exception. -/
theorem Config.Ok.heard_of_unbroken (ok : σ.Ok) (quiet : Quiet σ.pending) {any s : StateId}
    {inputs : List StateId} (made : σ.heap.origin any = some (.whenAny inputs)) (input : s ∈ inputs)
    (decided : σ.heap.Decided s) (unbroken : σ.heap.outcome s ≠ some .brokenPromise) :
    σ.heap.Heard any := by
  rcases ok.inv.registrations.any any inputs made s input with pending | ⟨d, derived⟩
  · exact absurd pending (quiet.notMem rfl)
  · exact ⟨d, s, derived, Or.inl ⟨decided, unbroken⟩⟩

/-- What the future of a `WhenAny` is for: it is ready exactly if an input is. -/
def Heap.AnyReady (h : Heap V ε) (any : StateId) (inputs : List StateId) : Prop :=
  h.Decided any ↔ ∃ s ∈ inputs, h.Decided s

/-- Whenever no call is in progress, the future of a `WhenAny` is ready exactly if an input is, if
and only if no input is decided or it has heard of one. -/
theorem whenAny_ready_iff (reached : (runtime V ε X).Reachable σ) (quiet : Quiet σ.pending)
    {any : StateId} {inputs : List StateId} (made : σ.heap.origin any = some (.whenAny inputs)) :
    σ.heap.AnyReady any inputs ↔ ((∀ s ∈ inputs, ¬ σ.heap.Decided s) ∨ σ.heap.Heard any) := by
  have ok := Config.ok reached
  unfold Heap.AnyReady
  rw [ok.whenAny_iff_heard quiet made]
  constructor
  · intro ready
    by_cases decided : ∃ s ∈ inputs, σ.heap.Decided s
    · exact Or.inr (ready.mpr decided)
    · exact Or.inl fun s input was => decided ⟨s, input, was⟩
  · rintro (undecided | heard)
    · constructor
      · exact ok.heard_decided quiet made
      · rintro ⟨s, input, decided⟩
        exact absurd decided (undecided s input)
    · exact ⟨ok.heard_decided quiet made, fun _ => heard⟩

/-- A `WhenAny` is ready with the first of its futures that holds a value. -/
example : ((runtime Nat String Empty).replay (Config.start 1)
    ([Event.call 0 (.newPromise false), Event.call 0 (.newPromise false),
        Event.call 0 (.whenAny [0, 1])] ++ List.replicate 8 (Event.run 0) ++
      Event.call 0 (.complete 1 (.ok (.val 5))) :: List.replicate 6 (Event.run 0))).map
        (fun σ => σ.heap.outcome 2) = some (some (.value .void)) := by
  decide +kernel

/-- `WhenAny` of one promise that is destroyed uncompleted. -/
def whenAnyRun : List (Event Nat String Empty) :=
  [Event.call 0 (.newPromise true), Event.call 0 (.whenAny [0])] ++
    List.replicate 4 (Event.run 0) ++ [Event.call 0 (.destroyPromise 0)] ++
    List.replicate 6 (Event.run 0)

/-- The run can be replayed. -/
theorem whenAnyRun_replays :
    ((runtime Nat String Empty).replay (Config.start 1) whenAnyRun).isSome = true := by
  decide +kernel

/-- The end of the run. -/
def whenAnyEnd : Config Nat String Empty :=
  .after 1 whenAnyRun whenAnyRun_replays

/-- At the end of the run the input is decided, the `WhenAny` is not, and no call is in progress. -/
theorem whenAny_not_ready :
    ¬ ∀ σ : Config Nat String Empty, (runtime Nat String Empty).Reachable σ → Quiet σ.pending →
      ∀ any inputs, inputs ≠ [] → σ.heap.origin any = some (.whenAny inputs) →
        σ.heap.AnyReady any inputs := by
  intro ready
  have here := ready whenAnyEnd (Config.reachable_after whenAnyRun_replays) (by decide +kernel) 1
    [0] (by decide) (by decide +kernel)
  have decided : whenAnyEnd.heap.Decided 1 := here.mpr ⟨0, by decide +kernel⟩
  exact absurd decided (by decide +kernel)

/-- The condition fails at the end of the run. -/
theorem whenAnyRun_unheard :
    ¬ ((∀ s ∈ [0], ¬ whenAnyEnd.heap.Decided s) ∨ whenAnyEnd.heap.Heard 1) := by
  intro condition
  have ready := (whenAny_ready_iff (Config.reachable_after whenAnyRun_replays) (by decide +kernel)
    (by decide +kernel : whenAnyEnd.heap.origin 1 = some (.whenAny [0]))).mpr condition
  have decided : whenAnyEnd.heap.Decided 1 := ready.mpr ⟨0, by decide +kernel⟩
  exact absurd decided (by decide +kernel)

end Azul.Async
