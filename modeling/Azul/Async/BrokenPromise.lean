import Azul.Async.Idle
import Mathlib.Algebra.BigOperators.Group.Finset.Basic
import Mathlib.Algebra.GroupWithZero.Nat

/-!
# A broken promise breaks everything chained on it

`AboutToDestroyPromise` clears the continuations, which destroys closures, which end the promises
they own, and so on down the tree that `Then` has built. Each of these steps shortens a list or
works off what a shortened list has left, so the destructor returns; and once it has, nothing owns a
closure of the tree any more.
-/

namespace Azul.Async

open Foundation

variable {V ε X : Type} {σ τ : Config V ε X}

/-- The tree of states that `Then` has derived from a state, at any depth. -/
inductive Heap.Descends (h : Heap V ε) (s : StateId) : StateId → Prop
  | root : Descends h s s
  | then {a d : StateId} {callable : Callable} (parent : Descends h s a)
      (made : h.origin d = some (.derived a callable)) : Descends h s d

/-- The tree depends on who made what. -/
theorem Heap.Descends.of_origin {h h' : Heap V ε} {s d : StateId} (same : h'.origin = h.origin)
    (descends : h.Descends s d) : h'.Descends s d := by
  induction descends with
  | root => exact .root
  | «then» parent made ih => exact .then ih (same ▸ made)

namespace Config.Ok

/-- Everything chained on an undecided promise waits while nothing concerns it: it is undecided, and
its closure is stored. -/
theorem waiting (ok : σ.Ok) {s d : StateId}
    (untouched : ∀ d, σ.heap.Descends s d → Untouched σ.pending d)
    (made : σ.heap.origin s = some .promise) (undecided : ¬ σ.heap.Decided s)
    (descends : σ.heap.Descends s d) :
    ¬ σ.heap.Decided d ∧ ∀ a callable, σ.heap.origin d = some (.derived a callable) →
      σ.heap.appended d = true := by
  induction descends with
  | root =>
    refine ⟨undecided, fun a callable clash => ?_⟩
    cases made.symm.trans clash
  | @«then» a d callable parent derived ih =>
    have walked := (untouched a parent).idle
    have idle := (untouched d (.then parent derived)).idle
    have stored : σ.heap.appended d = true := by
      by_contra unstored
      exact ih.1 (ok.inv.inline_decided idle derived (by simpa using unstored))
    refine ⟨fun decided => ?_, fun _ _ _ => stored⟩
    have uncalled : σ.heap.invocations d = 0 := by
      rw [ok.inv.called idle walked derived, if_pos stored, ok.inv.decisions.unwalked a ih.1]
    have bound := ok.inv.decisions.receivedLe d (Or.inr ⟨a, callable, derived⟩)
    have returned := ok.inv.decisions.returned d ⟨a, callable, derived⟩
    by_cases broken : σ.heap.outcome d = some .brokenPromise
    · have gone := (Heap.retired_derived derived).mp (ok.inv.decisions.broken d broken).1
      rcases ok.inv.counts.kept d a callable derived stored with listed | ⟨-, clash⟩
      · have live := ok.inv.counts.listed_live derived listed
        simp [gone] at live
      · exact ih.1 clash
    · have completed := ok.inv.walked_iff.mpr ⟨decided, broken⟩
      omega

/-- Everything stored below a promise that was destroyed uncompleted is broken, and was not called,
when nothing concerns it any more. -/
theorem broken_tree (ok : σ.Ok) {s d : StateId}
    (untouched : ∀ d, σ.heap.Descends s d → Untouched σ.pending d)
    (made : σ.heap.origin s = some .promise) (gone : σ.heap.destroyed s = true)
    (uncompleted : σ.heap.received s = [])
    (stored : ∀ d a callable, σ.heap.Descends s a →
      σ.heap.origin d = some (.derived a callable) → σ.heap.appended d = true)
    (descends : σ.heap.Descends s d) :
    σ.heap.Retired d ∧ σ.heap.outcome d = some .brokenPromise ∧ σ.heap.received d = [] ∧
      ∀ a callable, σ.heap.origin d = some (.derived a callable) → σ.heap.invocations d = 0 := by
  have broken {d : StateId} (inside : σ.heap.Descends s d) (retired : σ.heap.Retired d)
      (none : σ.heap.received d = []) : σ.heap.outcome d = some .brokenPromise := by
    by_contra unbroken
    have walked := ok.inv.walked_iff.mpr
      ⟨(ok.inv.retired_cleared (untouched d inside) retired).1, unbroken⟩
    have bound := ok.inv.decisions.receivedLe d retired.promised
    rw [none, List.length_nil] at bound
    omega
  induction descends with
  | root =>
    have retired := (Heap.retired_promise made).mpr gone
    refine ⟨retired, broken .root retired uncompleted, uncompleted, fun a callable clash => ?_⟩
    cases made.symm.trans clash
  | @«then» a d callable parent derived ih =>
    obtain ⟨ended, outcome, -, -⟩ := ih
    have here := Heap.Descends.then parent derived
    have uncalled : σ.heap.invocations d = 0 := by
      rw [ok.inv.called (untouched d here).idle (untouched a parent).idle derived,
        if_pos (stored d a callable parent derived), (ok.inv.decisions.broken a outcome).2]
    have none : σ.heap.received d = [] := by
      have returned := ok.inv.decisions.returned d ⟨a, callable, derived⟩
      exact List.length_eq_zero_iff.mp (by omega)
    have retired : σ.heap.Retired d := by
      refine (Heap.retired_derived derived).mpr
        (Finset.eq_empty_of_forall_notMem fun copy live => ?_)
      have listed := (ok.inv.copies_listed (untouched d here) derived live).2
      simp [(ok.inv.retired_cleared (untouched a parent) ended).2] at listed
    exact ⟨retired, broken here retired none, none, fun _ _ _ => uncalled⟩

end Config.Ok

/-! ## The destructor returns -/

/-- How many steps the end of a promise still takes, apart from those for listed closures. -/
def Instr.destroyWork : Instr V ε X → Nat
  | .destroyClosure _ _ => 3
  | .aboutToDestroyPromise _ => 2
  | .clear _ => 1
  | _ => 0

/-- The closures in all lists. -/
def Heap.listedClosures (h : Heap V ε) : Nat :=
  ∑ s ∈ Finset.range h.next, (h.cell s).continuations.length

/-- A bound on the steps until a thread that only destroys has nothing left to destroy. -/
def Config.destroyWork (σ : Config V ε X) (thread : Nat) : Nat :=
  4 * σ.heap.listedClosures + ((σ.threads.getD thread []).map Instr.destroyWork).sum

/-- The instruction destroys part of the tree of a state. -/
def Instr.Breaks (h : Heap V ε) (s : StateId) : Instr V ε X → Prop
  | .aboutToDestroyPromise d | .clear d => h.Descends s d
  | .destroyClosure d _ => h.Descends s d ∧ ∃ a, h.origin d = some (.derived a .user)
  | _ => False

/-- What the destructor of a promise leaves alone. -/
structure Heap.Unmoved (h h' : Heap V ε) : Prop where
  next : h'.next = h.next
  origin : h'.origin = h.origin
  destroyed : h'.destroyed = h.destroyed
  received : h'.received = h.received
  appended : h'.appended = h.appended

/-- The destructor of a promise is running in a thread, on top of what the thread did before. -/
structure Breaking (σ : Config V ε X) (s : StateId) (thread : Nat) (base : List (Instr V ε X))
    (τ : Config V ε X) : Prop where
  reached : (runtime V ε X).Reachable τ
  unmoved : σ.heap.Unmoved τ.heap
  stack : ∃ code, τ.threads = σ.threads.set thread (code ++ base) ∧
    ∀ x ∈ code, x.Breaks σ.heap s

/-- Shortening one list counts. -/
theorem Heap.listedClosures_keep {h : Heap V ε} {s d : StateId} {rest : List StateId}
    (old : s < h.next) (found : (h.cell s).continuations = d :: rest) :
    (h.keepContinuations s rest).listedClosures + 1 = h.listedClosures := by
  have inside : s ∈ Finset.range h.next := Finset.mem_range.mpr old
  have longer : h.listedClosures = (rest.length + 1) +
      ∑ t ∈ (Finset.range h.next).erase s, (h.cell t).continuations.length := by
    refine (Finset.add_sum_erase _ _ inside).symm.trans ?_
    rw [found, List.length_cons]
  have shorter : (h.keepContinuations s rest).listedClosures = rest.length +
      ∑ t ∈ (Finset.range h.next).erase s, (h.cell t).continuations.length := by
    refine (Finset.add_sum_erase _ _ inside).symm.trans ?_
    rw [FutureState.continuations_update, if_pos rfl]
    refine congrArg _ (Finset.sum_congr rfl fun t member => ?_)
    rw [FutureState.continuations_update, if_neg (Finset.mem_erase.mp member).1]
  omega

/-- Breaking a promise lists nothing. -/
theorem Heap.listedClosures_breakPromise (h : Heap V ε) (s : StateId) :
    (h.breakPromise s).listedClosures = h.listedClosures :=
  Finset.sum_congr rfl fun t _ => by rw [FutureState.continuations_update_same (by simp)]

namespace Breaking

variable {s : StateId} {thread : Nat} {base : List (Instr V ε X)}

/-- What the thread does next, when it has something left to destroy. -/
theorem next (breaking : Breaking σ s thread base τ) (inside : thread < σ.threads.length)
    {x : Instr V ε X} {code new : List (Instr V ε X)} {heap : Heap V ε}
    (stack : τ.threads = σ.threads.set thread (x :: code ++ base))
    (rest : ∀ y ∈ code, y.Breaks σ.heap s) (executed : execute τ.heap x = some (heap, new))
    (unmoved : τ.heap.Unmoved heap) (breaks : ∀ y ∈ new, y.Breaks σ.heap s)
    (less : 4 * heap.listedClosures + (new.map Instr.destroyWork).sum <
      4 * τ.heap.listedClosures + x.destroyWork) :
    ∃ next, (runtime V ε X).step τ (.run thread) = some next ∧ Breaking σ s thread base next ∧
      next.destroyWork thread < τ.destroyWork thread := by
  have found : τ.threads[thread]? = some (x :: (code ++ base)) := by simp [stack, inside]
  have stepped : (runtime V ε X).step τ (.run thread) =
      some (τ.update thread heap (new ++ (code ++ base))) := by
    refine System.under_step.mpr ⟨trivial, ?_⟩
    simp only [Config.step, found, executed, Option.map_some]
  refine ⟨_, stepped, ⟨breaking.reached.next stepped, ?_, new ++ code, ?_, ?_⟩, ?_⟩
  · exact ⟨unmoved.next.trans breaking.unmoved.next, unmoved.origin.trans breaking.unmoved.origin,
      unmoved.destroyed.trans breaking.unmoved.destroyed,
      unmoved.received.trans breaking.unmoved.received,
      unmoved.appended.trans breaking.unmoved.appended⟩
  · simp [Config.update, stack]
  · intro y member
    rcases List.mem_append.mp member with fresh | old
    · exact breaks y fresh
    · exact rest y old
  · simp only [Config.destroyWork, Config.update, stack]
    simp [inside]
    omega

/-- The destructor goes on until it has destroyed everything it has to. -/
theorem advances (inside : thread < σ.threads.length)
    (tree : ∀ a d callable, σ.heap.Descends s a →
      σ.heap.origin d = some (.derived a callable) → callable = .user)
    (τ : Config V ε X) (breaking : Breaking σ s thread base τ) :
    τ.threads = σ.threads.set thread base ∨
    ∃ next, (runtime V ε X).step τ (.run thread) = some next ∧ Breaking σ s thread base next ∧
      next.destroyWork thread < τ.destroyWork thread := by
  obtain ⟨code, stack, breaks⟩ := breaking.stack
  have layout := (Config.ok breaking.reached).inv.layout
  have same := breaking.unmoved.origin
  cases code with
  | nil => exact Or.inl stack
  | cons x code =>
    right
    have rest (y : Instr V ε X) (member : y ∈ code) := breaks y (List.mem_cons_of_mem x member)
    have head := breaks x List.mem_cons_self
    cases x with
    | aboutToDestroyPromise d =>
      refine breaking.next inside stack rest rfl ⟨rfl, rfl, rfl, rfl, rfl⟩ ?_ ?_
      · intro y member
        exact List.mem_singleton.mp member ▸ head
      · rw [Heap.listedClosures_breakPromise]
        simp [Instr.destroyWork]
    | clear d =>
      cases found : (τ.heap.cell d).continuations with
      | nil =>
        have executed : execute τ.heap (.clear d) = some (τ.heap, ([] : List (Instr V ε X))) := by
          simp only [execute, found]
        exact breaking.next inside stack rest executed ⟨rfl, rfl, rfl, rfl, rfl⟩ (by simp)
          (by simp [Instr.destroyWork])
      | cons e others =>
        obtain ⟨-, callable, made⟩ := layout.listed d e (by simp [found])
        have old : d < τ.heap.next :=
          Nat.lt_trans (layout.originOk made).1 (layout.lt_next made)
        rw [same] at made
        obtain rfl := tree d e callable head made
        have executed : execute τ.heap (.clear d) = some (τ.heap.keepContinuations d others,
            ([.destroyClosure e .listed, .clear d] : List (Instr V ε X))) := by
          simp only [execute, found]
        refine breaking.next inside stack rest executed ⟨rfl, rfl, rfl, rfl, rfl⟩ ?_ ?_
        · intro y member
          rcases List.mem_pair.mp member with rfl | rfl
          · exact ⟨.then head made, d, made⟩
          · exact head
        · have shorter := Heap.listedClosures_keep old found
          simp [Instr.destroyWork]
          omega
    | destroyClosure d copy =>
      obtain ⟨descends, a, made⟩ := head
      have silent : (τ.heap.releaseCallable d copy : List (Instr V ε X)) = [] := by
        simp [Heap.releaseCallable, same, made]
      refine breaking.next inside stack rest rfl ⟨rfl, rfl, rfl, rfl, rfl⟩ ?_ ?_
      · intro y member
        rw [silent, List.append_nil] at member
        split at member
        · exact List.mem_singleton.mp member ▸ descends
        · cases member
      · rw [silent, List.append_nil]
        have kept : (τ.heap.dropCopy d copy).listedClosures = τ.heap.listedClosures := rfl
        rw [kept]
        split <;> simp [Instr.destroyWork]
    | _ => exact head.elim

end Breaking

/-- Destroying an undecided promise on which callables of the program are chained, while no other
call concerns the tree, returns, has called none of them, and has broken every future of the tree.
The thread may be anywhere in the program, and other threads may be in other calls. -/
theorem destroyed_promise_breaks_tree (reached : (runtime V ε X).Reachable σ) {thread : Nat}
    {base : List (Instr V ε X)} (found : σ.threads[thread]? = some base)
    (control : Instr.userLevel base = true) {s : StateId}
    (untouched : ∀ d, σ.heap.Descends s d → Untouched σ.pending d)
    (made : σ.heap.origin s = some .promise) (undecided : ¬ σ.heap.Decided s)
    (alive : σ.heap.destroyed s = false)
    (tree : ∀ a d callable, σ.heap.Descends s a →
      σ.heap.origin d = some (.derived a callable) → callable = .user) :
    ∃ steps τ, (runtime V ε X).replay σ
        (.call thread (.destroyPromise s) :: List.replicate steps (.run thread)) = some τ ∧
      τ.threads = σ.threads ∧
      ∀ d, σ.heap.Descends s d → τ.heap.outcome d = some .brokenPromise ∧
        ∀ a callable, σ.heap.origin d = some (.derived a callable) → τ.heap.invocations d = 0 := by
  have ok := Config.ok reached
  have inside := (List.getElem?_eq_some_iff.mp found).1
  have disciplined : Disciplined σ (.call thread (.destroyPromise s)) := by
    refine ⟨alive, fun stack member x held => ?_⟩
    have absent := untouched s .root x (Stacks.mem_pending.mpr ⟨stack, member, held⟩)
    cases x <;> first | rfl | exact absent
  let heap : Heap V ε := { σ.heap with destroyed := Function.update σ.heap.destroyed s true }
  let begun : Config V ε X := σ.update thread heap (.aboutToDestroyPromise s :: base)
  have called : (runtime V ε X).step σ (.call thread (.destroyPromise s)) = some begun := by
    refine System.under_step.mpr ⟨disciplined, ?_⟩
    simp only [Config.step, found, control, if_true, Heap.begin, made, Option.map_some]
    rfl
  have start : Breaking begun s thread base begun := by
    refine ⟨reached.next called, ⟨rfl, rfl, rfl, rfl, rfl⟩, [.aboutToDestroyPromise s], ?_, ?_⟩
    · simp [begun, Config.update]
    · intro x member
      exact List.mem_singleton.mp member ▸ Heap.Descends.root
  have bound : thread < begun.threads.length := by simpa [begun, Config.update] using inside
  obtain ⟨steps, τ, replayed, breaking, returned⟩ := System.replay_until
    (Breaking.advances bound fun a d callable descends => tree a d callable
      (Heap.Descends.of_origin (h := begun.heap) rfl descends)) begun start
  have threads : τ.threads = σ.threads := by
    have back : τ.threads = σ.threads.set thread base := by
      simpa [begun, Config.update] using returned
    obtain ⟨_, rfl⟩ := List.getElem?_eq_some_iff.mp found
    rw [back, List.set_getElem_self]
  refine ⟨steps, τ, ?_, threads, fun d descends => ?_⟩
  · rw [System.replay, called, Option.bind_some, replayed]
  · have origin : τ.heap.origin = σ.heap.origin := breaking.unmoved.origin
    have nothing : σ.heap.received s = [] := by
      by_contra some
      exact undecided (ok.inv.walked_iff.mp
        (ok.inv.received_walked (untouched s .root).idle (Or.inl made) some)).1
    have result := (Config.ok breaking.reached).broken_tree (s := s) (d := d)
      (fun e below => by
        rw [Config.pending, threads]
        exact untouched e (below.of_origin origin.symm))
      (origin ▸ made)
      ((congrFun breaking.unmoved.destroyed s).trans (Function.update_self ..))
      ((congrFun breaking.unmoved.received s).trans nothing)
      (fun e a callable parent derived => (congrFun breaking.unmoved.appended e).trans
        ((ok.waiting untouched made undecided
          (.then (parent.of_origin origin.symm) (origin ▸ derived))).2 a callable
          (origin ▸ derived)))
      (descends.of_origin origin)
    exact ⟨result.2.1, fun a callable derived => result.2.2.2 a callable (origin ▸ derived)⟩

/-- Two callables chained on a promise, and a third one on the first of them. -/
def treeRun : List (Event Nat String Empty) :=
  [Event.call 0 (.newPromise false), Event.call 0 (.then 0 false)] ++
    List.replicate 3 (Event.run 0) ++ [Event.call 0 (.then 0 true)] ++
    List.replicate 3 (Event.run 0) ++ [Event.call 0 (.then 1 false)] ++
    List.replicate 3 (Event.run 0)

/-- The run can be replayed. -/
theorem treeRun_replays :
    ((runtime Nat String Empty).replay (Config.start 1) treeRun).isSome = true := by
  decide +kernel

/-- The end of the run. -/
def treeEnd : Config Nat String Empty := .after 1 treeRun treeRun_replays

/-- Destroying the promise breaks the future at the bottom of the tree. -/
theorem treeRun_breaks : ∃ steps τ, (runtime Nat String Empty).replay treeEnd
    (.call 0 (.destroyPromise 0) :: List.replicate steps (.run 0)) = some τ ∧
    τ.heap.outcome 3 = some .brokenPromise := by
  have reached : (runtime Nat String Empty).Reachable treeEnd := Config.reachable_after _
  have quiet : Quiet treeEnd.pending := by decide +kernel
  have makers : ∀ d < treeEnd.heap.next, treeEnd.heap.origin d ∈
      [some .promise, some (.derived 0 .user), some (.derived 1 .user)] := by decide +kernel
  have tree (a d : StateId) (callable : Callable) (_ : treeEnd.heap.Descends 0 a)
      (made : treeEnd.heap.origin d = some (.derived a callable)) : callable = .user := by
    have known := makers d ((Config.ok reached).inv.layout.lt_next made)
    rw [made] at known
    simp at known
    rcases known with ⟨-, user⟩ | ⟨-, user⟩ <;> exact user
  have control : treeEnd.threads[0]? = some [] := by rfl
  have promise : treeEnd.heap.origin 0 = some .promise := by decide +kernel
  have upper : treeEnd.heap.origin 1 = some (.derived 0 .user) := by decide +kernel
  have lower : treeEnd.heap.origin 3 = some (.derived 1 .user) := by decide +kernel
  obtain ⟨steps, τ, replayed, -, broken⟩ := destroyed_promise_breaks_tree reached control rfl
    (fun d _ => quiet.untouched d) promise (by decide +kernel) (by decide +kernel) tree
  exact ⟨steps, τ, replayed, (broken 3 (.then (.then .root upper) lower)).1⟩

end Azul.Async
