import Azul.Compute.LaunchResults

/-!
# Launches that fail

A chunk fails when its kernel throws, or when the destructor of the pool finds its task still
queued. In every run without such a step the kernel has returned normally from every call that the
lambdas of a ready launch make, and when the sizes of the launch fit these calls reach its whole
box. After such a step the future of the launch is ready all the same.
-/

namespace Azul.Compute

open Azul.Foundation Azul.Async

variable {w : Nat} {V ε : Type} {workers : Nat}

namespace LaunchConfig

section Fails

variable (l : Nat) (σ : LaunchConfig w V ε)

/-- The task with this promise is a chunk of a launch. -/
def isChunk (p : StateId) : Bool := (σ.chunks p).any fun chunk => chunk.launch == l

/-- The next event makes a chunk of a launch fail: its kernel throws, or the destructor is about to
clear a queue that it is in. -/
def fails : LaunchEvent w V ε → Bool
  | .kernelReturn thread (some _) => (σ.chunkAt thread).any fun (p, _) => σ.isChunk l p
  | .pool (.run thread _) =>
    match σ.pool.runtime.threads[thread]? with
    | some (.external .shutdownDestroyRemainingTasks :: _) =>
      σ.pool.pool.tasks.any fun task => σ.isChunk l task.promise
    | _ => false
  | _ => false

end Fails

end LaunchConfig

/-- A program in which no chunk of one launch fails. -/
def unfailing (w : Nat) (V ε : Type) (workers l : Nat) :
    System (LaunchConfig w V ε) (LaunchEvent w V ε) :=
  (launchSystem w V ε workers).under fun σ event => σ.fails l event = false

namespace LaunchConfig

variable {σ σ' : LaunchConfig w V ε} {event : LaunchEvent w V ε} {l : Nat}

theorem isChunk_iff {p : StateId} :
    σ.isChunk l p = true ↔ ∃ chunk, σ.chunks p = some chunk ∧ chunk.launch = l := by
  simp [isChunk, Option.any_eq_true]

/-- No chunk of a launch has failed. -/
structure Unfailed (l : Nat) (σ : LaunchConfig w V ε) : Prop where
  returned : ∀ p, σ.isChunk l p = true → ∀ error, σ.pool.pool.results p ≠ some (.error error)
  ended : ∀ p, σ.isChunk l p = true → σ.pool.runtime.heap.destroyed p = true →
    ∃ result, σ.pool.pool.results p = some result

/-- A step that fails no chunk of a launch leaves the old chunks unfailed. -/
theorem Unfailed.below (unfailed : σ.Unfailed l) (ok : σ.Ok workers) {below : PoolEvent V ε}
    {pool : PoolConfig V ε} (taken : σ.pool.step workers below = some pool)
    (careful : σ.fails l event = false) (part : σ.Below event below) {p : StateId}
    (own : σ.isChunk l p = true) : (∀ error, pool.pool.results p ≠ some (.error error)) ∧
      (pool.runtime.heap.destroyed p = true → ∃ result, pool.pool.results p = some result) := by
  have poolOk := PoolConfig.ok ok.reached
  have kind := poolOk.stepped taken
  have still {result : Result V ε} (returned : σ.pool.pool.results p = some result) :
      ∃ result, pool.pool.results p = some result := by
    rcases kind.results with same | ⟨_, value, task, _, -, -, set⟩
    · exact ⟨result, congrFun same p ▸ returned⟩
    · rw [set]
      by_cases mine : p = task.promise
      · exact ⟨value, mine ▸ Function.update_self _ _ _⟩
      · exact ⟨result, (Function.update_of_ne mine _ _).trans returned⟩
  constructor
  · intro error returned
    rcases kind.results with same | ⟨thread, value, task, base, rfl, top, set⟩
    · exact unfailed.returned p own error (congrFun same p ▸ returned)
    · rw [set] at returned
      by_cases mine : p = task.promise
      · subst mine
        rw [Function.update_self] at returned
        cases returned
        obtain ⟨chunk, recorded, -⟩ := isChunk_iff.mp own
        have here : σ.chunkAt thread = some (task.promise, chunk) := by
          simp [chunkAt, top, recorded]
        rcases part.funcReturn thread error rfl with none | rfl
        · cases none.symm.trans here
        · simp [fails, here, own] at careful
      · rw [Function.update_of_ne mine] at returned
        exact unfailed.returned p own error returned
  · intro gone
    by_cases before : σ.pool.runtime.heap.destroyed p = true
    · obtain ⟨result, returned⟩ := unfailed.ended p own before
      exact still returned
    · obtain ⟨chunk, recorded, -⟩ := isChunk_iff.mp own
      obtain ⟨task, made, rfl⟩ := (ok.chunk p chunk recorded).2.1
      rcases kind.destroyed made (by simpa using before) gone with
        ⟨thread, woken, other, base, -, same, top⟩ |
        ⟨thread, woken, other, queued, base, rfl, same, top⟩
      · have pending : .external (.release other) ∈ σ.pool.runtime.pending :=
          Stacks.mem_pending.mpr ⟨_, List.mem_of_getElem? top, List.mem_cons_self⟩
        obtain ⟨result, returned⟩ := poolOk.release_ended pending
        rw [same] at returned
        exact still returned
      · have clears : σ.fails l (.pool (.run thread woken)) = true := by
          simp only [fails, top]
          exact List.any_eq_true.mpr ⟨other, queued, same ▸ own⟩
        rw [part.run thread woken rfl, clears] at careful
        cases careful

/-- A step that fails no chunk of a launch leaves all chunks unfailed. -/
theorem Unfailed.step (unfailed : σ.Unfailed l) (ok : σ.Ok workers)
    (stepped : σ.step workers event = some σ') (careful : σ.fails l event = false) :
    σ'.Unfailed l := by
  have moved := ok.moved stepped
  have kept {p : StateId} (own : σ'.isChunk l p = true) :
      (∀ error, σ'.pool.pool.results p ≠ some (.error error)) ∧
        (σ'.pool.runtime.heap.destroyed p = true →
          ∃ result, σ'.pool.pool.results p = some result) := by
    obtain ⟨chunk, recorded, mine⟩ := isChunk_iff.mp own
    rcases moved.chunks p chunk recorded with ⟨before, was, same, -⟩ | ⟨-, unset, alive⟩
    · have old := isChunk_iff.mpr ⟨before, was, same.symm.trans mine⟩
      rcases moved.pool with same | ⟨below, taken, part⟩
      · rw [same]
        exact ⟨unfailed.returned p old, unfailed.ended p old⟩
      · exact unfailed.below ok taken careful part old
    · rw [unset, alive]
      exact ⟨fun error => by simp, fun clash => (by cases clash)⟩
  exact ⟨fun p own => (kept own).1, fun p own => (kept own).2⟩

/-- In a program in which no chunk of a launch fails, none has failed. -/
theorem unfailed (reached : (unfailing w V ε workers l).Reachable σ) :
    (launchSystem w V ε workers).Reachable σ ∧ σ.Unfailed l := by
  induction reached with
  | start initial =>
    refine ⟨.start initial, ?_⟩
    obtain ⟨outside, rfl⟩ := initial
    exact ⟨fun p own => (by cases own), fun p own => (by cases own)⟩
  | next _ stepped ih =>
    obtain ⟨careful, taken⟩ := System.under_step.mp stepped
    exact ⟨ih.1.next taken, ih.2.step (ok ih.1) taken careful⟩

/-- When a launch is ready and no chunk of it has failed, the loops of its chunks have ended. -/
theorem Ok.completed (ok : σ.Ok workers) (unfailed : σ.Unfailed l) (ready : σ.Ready l)
    {p : StateId} {chunk : Chunk w} (recorded : σ.chunks p = some chunk)
    (own : chunk.launch = l) : chunk.Completed := by
  have mine := isChunk_iff.mpr ⟨chunk, recorded, own⟩
  obtain ⟨-, ⟨task, made, rfl⟩, -⟩ := ok.chunk p chunk recorded
  have returned : ∃ result, σ.pool.pool.results task.promise = some result := by
    rcases (PoolConfig.ok ok.reached).decided_ended made
      (ok.chunk_decided ready recorded own) with returned | destroyed
    · exact returned
    · exact unfailed.ended _ mine destroyed
  obtain ⟨result, returned⟩ := returned
  cases result with
  | ok value => exact ok.ended _ chunk value recorded returned
  | error error => exact absurd returned (unfailed.returned _ mine error)

end LaunchConfig

/-! ## Work items -/

/-- A call that a lambda lists reads the ids of a value of its variable. -/
theorem Task.reads_of_calls {task : Task w} {left g : GlobalIndex w} {visited : List (SizeT w)}
    (listed : g ∈ Task.calls task.setIds left visited) : ∃ j ∈ visited, task.Reads j g := by
  induction visited generalizing left with
  | nil => cases listed
  | cons j rest ih =>
    rcases List.mem_cons.mp listed with rfl | later
    · exact ⟨j, List.mem_cons_self, left, rfl⟩
    · obtain ⟨k, inside, reads⟩ := ih later
      exact ⟨k, List.mem_cons_of_mem j inside, reads⟩

/-- The left partner of an element. -/
theorem forall₂_left {α β : Type*} {related : α → β → Prop} {left : List α} {right : List β}
    (all : List.Forall₂ related left right) {y : β} (listed : y ∈ right) :
    ∃ x ∈ left, related x y := by
  obtain ⟨same, each⟩ := List.forall₂_iff_get.mp all
  obtain ⟨n, rfl⟩ := List.get_of_mem listed
  exact ⟨_, List.get_mem left ⟨n, n.isLt.trans_eq same.symm⟩, each n _ n.isLt⟩

/-- The right partner of an element. -/
theorem forall₂_right {α β : Type*} {related : α → β → Prop} {left : List α} {right : List β}
    (all : List.Forall₂ related left right) {x : α} (listed : x ∈ left) :
    ∃ y ∈ right, related x y := forall₂_left all.flip listed

/-- Runs that all end are the runs of their tasks. -/
theorem mem_of_mapM {α β : Type*} {run : α → Option β} {list : List α} {logs : List β}
    (ran : list.mapM run = some logs) {log : β} (listed : log ∈ logs) :
    ∃ x ∈ list, run x = some log := by
  induction list generalizing logs with
  | nil =>
    cases ran
    cases listed
  | cons x rest ih =>
    rw [List.mapM_cons, Option.bind_eq_bind] at ran
    obtain ⟨first, here, ran⟩ := Option.bind_eq_some_iff.mp ran
    obtain ⟨others, there, same⟩ := Option.bind_eq_some_iff.mp ran
    cases same
    rcases List.mem_cons.mp listed with rfl | later
    · exact ⟨x, List.mem_cons_self, here⟩
    · obtain ⟨y, inside, ran⟩ := ih there later
      exact ⟨y, List.mem_cons_of_mem x inside, ran⟩

/-- Calls for all values that the loops of covering tasks visit reach the whole box, if the ids that
a task sets do not depend on what it finds. -/
theorem Covers.reach {dims : Nat} {within : dims ≤ 3} {n : SizeT w}
    {size offset : Fin dims → SizeT w} {base : Nat} {tasks : List (Task w)}
    (covers : Covers within n size offset base tasks)
    (sets : ∀ task ∈ tasks, ∀ j left other,
      ids within (task.setIds j left) = ids within (task.setIds j other))
    {log : List (GlobalIndex w)}
    (done : ∀ task ∈ tasks, ∀ fuel visited,
      forLoop (task.start + task.count) 1 fuel task.start = some visited →
      ∀ j ∈ visited, ∃ g ∈ log, task.Reads j g) (tuple : Fin dims → SizeT w)
    (inBox : InBox size offset tuple) : tuple ∈ log.map (ids within) := by
  obtain ⟨runs, ran, once⟩ := covers.once (2 ^ w) le_rfl fun _ _ => 0
  have counted := once tuple
  rw [if_pos inBox] at counted
  have listed : tuple ∈ runs.flatten.map (ids within) :=
    List.count_pos_iff.mp (counted ▸ Nat.one_pos)
  obtain ⟨g, inside, rfl⟩ := List.mem_map.mp listed
  obtain ⟨run, member, inside⟩ := List.mem_flatten.mp inside
  obtain ⟨⟨task, position⟩, paired, ran⟩ := mem_of_mapM ran member
  have known : task ∈ tasks := List.fst_mem_of_mem_zipIdx paired
  obtain ⟨visited, looped, rfl⟩ := Option.map_eq_some_iff.mp ran
  obtain ⟨j, visits, left, rfl⟩ := Task.reads_of_calls inside
  obtain ⟨other, logged, found, rfl⟩ := done task known (2 ^ w) visited looped j visits
  exact List.mem_map.mpr ⟨_, logged, sets task known j found left⟩

/-- If the sizes fit, the calls of a kernel have reached all work items. -/
def WorkSize.Reached (threadCount : SizeT w) (log : List (GlobalIndex w)) : WorkSize w → Prop
  | .one size offset => Fits threadCount size offset →
    ∀ tuple, InBox size offset tuple → tuple ∈ log.map (ids (by decide))
  | .two size offset => Fits threadCount size offset →
    ∀ tuple, InBox size offset tuple → tuple ∈ log.map (ids (by decide))
  | .three size offset => Fits threadCount size offset →
    ∀ tuple, InBox size offset tuple → tuple ∈ log.map (ids (by decide))

/-- The lambdas of a launch are those of its overload. -/
theorem WorkSize.mem_execute {threadCount : SizeT w} (work : WorkSize w) {fuel : Nat}
    {tasks : List (Task w)} (whole : work.execute threadCount fuel = some tasks) {task : Task w}
    (listed : task ∈ tasks) : ∃ i count, task = work.task i count := by
  rw [execute_eq] at whole
  obtain ⟨visited, -, rfl⟩ := Option.map_eq_some_iff.mp whole
  obtain ⟨i, -, rfl⟩ := List.mem_map.mp listed
  exact ⟨i, _, rfl⟩

/-- Calls for all values that the loops of a launch visit reach all work items. -/
theorem WorkSize.reached {threadCount : SizeT w} (threads : threadCount ≠ 0) {work : WorkSize w}
    {log : List (GlobalIndex w)}
    (done : ∀ tasks, work.execute threadCount (2 ^ w) = some tasks → ∀ task ∈ tasks,
      ∀ fuel visited, forLoop (task.start + task.count) 1 fuel task.start = some visited →
      ∀ j ∈ visited, ∃ g ∈ log, task.Reads j g) : work.Reached threadCount log := by
  have positive : 0 < threadCount.toNat := by
    apply Nat.pos_of_ne_zero
    intro zero
    exact threads (BitVec.eq_of_toNat_eq (zero.trans toNat_zero.symm))
  cases work with
  | one size offset =>
    intro fits tuple inBox
    obtain ⟨tasks, whole, covers⟩ := execute1_covers positive fits (2 ^ w) le_rfl
    refine covers.reach (fun task listed j left other => ?_) (done tasks whole) tuple inBox
    obtain ⟨i, count, rfl⟩ := mem_execute (.one size offset) whole listed
    funext dim
    match dim with
    | 0 => rfl
  | two size offset =>
    intro fits tuple inBox
    obtain ⟨tasks, whole, covers⟩ := execute2_covers positive fits (2 ^ w) le_rfl
    refine covers.reach (fun task listed j left other => ?_) (done tasks whole) tuple inBox
    obtain ⟨i, count, rfl⟩ := mem_execute (.two size offset) whole listed
    funext dim
    match dim with
    | 0 | 1 => rfl
  | three size offset =>
    intro fits tuple inBox
    obtain ⟨tasks, whole, covers⟩ := execute3_covers positive fits (2 ^ w) le_rfl
    refine covers.reach (fun task listed j left other => ?_) (done tasks whole) tuple inBox
    obtain ⟨i, count, rfl⟩ := mem_execute (.three size offset) whole listed
    funext dim
    match dim with
    | 0 | 1 | 2 => rfl

namespace LaunchConfig

variable {σ σ' : LaunchConfig w V ε} {event : LaunchEvent w V ε} {l : Nat}

/-- The calls of the kernel of a launch that have returned normally. -/
def returned (σ : LaunchConfig w V ε) (launch : Launch w) : List (GlobalIndex w) :=
  (launch.taskResults.filterMap σ.chunks).flatMap Chunk.returned

/-- When a launch is ready and no chunk of it has failed, the kernel has returned from the calls
that its lambdas make, turn by turn. -/
theorem Ok.chunks_done (ok : σ.Ok workers) (unfailed : σ.Unfailed l) {launch : Launch w}
    {f : StateId} (found : σ.launches[l]? = some launch) (future : launch.future = some f)
    (decided : σ.pool.runtime.heap.Decided f) {fuel : Nat} {tasks : List (Task w)}
    (whole : launch.work.execute (threadCount w workers) fuel = some tasks) :
    List.Forall₂ (fun p task => ∃ chunk, σ.chunks p = some chunk ∧ ∀ fuel visited,
      forLoop (task.start + task.count) 1 fuel task.start = some visited →
      List.Forall₂ task.Reads visited chunk.returned) launch.taskResults tasks := by
  have ended := (ok.future l launch f found future).1
  rw [← (ok.loops l launch found).ended ended whole]
  refine (ok.results l launch found).imp ?_
  rintro p task ⟨chunk, recorded, own, rfl⟩
  have completed := ok.completed unfailed ⟨launch, f, found, future, decided⟩ recorded own
  exact ⟨chunk, recorded, fun fuel visited looped =>
    (ok.chunk p chunk recorded).1.completed completed looped⟩

/-- In every run in which no chunk of a launch fails: if `Get` on its future returns normally, then
the kernel has returned normally from every call that the loops of its lambdas make, and so, when
the sizes fit, it was called and has returned normally for every work item. -/
theorem launch_done (reached : (unfailing w V ε workers l).Reachable σ) {launch : Launch w}
    {f : StateId} (found : σ.launches[l]? = some launch) (future : launch.future = some f)
    {value : Value V} (success : (σ.pool.runtime.heap.cell f).get = some (.ok value)) :
    (∀ fuel tasks, launch.work.execute (threadCount w workers) fuel = some tasks →
      List.Forall₂ (fun p task => ∃ chunk, σ.chunks p = some chunk ∧ ∀ fuel visited,
        forLoop (task.start + task.count) 1 fuel task.start = some visited →
        List.Forall₂ task.Reads visited chunk.returned) launch.taskResults tasks) ∧
    launch.work.Reached (threadCount w workers) (σ.returned launch) := by
  obtain ⟨reached, unfailed⟩ := unfailed reached
  have good := ok reached
  have decided : σ.pool.runtime.heap.Decided f := by
    intro undecided
    change (σ.pool.runtime.heap.cell f).outcome = none at undecided
    rw [FutureState.get_eq, undecided] at success
    cases success
  have done (fuel : Nat) (tasks : List (Task w))
      (whole : launch.work.execute (threadCount w workers) fuel = some tasks) :=
    good.chunks_done unfailed found future decided whole
  refine ⟨done, WorkSize.reached (good.threads l launch found) ?_⟩
  intro tasks whole task listed fuel visited looped j visits
  obtain ⟨p, result, chunk, recorded, turns⟩ := forall₂_left (done _ tasks whole) listed
  obtain ⟨g, inside, reads⟩ := forall₂_right (turns fuel visited looped) visits
  refine ⟨g, List.mem_flatMap.mpr ⟨chunk, ?_, inside⟩, reads⟩
  exact List.mem_filterMap.mpr ⟨p, result, recorded⟩

end LaunchConfig

/-- When the only kernel of a launch has thrown, `Get` on the future of the launch returns normally,
though the work item was not processed. -/
theorem thrown_succeeds : (launchSystem 64 Nat String 1).Reachable thrown ∧
    ∃ launch, thrown.launches[0]? = some launch ∧ launch.work = .one ![1] ![0] ∧
      launch.future = some 2 ∧ (thrown.pool.runtime.heap.cell 2).get = some (.ok .void) ∧
      thrown.returned launch = [] ∧
      ¬ launch.work.Reached (threadCount 64 1) (thrown.returned launch) := by
  have work : (thrown.launches[0]?.get thrown_launched).work = .one ![1] ![0] := by decide +kernel
  have none : thrown.returned (thrown.launches[0]?.get thrown_launched) = [] := by decide +kernel
  refine ⟨LaunchConfig.reachable_after _, _, (Option.some_get thrown_launched).symm, work,
    by decide +kernel, by decide +kernel, none, ?_⟩
  rw [work, none]
  intro reached
  have fits : Fits (threadCount 64 1) ![1] ![0] := ⟨by decide, by decide, by decide⟩
  have listed := reached fits ![0] (by decide)
  cases listed

/-- One work item on one worker, with a kernel that returns. -/
def returningRun : List (LaunchEvent 64 Nat String) :=
  [LaunchEvent.execute 1 (.one ![1] ![0]), LaunchEvent.go 1] ++
    List.replicate 9 (LaunchEvent.pool (.run 1 0)) ++ [LaunchEvent.go 1] ++
    List.replicate 8 (LaunchEvent.pool (.run 1 0)) ++ [LaunchEvent.go 1] ++
    List.replicate 5 (LaunchEvent.pool (.run 0 0)) ++
    [LaunchEvent.kernel 0, LaunchEvent.kernelReturn 0 none, LaunchEvent.kernel 0] ++
    List.replicate 9 (LaunchEvent.pool (.run 0 0))

/-- The run can be replayed, and no chunk fails in it. -/
theorem returningRun_replays :
    ((unfailing 64 Nat String 1 0).replay (.start 1 1) returningRun).isSome = true := by
  decide +kernel

/-- The configuration after the run. -/
def returned : LaunchConfig 64 Nat String :=
  ((unfailing 64 Nat String 1 0).replay (.start 1 1) returningRun).get returningRun_replays

/-- There is a launch in it. -/
theorem returned_launched : returned.launches[0]?.isSome = true := by decide +kernel

/-- After the run the launch is ready, and all its work items were processed. -/
theorem returned_done :
    (.one ![1] ![0] : WorkSize 64).Reached (threadCount 64 1)
      (returned.returned (returned.launches[0]?.get returned_launched)) := by
  have initial : (unfailing 64 Nat String 1 0).initial (.start 1 1) := ⟨1, rfl⟩
  have work : (returned.launches[0]?.get returned_launched).work = .one ![1] ![0] := by
    decide +kernel
  have joined : (returned.launches[0]?.get returned_launched).future = some 2 := by decide +kernel
  have success : (returned.pool.runtime.heap.cell 2).get = some (.ok .void) := by decide +kernel
  have done := (LaunchConfig.launch_done
    (System.Reachable.of_replay initial returningRun_replays)
    (Option.some_get returned_launched).symm joined success).2
  rwa [work] at done

end Azul.Compute
