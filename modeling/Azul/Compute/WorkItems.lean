import Azul.Compute.KernelIds
import Azul.Compute.LaunchFailures

/-!
# No work item twice

While a launch is in progress, and also when kernels throw or the pool is destroyed, no work item
is processed twice or by two threads at the same time, and nothing outside the index space is
processed: the calls of the kernel in the chunks that were submitted so far are part of the calls
that the whole launch makes.
-/

namespace Azul.Compute

open Azul.Foundation Azul.Async

variable {w : Nat} {V ε : Type} {workers : Nat}

/-! ## Loops that go on -/

/-- What a loop has visited is how the whole loop begins. -/
theorem Visited.isPrefix {bound step start i : SizeT w} {visited all : List (SizeT w)}
    (come : Visited bound step start visited i) {fuel : Nat}
    (whole : Compute.forLoop bound step fuel start = some all) : visited <+: all := by
  have more := forLoop_more whole visited.length
  rw [Nat.add_comm, come.forLoop] at more
  obtain ⟨rest, _, same⟩ := Option.map_eq_some_iff.mp more
  exact ⟨rest, same⟩

/-- The lambdas submitted so far are the first ones of the overload. -/
theorem Launch.Loop.isPrefix {threadCount : SizeT w} {launch : Launch w}
    (loop : launch.Loop threadCount) {fuel : Nat} {tasks : List (Task w)}
    (whole : launch.work.execute threadCount fuel = some tasks) : launch.tasks <+: tasks := by
  obtain ⟨visited, come, submitted⟩ := loop
  rw [WorkSize.execute_eq] at whole
  obtain ⟨all, ends, same⟩ := Option.map_eq_some_iff.mp whole
  rw [submitted, ← same]
  exact (come.isPrefix ends).map _

/-- The calls of the kernel that have returned normally or are running. -/
def Chunk.processed (chunk : Chunk w) : List (GlobalIndex w) :=
  chunk.returned ++ chunk.kernel.toList

/-- The kernel is called for the values of the loop variable, one after the other. -/
theorem Chunk.Loop.processed {chunk : Chunk w} (loop : chunk.Loop) :
    ∃ visited i, Visited (chunk.task.start + chunk.task.count) 1 chunk.task.start visited i ∧
      List.Forall₂ chunk.task.Reads visited chunk.processed := by
  obtain ⟨visited, come, reads⟩ := loop.visited
  unfold Chunk.processed
  cases calling : chunk.kernel with
  | none =>
    refine ⟨visited, chunk.j, come, ?_⟩
    rwa [Option.toList_none, List.append_nil]
  | some globalIndex =>
    obtain ⟨continues, reading⟩ := loop.kernel globalIndex calling
    exact ⟨visited ++ [chunk.j], _, come.next continues,
      List.rel_append reads (.cons reading .nil)⟩

/-! ## The ids of a chunk -/

section Ids

variable {dims : Nat} {within : dims ≤ 3}

/-- The ids that a task sets do not depend on what it finds. -/
def Task.SetsIds (within : dims ≤ 3) (task : Task w) : Prop :=
  ∀ j left other, ids within (task.setIds j left) = ids within (task.setIds j other)

/-- The ids that are read are those of the values of the loop variable. -/
theorem Task.SetsIds.reads {task : Task w} (sets : task.SetsIds within)
    {visited : List (SizeT w)} {log : List (GlobalIndex w)}
    (reads : List.Forall₂ task.Reads visited log) :
    log.map (ids within) = visited.map fun j => ids within (task.setIds j fun _ => 0) := by
  induction reads with
  | nil => rfl
  | cons first _ ih =>
    obtain ⟨left, rfl⟩ := first
    rw [List.map_cons, List.map_cons, ih, sets _ left]

/-- What a chunk has processed is how its task begins. -/
theorem Chunk.Loop.isPrefix {chunk : Chunk w} (loop : chunk.Loop)
    (sets : chunk.task.SetsIds within) {fuel : Nat} {left : GlobalIndex w}
    {run : List (GlobalIndex w)} (ran : chunk.task.run fuel left = some run) :
    chunk.processed.map (ids within) <+: run.map (ids within) := by
  obtain ⟨visited, i, come, reads⟩ := loop.processed
  obtain ⟨all, looped, rfl⟩ := Option.map_eq_some_iff.mp ran
  rw [sets.reads reads, ids_calls fun j globalIndex => sets j globalIndex fun _ => 0]
  exact (come.isPrefix looped).map _

/-- What the chunks of some tasks have processed is part of what all tasks process. -/
theorem processed_sublist {chunks : StateId → Option (Chunk w)} {l : Nat}
    {results : List StateId} {submitted : List (Task w)}
    (listed : List.Forall₂ (fun p task => ∃ chunk, chunks p = some chunk ∧ chunk.launch = l ∧
      chunk.task = task) results submitted)
    (loops : ∀ p chunk, chunks p = some chunk → chunk.Loop) {fuel : Nat} {left : GlobalIndex w}
    {tasks : List (Task w)} {position : Nat} {runs : List (List (GlobalIndex w))}
    (begins : submitted <+: tasks) (sets : ∀ task ∈ tasks, task.SetsIds within)
    (ran : (tasks.zipIdx position).mapM (fun (task, _) => task.run fuel left) = some runs) :
    (((results.filterMap chunks).flatMap Chunk.processed).map (ids within)).Sublist
      (runs.flatten.map (ids within)) := by
  induction listed generalizing tasks position runs with
  | nil => exact List.nil_sublist _
  | @cons p task results submitted first _ ih =>
    obtain ⟨chunk, recorded, _, rfl⟩ := first
    obtain ⟨rest, rfl⟩ := begins
    rw [List.cons_append, List.zipIdx_cons, List.mapM_cons, Option.bind_eq_bind] at ran
    obtain ⟨run, here, ran⟩ := Option.bind_eq_some_iff.mp ran
    obtain ⟨others, there, same⟩ := Option.bind_eq_some_iff.mp ran
    cases same
    have later := ih ⟨rest, rfl⟩ (fun task inside => sets task (List.mem_cons_of_mem _ inside))
      there
    have now := (loops p chunk recorded).isPrefix (sets _ List.mem_cons_self) here
    rw [List.filterMap_cons, recorded]
    simp only [List.flatMap_cons, List.flatten_cons, List.map_append]
    exact now.sublist.append later

end Ids

/-! ## Work items -/

/-- Calls that are part of what covering tasks do reach every tuple of the box at most once, and no
other. -/
theorem Covers.at_most_once {dims : Nat} {within : dims ≤ 3} {n : SizeT w}
    {size offset : Fin dims → SizeT w} {base : Nat} {tasks : List (Task w)}
    (covers : Covers within n size offset base tasks) {log : List (GlobalIndex w)}
    (part : ∀ runs, (tasks.zipIdx 0).mapM (fun (task, _) => task.run (2 ^ w) fun _ => 0) =
      some runs → (log.map (ids within)).Sublist (runs.flatten.map (ids within)))
    (tuple : Fin dims → SizeT w) :
    (log.map (ids within)).count tuple ≤ if InBox size offset tuple then 1 else 0 := by
  obtain ⟨runs, ran, once⟩ := covers.once (2 ^ w) le_rfl fun _ _ => 0
  rw [← once tuple]
  exact (part runs ran).count_le tuple

/-- If the sizes fit, calls of a kernel have reached every tuple of the box at most once, and
nothing else. -/
def CallsAtMostOnce {dims : Nat} (within : dims ≤ 3) (threadCount : SizeT w)
    (size offset : Fin dims → SizeT w) (log : List (GlobalIndex w)) : Prop :=
  Fits threadCount size offset → ∀ tuple,
    (log.map (ids within)).count tuple ≤ if InBox size offset tuple then 1 else 0

/-- If the sizes fit, calls of a kernel have reached every tuple of the box once, and nothing
else. -/
def CallsOnce {dims : Nat} (within : dims ≤ 3) (threadCount : SizeT w)
    (size offset : Fin dims → SizeT w) (log : List (GlobalIndex w)) : Prop :=
  Fits threadCount size offset → ∀ tuple,
    (log.map (ids within)).count tuple = if InBox size offset tuple then 1 else 0

theorem one_dimension : 1 ≤ 3 := by decide

theorem two_dimensions : 2 ≤ 3 := by decide

theorem three_dimensions : 3 ≤ 3 := Nat.le_refl 3

/-- The work items of a launch were reached at most once, and nothing else. -/
def WorkSize.AtMostOnce (threadCount : SizeT w) (log : List (GlobalIndex w)) : WorkSize w → Prop
  | .one size offset => CallsAtMostOnce one_dimension threadCount size offset log
  | .two size offset => CallsAtMostOnce two_dimensions threadCount size offset log
  | .three size offset => CallsAtMostOnce three_dimensions threadCount size offset log

/-- The work items of a launch were reached once, and nothing else. -/
def WorkSize.Once (threadCount : SizeT w) (log : List (GlobalIndex w)) : WorkSize w → Prop
  | .one size offset => CallsOnce one_dimension threadCount size offset log
  | .two size offset => CallsOnce two_dimensions threadCount size offset log
  | .three size offset => CallsOnce three_dimensions threadCount size offset log

/-- What is listed, and counted at most once, is counted once. -/
theorem count_once {α : Type*} [DecidableEq α] {list : List α} {x : α} {inside : Prop}
    [Decidable inside] (most : list.count x ≤ if inside then 1 else 0)
    (listed : inside → x ∈ list) : list.count x = if inside then 1 else 0 := by
  by_cases here : inside
  · rw [if_pos here] at most ⊢
    exact Nat.le_antisymm most (List.count_pos_iff.mpr (listed here))
  · rw [if_neg here] at most ⊢
    exact Nat.le_zero.mp most

/-- Calls that reach every work item, and each of them at most once, reach it once. -/
theorem WorkSize.once {threadCount : SizeT w} {log : List (GlobalIndex w)} {work : WorkSize w}
    (reached : work.Reached threadCount log) (apart : work.AtMostOnce threadCount log) :
    work.Once threadCount log := by
  cases work with
  | one | two | three =>
    intro fits tuple
    exact count_once (apart fits tuple) (reached fits tuple)

namespace LaunchConfig

variable {σ : LaunchConfig w V ε} {l : Nat}

/-- The calls of the kernel of a launch that have returned normally or are running. -/
def processed (σ : LaunchConfig w V ε) (launch : Launch w) : List (GlobalIndex w) :=
  (launch.taskResults.filterMap σ.chunks).flatMap Chunk.processed

/-- What a launch has processed is part of what its overload does. -/
theorem Ok.processed_part (ok : σ.Ok workers) {launch : Launch w}
    (found : σ.launches[l]? = some launch) {dims : Nat} {within : dims ≤ 3} {fuel : Nat}
    {tasks : List (Task w)} (whole : launch.work.execute (threadCount w workers) fuel = some tasks)
    (sets : ∀ i count, (launch.work.task i count).SetsIds within)
    {runs : List (List (GlobalIndex w))}
    (ran : (tasks.zipIdx 0).mapM (fun (task, _) => task.run (2 ^ w) fun _ => 0) = some runs) :
    ((σ.processed launch).map (ids within)).Sublist (runs.flatten.map (ids within)) := by
  refine processed_sublist (ok.results l launch found) (fun p chunk recorded =>
    (ok.chunk p chunk recorded).1) ((ok.loops l launch found).isPrefix whole) ?_ ran
  intro task listed
  obtain ⟨i, count, rfl⟩ := launch.work.mem_execute whole listed
  exact sets i count

/-- Calls that are part of what a launch has processed reach every work item at most once. -/
theorem Ok.at_most_once (ok : σ.Ok workers) {launch : Launch w}
    (found : σ.launches[l]? = some launch) {log : List (GlobalIndex w)}
    (inside : log.Sublist (σ.processed launch)) :
    launch.work.AtMostOnce (threadCount w workers) log := by
  have positive : 0 < (threadCount w workers).toNat := by
    apply Nat.pos_of_ne_zero
    intro zero
    exact ok.threads l launch found (BitVec.eq_of_toNat_eq (zero.trans toNat_zero.symm))
  have part {dims : Nat} {within : dims ≤ 3} {tasks : List (Task w)} :=
    @Ok.processed_part w V ε workers σ l ok launch found dims within (2 ^ w) tasks
  cases work : launch.work with
  | one size offset =>
    intro fits tuple
    obtain ⟨tasks, whole, covers⟩ := execute1_covers positive fits (2 ^ w) le_rfl
    rw [work] at part
    refine covers.at_most_once (fun runs ran => (inside.map _).trans (part whole ?_ ran)) tuple
    intro i count j left other
    funext dim
    match dim with
    | 0 => rfl
  | two size offset =>
    intro fits tuple
    obtain ⟨tasks, whole, covers⟩ := execute2_covers positive fits (2 ^ w) le_rfl
    rw [work] at part
    refine covers.at_most_once (fun runs ran => (inside.map _).trans (part whole ?_ ran)) tuple
    intro i count j left other
    funext dim
    match dim with
    | 0 | 1 => rfl
  | three size offset =>
    intro fits tuple
    obtain ⟨tasks, whole, covers⟩ := execute3_covers positive fits (2 ^ w) le_rfl
    rw [work] at part
    refine covers.at_most_once (fun runs ran => (inside.map _).trans (part whole ?_ ran)) tuple
    intro i count j left other
    funext dim
    match dim with
    | 0 | 1 | 2 => rfl

/-- In every configuration of every run, whatever kernels throw and launch and whenever the pool is
destroyed: no work item of a launch whose sizes fit is processed twice or by two threads at once,
and nothing outside its index space is. -/
theorem items_at_most_once (reached : (launchSystem w V ε workers).Reachable σ) {launch : Launch w}
    (found : σ.launches[l]? = some launch) :
    launch.work.AtMostOnce (threadCount w workers) (σ.processed launch) :=
  (ok reached).at_most_once found (List.Sublist.refl _)

/-- What has returned normally is part of what was processed. -/
theorem returned_sublist (σ : LaunchConfig w V ε) (launch : Launch w) :
    (σ.returned launch).Sublist (σ.processed launch) := by
  unfold LaunchConfig.returned LaunchConfig.processed
  induction launch.taskResults.filterMap σ.chunks with
  | nil => exact List.Sublist.refl _
  | cons chunk chunks ih =>
    rw [List.flatMap_cons, List.flatMap_cons]
    exact (List.sublist_append_left _ _).append ih

/-- In every run in which no chunk of a launch fails: if `Get` on its future returns normally and
its sizes fit, the kernel has returned normally for every work item exactly once, and for nothing
else. -/
theorem items_once (reached : (unfailing w V ε workers l).Reachable σ) {launch : Launch w}
    {f : StateId} (found : σ.launches[l]? = some launch) (future : launch.future = some f)
    {value : Value V} (success : (σ.pool.runtime.heap.cell f).get = some (.ok value)) :
    launch.work.Once (threadCount w workers) (σ.returned launch) := by
  obtain ⟨reached, unfailed⟩ := unfailed reached
  have good := ok reached
  have decided : σ.pool.runtime.heap.Decided f := by
    intro undecided
    change (σ.pool.runtime.heap.cell f).outcome = none at undecided
    rw [FutureState.get_eq, undecided] at success
    cases success
  refine WorkSize.once ?_ (good.at_most_once found (σ.returned_sublist launch))
  refine WorkSize.reached (good.threads l launch found) ?_
  intro tasks whole task listed fuel visited looped j visits
  have done := good.chunks_done unfailed found future decided whole
  obtain ⟨p, result, chunk, recorded, turns⟩ := forall₂_left done listed
  obtain ⟨g, inside, reads⟩ := forall₂_right (turns fuel visited looped) visits
  refine ⟨g, List.mem_flatMap.mpr ⟨chunk, ?_, inside⟩, reads⟩
  exact List.mem_filterMap.mpr ⟨p, result, recorded⟩

end LaunchConfig

/-- Two work items on one worker, until the kernel is called for the second one. -/
def secondRun : List (LaunchEvent 64 Nat String) :=
  launching (.two ![1, 2] ![0, 0]) ++ working 5 ++
    [LaunchEvent.kernel 0, LaunchEvent.kernelReturn 0 none, LaunchEvent.kernel 0]

theorem secondRun_replays :
    ((launchSystem 64 Nat String 1).replay (.start 1 1) secondRun).isSome = true := by
  decide +kernel

/-- The configuration after the run. -/
def second : LaunchConfig 64 Nat String := .after 1 1 secondRun secondRun_replays

theorem second_launched : second.launches[0]?.isSome = true := by decide +kernel

/-- Two calls were made, for different work items. -/
theorem items_at_most_once_second :
    let launch := second.launches[0]?.get second_launched
    (second.processed launch).length = 2 ∧
      (.two ![1, 2] ![0, 0] : WorkSize 64).AtMostOnce (threadCount 64 1)
        (second.processed launch) := by
  intro launch
  have work : launch.work = .two ![1, 2] ![0, 0] := by decide +kernel
  have apart := LaunchConfig.items_at_most_once
    (LaunchConfig.reachable_after secondRun_replays) (Option.some_get second_launched).symm
  refine ⟨by decide +kernel, ?_⟩
  rw [← work]
  exact apart

/-- Two work items on one worker, with a kernel that returns for both. -/
def bothRun : List (LaunchEvent 64 Nat String) :=
  secondRun ++ [LaunchEvent.kernelReturn 0 none, LaunchEvent.kernel 0] ++ working 9

theorem bothRun_replays :
    ((unfailing 64 Nat String 1 0).replay (.start 1 1) bothRun).isSome = true := by
  decide +kernel

/-- The configuration after the run. -/
def both : LaunchConfig 64 Nat String :=
  ((unfailing 64 Nat String 1 0).replay (.start 1 1) bothRun).get bothRun_replays

theorem both_launched : both.launches[0]?.isSome = true := by decide +kernel

/-- After the run the launch is ready, and both work items were processed once. -/
theorem items_once_both :
    (.two ![1, 2] ![0, 0] : WorkSize 64).Once (threadCount 64 1)
      (both.returned (both.launches[0]?.get both_launched)) := by
  have initial : (unfailing 64 Nat String 1 0).initial (.start 1 1) := ⟨1, rfl⟩
  have work : (both.launches[0]?.get both_launched).work = .two ![1, 2] ![0, 0] := by
    decide +kernel
  have joined : (both.launches[0]?.get both_launched).future = some 2 := by decide +kernel
  have success : (both.pool.runtime.heap.cell 2).get = some (.ok .void) := by decide +kernel
  have done := LaunchConfig.items_once (System.Reachable.of_replay initial bothRun_replays)
    (Option.some_get both_launched).symm joined success
  rwa [work] at done

end Azul.Compute
