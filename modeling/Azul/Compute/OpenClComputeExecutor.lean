import Azul.Foundation.IndexSpace
import Mathlib.Data.Fin.VecNotation

/-!
# Launching an OpenCL kernel on the thread pool

`OpenClComputeExecutor::Execute` cuts the index space of a launch into chunks, hands one task per
chunk to the pool, and the task calls the kernel once for each of its work items after writing the
ids of the item into the thread-local `global_index`. Sizes are `size_t` values with wrap-around
arithmetic, so a loop of the source need not end: a loop runs on fuel here, and the results say how
much is enough. The width of `size_t` is a parameter.

A task is the pair of the range and the id assignment of its lambda; running it lists the
`global_index` that each call of the kernel reads. What the pool does with the tasks is the subject
of the pool's own modules, and the future that `WaitFor` returns has no part in the index space.
-/

namespace Azul.Compute

open Azul.Foundation

/-- `std::size_t` with `w` bits. -/
abbrev SizeT (w : Nat) := BitVec w

/-- The thread-local `global_index`. -/
abbrev GlobalIndex (w : Nat) := Fin 3 → SizeT w

variable {w : Nat}

/-- `get_global_id`. -/
def getGlobalId (globalIndex : GlobalIndex w) (dimindx : Fin 3) : SizeT w :=
  globalIndex dimindx

/-- `set_global_id`. -/
def setGlobalId (dimindx : Fin 3) (value : SizeT w) (globalIndex : GlobalIndex w) :
    GlobalIndex w :=
  Function.update globalIndex dimindx value

/-- `std::max`. -/
def stdMax (a b : SizeT w) : SizeT w := if a < b then b else a

/-- `std::min`. -/
def stdMin (a b : SizeT w) : SizeT w := if b < a then b else a

/-- The values that the variable of `for (; i < bound; i += step)` takes, `none` when `fuel` tests
do not end the loop. -/
def forLoop (bound step : SizeT w) : Nat → SizeT w → Option (List (SizeT w))
  | 0, _ => none
  | fuel + 1, i =>
    if i < bound then (forLoop bound step fuel (i + step)).map (i :: ·) else some []

/-- The lambda of one chunk: the bounds of its loop and the ids it sets for an index. -/
structure Task (w : Nat) where
  start : SizeT w
  count : SizeT w
  setIds : SizeT w → GlobalIndex w → GlobalIndex w

namespace Task

/-- The `global_index` at each call of the kernel, over the values of the loop variable. -/
def calls (setIds : SizeT w → GlobalIndex w → GlobalIndex w) :
    GlobalIndex w → List (SizeT w) → List (GlobalIndex w)
  | _, [] => []
  | globalIndex, j :: rest => setIds j globalIndex :: calls setIds (setIds j globalIndex) rest

/-- Run a task on a thread whose `global_index` was left as given. -/
def run (fuel : Nat) (task : Task w) (globalIndex : GlobalIndex w) :
    Option (List (GlobalIndex w)) :=
  (forLoop (task.start + task.count) 1 fuel task.start).map (calls task.setIds globalIndex)

/-- The linear indices of a task. -/
def range (task : Task w) : List Nat :=
  List.range' task.start.toNat task.count.toNat

end Task

/-- The loop that all overloads share: one task per chunk of `workItemsPerTask` items. -/
def launch (workItems threadCount : SizeT w) (task : SizeT w → SizeT w → Task w) (fuel : Nat) :
    Option (List (Task w)) :=
  let workItemsPerTask := stdMax (workItems / threadCount) 1
  (forLoop workItems workItemsPerTask fuel 0).map
    (List.map fun i => task i (stdMin workItemsPerTask (workItems - i)))

/-- The one-dimensional `Execute`. -/
def execute1 (threadCount : SizeT w) (globalWorkSize globalWorkOffset : Fin 1 → SizeT w) :
    Nat → Option (List (Task w)) :=
  launch (globalWorkSize 0) threadCount fun i workItemsToProcess =>
    { start := globalWorkOffset 0 + i
      count := workItemsToProcess
      setIds := fun j => setGlobalId 0 j }

/-- The two-dimensional `Execute`. -/
def execute2 (threadCount : SizeT w) (globalWorkSize globalWorkOffset : Fin 2 → SizeT w) :
    Nat → Option (List (Task w)) :=
  launch (globalWorkSize 0 * globalWorkSize 1) threadCount fun i workItemCount =>
    { start := i
      count := workItemCount
      setIds := fun j globalIndex =>
        setGlobalId 1 (globalWorkOffset 1 + j / globalWorkSize 0)
          (setGlobalId 0 (globalWorkOffset 0 + j % globalWorkSize 0) globalIndex) }

/-- The three-dimensional `Execute`. -/
def execute3 (threadCount : SizeT w) (globalWorkSize globalWorkOffset : Fin 3 → SizeT w) :
    Nat → Option (List (Task w)) :=
  launch (globalWorkSize 0 * globalWorkSize 1 * globalWorkSize 2) threadCount
    fun i workItemCount =>
      { start := i
        count := workItemCount
        setIds := fun j globalIndex =>
          setGlobalId 0 (globalWorkOffset 0 + j % globalWorkSize 0)
            (setGlobalId 1
              (globalWorkOffset 1 + j % (globalWorkSize 0 * globalWorkSize 1) / globalWorkSize 0)
              (setGlobalId 2
                (globalWorkOffset 2 + j / (globalWorkSize 0 * globalWorkSize 1)) globalIndex)) }

/-! ## The same with checked divisions -/

/-- Why an execution stops before its end. -/
inductive Stop
  | divisionByZero
  | outOfFuel
  deriving DecidableEq

/-- Code that may divide by zero. -/
abbrev Checked := Except Stop

/-- `a / b`. -/
def divide (a b : SizeT w) : Checked (SizeT w) :=
  if b = 0 then .error .divisionByZero else .ok (a / b)

/-- `a % b`. -/
def modulo (a b : SizeT w) : Checked (SizeT w) :=
  if b = 0 then .error .divisionByZero else .ok (a % b)

/-- The values that the variable of `for (; i < bound; i += step)` takes in the first tests. -/
def loopTurns (bound step : SizeT w) : Nat → SizeT w → List (SizeT w)
  | 0, _ => []
  | turns + 1, i => if i < bound then i :: loopTurns bound step turns (i + step) else []

/-- The lambda of one chunk, whose ids may divide by zero. -/
structure CheckedTask (w : Nat) where
  start : SizeT w
  count : SizeT w
  setIds : SizeT w → GlobalIndex w → Checked (GlobalIndex w)

namespace CheckedTask

/-- The loop of a task, with the `global_index` at each call of the kernel. -/
def calls (setIds : SizeT w → GlobalIndex w → Checked (GlobalIndex w)) (bound : SizeT w) :
    Nat → SizeT w → GlobalIndex w → Checked (List (GlobalIndex w))
  | 0, _, _ => .error .outOfFuel
  | fuel + 1, j, globalIndex =>
    if j < bound then do
      let globalIndex ← setIds j globalIndex
      let rest ← calls setIds bound fuel (j + 1) globalIndex
      return globalIndex :: rest
    else
      return []

/-- Run a task on a thread whose `global_index` was left as given. -/
def run (fuel : Nat) (task : CheckedTask w) (globalIndex : GlobalIndex w) :
    Checked (List (GlobalIndex w)) :=
  calls task.setIds (task.start + task.count) fuel task.start globalIndex

end CheckedTask

/-- The loop that all overloads share: the tasks that it creates in its first turns. -/
def launchChecked (workItems threadCount : SizeT w)
    (task : SizeT w → SizeT w → CheckedTask w) (turns : Nat) : Checked (List (CheckedTask w)) := do
  let workItemsPerTask := stdMax (← divide workItems threadCount) 1
  return (loopTurns workItems workItemsPerTask turns 0).map fun i =>
    task i (stdMin workItemsPerTask (workItems - i))

/-- The one-dimensional `Execute`. -/
def executeChecked1 (threadCount : SizeT w) (globalWorkSize globalWorkOffset : Fin 1 → SizeT w) :
    Nat → Checked (List (CheckedTask w)) :=
  launchChecked (globalWorkSize 0) threadCount fun i workItemsToProcess =>
    { start := globalWorkOffset 0 + i
      count := workItemsToProcess
      setIds := fun j globalIndex => return setGlobalId 0 j globalIndex }

/-- The two-dimensional `Execute`. -/
def executeChecked2 (threadCount : SizeT w) (globalWorkSize globalWorkOffset : Fin 2 → SizeT w) :
    Nat → Checked (List (CheckedTask w)) :=
  launchChecked (globalWorkSize 0 * globalWorkSize 1) threadCount fun i workItemCount =>
    { start := i
      count := workItemCount
      setIds := fun j globalIndex => do
        let x ← modulo j (globalWorkSize 0)
        let globalIndex := setGlobalId 0 (globalWorkOffset 0 + x) globalIndex
        let y ← divide j (globalWorkSize 0)
        return setGlobalId 1 (globalWorkOffset 1 + y) globalIndex }

/-- The three-dimensional `Execute`. -/
def executeChecked3 (threadCount : SizeT w) (globalWorkSize globalWorkOffset : Fin 3 → SizeT w) :
    Nat → Checked (List (CheckedTask w)) :=
  launchChecked (globalWorkSize 0 * globalWorkSize 1 * globalWorkSize 2) threadCount
    fun i workItemCount =>
      { start := i
        count := workItemCount
        setIds := fun j globalIndex => do
          let z ← divide j (globalWorkSize 0 * globalWorkSize 1)
          let globalIndex := setGlobalId 2 (globalWorkOffset 2 + z) globalIndex
          let rest ← modulo j (globalWorkSize 0 * globalWorkSize 1)
          let y ← divide rest (globalWorkSize 0)
          let globalIndex := setGlobalId 1 (globalWorkOffset 1 + y) globalIndex
          let x ← modulo j (globalWorkSize 0)
          return setGlobalId 0 (globalWorkOffset 0 + x) globalIndex }

/-! ## What a launch owes -/

variable {dims : Nat}

/-- The number of work items of a box, without wrap-around. -/
def items (size : Fin dims → SizeT w) : Nat := ∏ dim, (size dim).toNat

/-- The sizes fit: the items, one chunk beyond them, and the end of every dimension. -/
structure Fits (threadCount : SizeT w) (size offset : Fin dims → SizeT w) : Prop where
  items_lt : items size < 2 ^ w
  beyond_lt : items size + items size / threadCount.toNat < 2 ^ w
  ends_lt : ∀ dim, (offset dim).toNat + (size dim).toNat < 2 ^ w

/-- A tuple of ids lies in the box `[offset, offset + size)`. -/
def InBox (size offset ids : Fin dims → SizeT w) : Prop :=
  ∀ dim, (offset dim).toNat ≤ (ids dim).toNat ∧
    (ids dim).toNat < (offset dim).toNat + (size dim).toNat

instance (size offset ids : Fin dims → SizeT w) : Decidable (InBox size offset ids) :=
  inferInstanceAs (Decidable (∀ _, _))

/-- The ids that a call of the kernel reads in the dimensions of its launch. -/
def ids (within : dims ≤ 3) (globalIndex : GlobalIndex w) : Fin dims → SizeT w :=
  fun dim => getGlobalId globalIndex (Fin.castLE within dim)

/-- The tasks of a launch partition the index space and cover the box: whatever each task finds in
the `global_index` of its thread, the kernel is called once for each tuple of the box and for no
other. -/
structure Covers (within : dims ≤ 3) (threadCount : SizeT w) (size offset : Fin dims → SizeT w)
    (base : Nat) (tasks : List (Task w)) : Prop where
  fewest : min threadCount.toNat (items size) ≤ tasks.length
  most : tasks.length ≤ 2 * threadCount.toNat - 1
  partition : tasks.flatMap Task.range = List.range' base (items size)
  once : ∀ fuel, 2 ^ w ≤ fuel → ∀ left : Nat → GlobalIndex w, ∃ runs,
    tasks.zipIdx.mapM (fun (task, position) => task.run fuel (left position)) = some runs ∧
      ∀ tuple, (runs.flatten.map (ids within)).count tuple =
        if InBox size offset tuple then 1 else 0

/-! ## Loops -/

@[simp] theorem toNat_stdMax (a b : SizeT w) : (stdMax a b).toNat = max a.toNat b.toNat := by
  unfold stdMax
  split_ifs with less
  · exact (max_eq_right (Nat.le_of_lt less)).symm
  · exact (max_eq_left (Nat.le_of_not_lt less)).symm

@[simp] theorem toNat_stdMin (a b : SizeT w) : (stdMin a b).toNat = min a.toNat b.toNat := by
  unfold stdMin
  split_ifs with less
  · exact (min_eq_right (Nat.le_of_lt less)).symm
  · exact (min_eq_left (Nat.le_of_not_lt less)).symm

/-- A word that is not zero has at least one bit. -/
theorem width_pos {threadCount : SizeT w} (threads : 0 < threadCount.toNat) : 0 < w := by
  apply Nat.pos_of_ne_zero
  rintro rfl
  exact Nat.not_le_of_lt threadCount.isLt threads

theorem toNat_zero : (0 : SizeT w).toNat = 0 :=
  BitVec.toNat_zero

theorem from_zero (i : SizeT w) : 0 + i = i :=
  BitVec.zero_add i

theorem toNat_one (positive : 0 < w) : (1 : SizeT w).toNat = 1 :=
  BitVec.toNat_one positive

/-- A loop whose last increment does not wrap around ends, having taken its variable through the
starts of the chunks. -/
theorem forLoop_visits (bound step : SizeT w) (positive : 0 < step.toNat)
    (fits : bound.toNat + step.toNat ≤ 2 ^ w) (i : SizeT w) (fuel : Nat)
    (enough : (bound.toNat - i.toNat) ⌈/⌉ step.toNat < fuel) :
    forLoop bound step fuel i = some ((List.range' i.toNat
      ((bound.toNat - i.toNat) ⌈/⌉ step.toNat) step.toNat).map (BitVec.ofNat w)) := by
  induction fuel generalizing i with
  | zero => exact absurd enough (Nat.not_lt_zero _)
  | succ fuel ih =>
    rw [forLoop]
    split_ifs with before
    · rw [BitVec.lt_def] at before
      have advanced : (i + step).toNat = i.toNat + step.toNat :=
        BitVec.toNat_add_of_lt (by omega)
      have rest := chunks_next positive i.toNat before
      rw [ih (i + step) (by rw [advanced]; omega), advanced, rest, List.range'_succ,
        Option.map_some, List.map_cons, BitVec.ofNat_toNat, BitVec.setWidth_eq]
    · rw [BitVec.lt_def] at before
      rw [chunks_ended i.toNat (Nat.le_of_not_lt before)]
      rfl

/-- Counting up by one takes the variable through the whole range. -/
theorem forLoop_counts (positive : 0 < w) (start count : SizeT w)
    (fits : start.toNat + count.toNat < 2 ^ w) (fuel : Nat) (enough : 2 ^ w ≤ fuel) :
    forLoop (start + count) 1 fuel start =
      some ((List.range' start.toNat count.toNat).map (BitVec.ofNat w)) := by
  have one : (1 : SizeT w).toNat = 1 := toNat_one positive
  have bound : (start + count).toNat = start.toNat + count.toNat := BitVec.toNat_add_of_lt fits
  have visits := forLoop_visits (start + count) 1 (by rw [one]; exact one_pos)
    (by rw [one, bound]; omega) start fuel
    (by rw [one, bound, ceilDiv_one]; omega)
  rw [one, bound, ceilDiv_one, Nat.add_sub_cancel_left] at visits
  exact visits

/-! ## Tasks -/

/-- When the ids that a task sets do not depend on what it finds, its calls read the ids of the
values of the loop variable. -/
theorem ids_calls {within : dims ≤ 3} {setIds : SizeT w → GlobalIndex w → GlobalIndex w}
    {decode : SizeT w → Fin dims → SizeT w}
    (sets : ∀ j globalIndex, ids within (setIds j globalIndex) = decode j)
    (globalIndex : GlobalIndex w) (visited : List (SizeT w)) :
    (Task.calls setIds globalIndex visited).map (ids within) = visited.map decode := by
  induction visited generalizing globalIndex with
  | nil => rfl
  | cons j rest ih => rw [Task.calls, List.map_cons, List.map_cons, sets, ih]

/-- A task whose range fits runs to its end and calls the kernel for the indices of its range. -/
theorem Task.run_ids (positive : 0 < w) {within : dims ≤ 3}
    {decode : SizeT w → Fin dims → SizeT w} (task : Task w)
    (sets : ∀ j globalIndex, ids within (task.setIds j globalIndex) = decode j)
    (fits : task.start.toNat + task.count.toNat < 2 ^ w) (fuel : Nat) (enough : 2 ^ w ≤ fuel)
    (globalIndex : GlobalIndex w) :
    ∃ log, task.run fuel globalIndex = some log ∧
      log.map (ids within) = task.range.map fun j => decode (BitVec.ofNat w j) := by
  rw [run, forLoop_counts positive task.start task.count fits fuel enough, Option.map_some]
  refine ⟨_, rfl, ?_⟩
  rw [ids_calls sets, List.map_map]
  rfl

/-- Runs that all end, each with a known image, end together, with the images in order. -/
theorem mapM_flatten {α β γ : Type*} {run : α → Option (List β)} {image : β → γ}
    {expected : α → List γ} (list : List α)
    (runs : ∀ x ∈ list, ∃ log, run x = some log ∧ log.map image = expected x) :
    ∃ logs, list.mapM run = some logs ∧ logs.flatten.map image = list.flatMap expected := by
  induction list with
  | nil => exact ⟨[], rfl, rfl⟩
  | cons x rest ih =>
    obtain ⟨log, ran, imaged⟩ := runs x List.mem_cons_self
    obtain ⟨logs, all, images⟩ := ih fun y member => runs y (List.mem_cons_of_mem x member)
    refine ⟨log :: logs, ?_, ?_⟩
    · rw [List.mapM_cons, ran, Option.bind_eq_bind, Option.bind_some, all]
      rfl
    · rw [List.flatten_cons, List.map_append, imaged, images, List.flatMap_cons]

/-! ## Launches -/

/-- The shared loop hands over one task per chunk. -/
theorem launch_chunks {workItems threadCount : SizeT w} (task : SizeT w → SizeT w → Task w)
    (threads : 0 < threadCount.toNat)
    (fits : workItems.toNat + workItems.toNat / threadCount.toNat < 2 ^ w)
    (fuel : Nat) (enough : 2 ^ w ≤ fuel) {perTask : Nat}
    (share : perTask = max (workItems.toNat / threadCount.toNat) 1) :
    launch workItems threadCount task fuel =
      some ((List.range' 0 (workItems.toNat ⌈/⌉ perTask) perTask).map fun first =>
        task (BitVec.ofNat w first)
          (BitVec.ofNat w (min perTask (workItems.toNat - first)))) := by
  have items_lt : workItems.toNat < 2 ^ w := workItems.isLt
  have positive : 0 < perTask := by omega
  have value : (stdMax (workItems / threadCount) 1).toNat = perTask := by
    rw [toNat_stdMax, BitVec.toNat_udiv, toNat_one (width_pos threads), share]
  have visits := forLoop_visits workItems _ (by rw [value]; exact positive)
    (by rw [value]; omega) 0 fuel (by
      rw [value]
      have := @chunks_le (workItems.toNat - (0 : SizeT w).toNat) perTask positive
      omega)
  rw [value, toNat_zero, Nat.sub_zero] at visits
  rw [launch, visits, Option.map_some, List.map_map]
  congr 1
  apply List.map_congr_left
  intro first member
  have before : first < workItems.toNat := chunk_start_lt positive member
  have start : (BitVec.ofNat w first).toNat = first := by
    rw [BitVec.toNat_ofNat, Nat.mod_eq_of_lt (before.trans items_lt)]
  have rest : (workItems - BitVec.ofNat w first).toNat = workItems.toNat - first := by
    rw [BitVec.toNat_sub_of_le (by rw [BitVec.le_def, start]; exact before.le), start]
  have count : stdMin (stdMax (workItems / threadCount) 1) (workItems - BitVec.ofNat w first) =
      BitVec.ofNat w (min perTask (workItems.toNat - first)) := by
    apply BitVec.eq_of_toNat_eq
    rw [toNat_stdMin, value, rest, BitVec.toNat_ofNat, Nat.mod_eq_of_lt (by omega)]
  rw [Function.comp_apply, count]

/-- Tasks at the chunks of a range, shifted by a base, have the shifted range. -/
theorem chunks_partition {total perTask base : Nat} (positive : 0 < perTask)
    {task : Nat → Task w}
    (bounds : ∀ first < total, (task first).start.toNat = base + first ∧
      (task first).count.toNat = min perTask (total - first)) :
    ((List.range' 0 (total ⌈/⌉ perTask) perTask).map task).flatMap Task.range =
      List.range' base total := by
  have shifted : ∀ first ∈ List.range' 0 (total ⌈/⌉ perTask) perTask,
      (task first).range = (List.range' first (min perTask (total - first))).map (base + ·) := by
    intro first member
    obtain ⟨start, count⟩ := bounds first (chunk_start_lt positive member)
    rw [Task.range, start, count, List.map_add_range']
  have concatenated := @chunks_concatenate total perTask positive 0
  rw [Nat.sub_zero] at concatenated
  rw [List.flatMap_map, List.flatMap_congr shifted, ← List.map_flatMap, concatenated,
    List.map_add_range', Nat.add_zero]

/-- A launch whose tasks start at a common base and decode the linear index covers its box. -/
theorem launch_covers (within : dims ≤ 3) {threadCount : SizeT w} {size offset : Fin dims → SizeT w}
    (threads : 0 < threadCount.toNat) (fits : Fits threadCount size offset)
    {workItems base : SizeT w} (total : workItems.toNat = items size)
    (room : base.toNat + items size < 2 ^ w)
    (setIds : SizeT w → GlobalIndex w → GlobalIndex w) (decode : SizeT w → Fin dims → SizeT w)
    (sets : ∀ j globalIndex, ids within (setIds j globalIndex) = decode j)
    (decodes : ∀ index < items size, ∀ dim,
      (decode (BitVec.ofNat w (base.toNat + index)) dim).toNat =
        (offset dim).toNat + digit (fun dim => (size dim).toNat) index dim)
    (fuel : Nat) (enough : 2 ^ w ≤ fuel) :
    ∃ tasks,
      launch workItems threadCount
        (fun i count => { start := base + i, count := count, setIds := setIds }) fuel = some tasks ∧
      Covers within threadCount size offset base.toNat tasks := by
  generalize share : max (workItems.toNat / threadCount.toNat) 1 = perTask
  have positive : 0 < perTask := by omega
  refine ⟨_, launch_chunks _ threads ?_ fuel enough share.symm, ?_⟩
  · rw [total]
    exact fits.beyond_lt
  rw [total] at share ⊢
  let task (first : Nat) : Task w :=
    { start := base + BitVec.ofNat w first
      count := BitVec.ofNat w (min perTask (items size - first))
      setIds := setIds }
  change Covers within threadCount size offset base.toNat
    ((List.range' 0 (items size ⌈/⌉ perTask) perTask).map task)
  have bounds : ∀ first < items size, (task first).start.toNat = base.toNat + first ∧
      (task first).count.toNat = min perTask (items size - first) := by
    intro first before
    have start : (BitVec.ofNat w first).toNat = first := by
      rw [BitVec.toNat_ofNat, Nat.mod_eq_of_lt (by omega)]
    constructor
    · change (base + BitVec.ofNat w first).toNat = base.toNat + first
      rw [BitVec.toNat_add_of_lt (by rw [start]; omega), start]
    · change (BitVec.ofNat w (min perTask (items size - first))).toNat = _
      rw [BitVec.toNat_ofNat, Nat.mod_eq_of_lt (by omega)]
  constructor
  case fewest =>
    rw [List.length_map, List.length_range', ← share]
    exact chunks_fewest threads
  case most =>
    rw [List.length_map, List.length_range', ← share]
    exact chunks_most threads
  case partition =>
    exact chunks_partition positive bounds
  case once =>
    intro fuel enough left
    have runs : ∀ entry ∈ ((List.range' 0 (items size ⌈/⌉ perTask) perTask).map task).zipIdx,
        ∃ log, entry.1.run fuel (left entry.2) = some log ∧
          log.map (ids within) = entry.1.range.map fun j => decode (BitVec.ofNat w j) := by
      intro entry member
      obtain ⟨first, listed, same⟩ := List.mem_map.mp (List.fst_mem_of_mem_zipIdx member)
      obtain ⟨start, count⟩ := bounds first (chunk_start_lt positive listed)
      apply Task.run_ids (width_pos threads) entry.1 _ _ fuel enough
      · rw [← same]
        exact sets
      · rw [← same, start, count]
        have := chunk_start_lt positive listed
        omega
    obtain ⟨logs, ran, read⟩ := mapM_flatten _ runs
    refine ⟨logs, ran, fun tuple => ?_⟩
    have called : logs.flatten.map (ids within) =
        (List.range (items size)).map fun index =>
          decode (BitVec.ofNat w (base.toNat + index)) := by
      rw [read, ← List.flatMap_map Prod.fst fun task : Task w =>
          task.range.map fun j => decode (BitVec.ofNat w j),
        List.zipIdx_map_fst, ← List.map_flatMap, chunks_partition positive bounds,
        List.range'_eq_map_range, List.map_map]
      rfl
    rw [called]
    exact box_count BitVec.toNat (fun _ _ => BitVec.eq_of_toNat_eq) (fun dim => (size dim).toNat)
      (fun dim => (offset dim).toNat) _ decodes tuple

/-! ## The overloads -/

/-- A sum of an offset and a digit stays in its dimension. -/
theorem Fits.coordinate {threadCount : SizeT w} {size offset : Fin dims → SizeT w}
    (fits : Fits threadCount size offset) {index : Nat} (below : index < items size)
    {dim : Fin dims} {value : SizeT w}
    (decoded : value.toNat = digit (fun dim => (size dim).toNat) index dim) :
    (offset dim + value).toNat =
      (offset dim).toNat + digit (fun dim => (size dim).toNat) index dim := by
  have digit_below := digit_lt (fun dim => (size dim).toNat) below dim
  have room := fits.ends_lt dim
  rw [BitVec.toNat_add_of_lt (by rw [decoded]; omega), decoded]

/-- An index below the number of items is a `size_t` value. -/
theorem Fits.toNat_index {threadCount : SizeT w} {size offset : Fin dims → SizeT w}
    (fits : Fits threadCount size offset) {index : Nat} (below : index < items size) :
    (BitVec.ofNat w ((0 : SizeT w).toNat + index)).toNat = index := by
  have items_lt := fits.items_lt
  rw [toNat_zero, Nat.zero_add, BitVec.toNat_ofNat, Nat.mod_eq_of_lt (by omega)]

/-- Work items counted from zero are `size_t` values. -/
theorem Fits.zero_room {threadCount : SizeT w} {size offset : Fin dims → SizeT w}
    (fits : Fits threadCount size offset) : (0 : SizeT w).toNat + items size < 2 ^ w := by
  rw [toNat_zero, Nat.zero_add]
  exact fits.items_lt

/-- The one-dimensional overload: its tasks start at the offset, and the linear index is the id. -/
theorem execute1_covers {threadCount : SizeT w} (threads : 0 < threadCount.toNat)
    {size offset : Fin 1 → SizeT w} (fits : Fits threadCount size offset)
    (fuel : Nat) (enough : 2 ^ w ≤ fuel) :
    ∃ tasks, execute1 threadCount size offset fuel = some tasks ∧
      Covers (by decide) threadCount size offset (offset 0).toNat tasks := by
  have total : (size 0).toNat = items size := by
    rw [items, Fin.prod_univ_one]
  have room : (offset 0).toNat + items size < 2 ^ w := by
    rw [← total]
    exact fits.ends_lt 0
  apply launch_covers (by decide) threads fits total room _ (fun j _ => j) _ _ fuel enough
  · intro j globalIndex
    funext dim
    rw [Subsingleton.elim dim 0]
    rfl
  · intro index below dim
    rw [Subsingleton.elim dim 0, digit_one _ below, BitVec.toNat_ofNat, Nat.mod_eq_of_lt (by omega)]

/-- The two-dimensional overload. -/
theorem execute2_covers {threadCount : SizeT w} (threads : 0 < threadCount.toNat)
    {size offset : Fin 2 → SizeT w} (fits : Fits threadCount size offset)
    (fuel : Nat) (enough : 2 ^ w ≤ fuel) :
    ∃ tasks, execute2 threadCount size offset fuel = some tasks ∧
      Covers (by decide) threadCount size offset 0 tasks := by
  have total : (size 0 * size 1).toNat = items size := by
    rw [BitVec.toNat_mul, ← Nat.mod_eq_of_lt fits.items_lt, items, Fin.prod_univ_two]
  let decode (j : SizeT w) : Fin 2 → SizeT w := ![offset 0 + j % size 0, offset 1 + j / size 0]
  have decodes : ∀ index < items size, ∀ dim,
      (decode (BitVec.ofNat w ((0 : SizeT w).toNat + index)) dim).toNat =
        (offset dim).toNat + digit (fun dim => (size dim).toNat) index dim := by
    intro index below
    have digits := digit_two _ below
    rw [Fin.forall_fin_two]
    constructor
    · apply fits.coordinate below
      rw [BitVec.toNat_umod, fits.toNat_index below, digits.1]
    · apply fits.coordinate below
      rw [BitVec.toNat_udiv, fits.toNat_index below, digits.2]
  have covered := launch_covers (by decide) threads fits total
    fits.zero_room
    (fun j globalIndex =>
      setGlobalId 1 (offset 1 + j / size 0) (setGlobalId 0 (offset 0 + j % size 0) globalIndex))
    decode (fun j globalIndex => funext (Fin.forall_fin_two.mpr ⟨rfl, rfl⟩)) decodes
    fuel enough
  rw [toNat_zero] at covered
  simpa only [execute2, from_zero] using covered

/-- The three-dimensional overload. The size of a plane does not wrap around unless there are no
work items. -/
theorem execute3_covers {threadCount : SizeT w} (threads : 0 < threadCount.toNat)
    {size offset : Fin 3 → SizeT w} (fits : Fits threadCount size offset)
    (fuel : Nat) (enough : 2 ^ w ≤ fuel) :
    ∃ tasks, execute3 threadCount size offset fuel = some tasks ∧
      Covers (by decide) threadCount size offset 0 tasks := by
  have volume : items size = (size 0).toNat * (size 1).toNat * (size 2).toNat := by
    rw [items, Fin.prod_univ_three]
  have total : (size 0 * size 1 * size 2).toNat = items size := by
    rw [BitVec.toNat_mul, BitVec.toNat_mul, Nat.mod_mul_mod, ← volume,
      Nat.mod_eq_of_lt fits.items_lt]
  let decode (j : SizeT w) : Fin 3 → SizeT w :=
    ![offset 0 + j % size 0, offset 1 + j % (size 0 * size 1) / size 0,
      offset 2 + j / (size 0 * size 1)]
  have decodes : ∀ index < items size, ∀ dim,
      (decode (BitVec.ofNat w ((0 : SizeT w).toNat + index)) dim).toNat =
        (offset dim).toNat + digit (fun dim => (size dim).toNat) index dim := by
    intro index below
    have plane : (size 0 * size 1).toNat = (size 0).toNat * (size 1).toNat := by
      have planes : 0 < (size 2).toNat := by
        apply Nat.pos_of_ne_zero
        intro none
        rw [volume, none, Nat.mul_zero] at below
        exact Nat.not_lt_zero index below
      have fewer : (size 0).toNat * (size 1).toNat ≤ items size := by
        rw [volume]
        exact Nat.le_mul_of_pos_right _ planes
      rw [BitVec.toNat_mul, Nat.mod_eq_of_lt (fewer.trans_lt fits.items_lt)]
    obtain ⟨column, row, layer⟩ := digit_three _ below
    rw [Fin.forall_fin_succ, Fin.forall_fin_two]
    refine ⟨?_, ?_, ?_⟩
    · apply fits.coordinate below
      rw [BitVec.toNat_umod, fits.toNat_index below, column]
    · apply fits.coordinate below
      rw [BitVec.toNat_udiv, BitVec.toNat_umod, fits.toNat_index below, plane]
      exact row.symm
    · apply fits.coordinate below
      rw [BitVec.toNat_udiv, fits.toNat_index below, plane]
      exact layer.symm
  have covered := launch_covers (by decide) threads fits total
    fits.zero_room
    (fun j globalIndex =>
      setGlobalId 0 (offset 0 + j % size 0)
        (setGlobalId 1 (offset 1 + j % (size 0 * size 1) / size 0)
          (setGlobalId 2 (offset 2 + j / (size 0 * size 1)) globalIndex)))
    decode (fun j globalIndex => by
      funext dim
      match dim with
      | 0 | 1 | 2 => rfl) decodes
    fuel enough
  rw [toNat_zero] at covered
  simpa only [execute3, from_zero] using covered

/-- The three overloads of `Execute` cover their index space exactly. -/
theorem execute_covers (threadCount : SizeT w) (threads : 0 < threadCount.toNat)
    (fuel : Nat) (enough : 2 ^ w ≤ fuel) :
    (∀ size offset : Fin 1 → SizeT w, Fits threadCount size offset → ∃ tasks,
      execute1 threadCount size offset fuel = some tasks ∧
        Covers (by decide) threadCount size offset (offset 0).toNat tasks) ∧
    (∀ size offset : Fin 2 → SizeT w, Fits threadCount size offset → ∃ tasks,
      execute2 threadCount size offset fuel = some tasks ∧
        Covers (by decide) threadCount size offset 0 tasks) ∧
    (∀ size offset : Fin 3 → SizeT w, Fits threadCount size offset → ∃ tasks,
      execute3 threadCount size offset fuel = some tasks ∧
        Covers (by decide) threadCount size offset 0 tasks) :=
  ⟨fun _ _ fits => execute1_covers threads fits fuel enough,
    fun _ _ fits => execute2_covers threads fits fuel enough,
    fun _ _ fits => execute3_covers threads fits fuel enough⟩

/-- Five threads and a 2 × 2 × 2 box at (2, 2, 1), a grid of seven by three, and a line of seven. -/
theorem execute_covers_five :
    (∃ tasks, execute1 (5 : SizeT 64) ![7] ![3] (2 ^ 64) = some tasks ∧
      Covers (by decide) 5 ![7] ![3] 3 tasks) ∧
    (∃ tasks, execute2 (5 : SizeT 64) ![7, 3] ![0, 1] (2 ^ 64) = some tasks ∧
      Covers (by decide) 5 ![7, 3] ![0, 1] 0 tasks) ∧
    (∃ tasks, execute3 (5 : SizeT 64) ![2, 2, 2] ![2, 2, 1] (2 ^ 64) = some tasks ∧
      Covers (by decide) 5 ![2, 2, 2] ![2, 2, 1] 0 tasks) := by
  obtain ⟨line, grid, cube⟩ := execute_covers (5 : SizeT 64) (by decide) (2 ^ 64) le_rfl
  refine ⟨line _ _ ⟨?_, ?_, ?_⟩, grid _ _ ⟨?_, ?_, ?_⟩, cube _ _ ⟨?_, ?_, ?_⟩⟩
  all_goals decide

/-! ## The overloads as one -/

/-- The arguments of `Execute`, by overload. -/
inductive WorkSize (w : Nat)
  | one (globalWorkSize globalWorkOffset : Fin 1 → SizeT w)
  | two (globalWorkSize globalWorkOffset : Fin 2 → SizeT w)
  | three (globalWorkSize globalWorkOffset : Fin 3 → SizeT w)
  deriving DecidableEq

namespace WorkSize

/-- `workItems`. -/
def workItems : WorkSize w → SizeT w
  | .one globalWorkSize _ => globalWorkSize 0
  | .two globalWorkSize _ => globalWorkSize 0 * globalWorkSize 1
  | .three globalWorkSize _ => globalWorkSize 0 * globalWorkSize 1 * globalWorkSize 2

/-- The lambda `task` of the chunk that starts at an index and has a number of items. -/
def task : WorkSize w → SizeT w → SizeT w → Task w
  | .one _ globalWorkOffset, i, workItemsToProcess =>
    { start := globalWorkOffset 0 + i
      count := workItemsToProcess
      setIds := fun j => setGlobalId 0 j }
  | .two globalWorkSize globalWorkOffset, i, workItemCount =>
    { start := i
      count := workItemCount
      setIds := fun j globalIndex =>
        setGlobalId 1 (globalWorkOffset 1 + j / globalWorkSize 0)
          (setGlobalId 0 (globalWorkOffset 0 + j % globalWorkSize 0) globalIndex) }
  | .three globalWorkSize globalWorkOffset, i, workItemCount =>
    { start := i
      count := workItemCount
      setIds := fun j globalIndex =>
        setGlobalId 0 (globalWorkOffset 0 + j % globalWorkSize 0)
          (setGlobalId 1
            (globalWorkOffset 1 + j % (globalWorkSize 0 * globalWorkSize 1) / globalWorkSize 0)
            (setGlobalId 2
              (globalWorkOffset 2 + j / (globalWorkSize 0 * globalWorkSize 1)) globalIndex)) }

/-- The lambdas that `Execute` submits, one for each turn of its loop. -/
def execute (threadCount : SizeT w) : WorkSize w → Nat → Option (List (Task w))
  | .one globalWorkSize globalWorkOffset => execute1 threadCount globalWorkSize globalWorkOffset
  | .two globalWorkSize globalWorkOffset => execute2 threadCount globalWorkSize globalWorkOffset
  | .three globalWorkSize globalWorkOffset => execute3 threadCount globalWorkSize globalWorkOffset

/-- The overloads share their loop. -/
theorem execute_eq (threadCount : SizeT w) (work : WorkSize w) (fuel : Nat) :
    work.execute threadCount fuel = launch work.workItems threadCount work.task fuel := by
  cases work <;> rfl

end WorkSize

end Azul.Compute
