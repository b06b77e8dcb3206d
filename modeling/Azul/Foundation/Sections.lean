import Azul.Foundation.Holdings
import Azul.Foundation.SharedObjects

/-!
# Named sections

What an operating system keeps for `CreateFileMappingA` and the calls around it: sections of memory
with a name and a size, and the handles and views of every process. A section is there as long as a
handle or a view refers to it, but its name only as long as there is a handle. A call may fail for a
reason of its own, and the system chooses the handles and addresses that it gives, among those that
the process does not use.
-/

namespace Azul.Foundation

/-! ## References -/

/-- A handle or a view of a process. -/
structure Reference where
  process : Nat
  /-- The handle, or the address. -/
  number : Nat
  object : Nat
  deriving DecidableEq

/-- Where a reference is in a table. -/
def Reference.key (r : Reference) : Nat × Nat := (r.process, r.number)

/-- The table of some references. -/
def referenceTable : List Reference → Nat × Nat → Option Nat
  | [], _ => none
  | r :: references, key => if key = r.key then some r.object else referenceTable references key

section Tables

variable {references : List Reference}

/-- One more reference. -/
theorem referenceTable_cons (r : Reference) :
    referenceTable (r :: references) =
      Function.update (referenceTable references) r.key (some r.object) := by
  funext key
  rw [referenceTable, Function.update_apply]

/-- Some references are removed. -/
theorem referenceTable_filter (gone : Nat × Nat → Prop) [DecidablePred gone] :
    referenceTable (references.filter fun r => ¬ gone r.key) =
      fun key => if gone key then none else referenceTable references key := by
  funext key
  induction references with
  | nil => simp [referenceTable]
  | cons r references ih =>
    rw [List.filter_cons]
    by_cases leaves : gone r.key
    · rw [if_neg (by simpa using leaves), ih, referenceTable]
      by_cases same : key = r.key
      · rw [if_pos (same ▸ leaves), if_pos (same ▸ leaves)]
      · rw [if_neg same]
    · rw [if_pos (by simpa using leaves), referenceTable, referenceTable, ih]
      by_cases same : key = r.key
      · rw [if_pos same, if_neg (same ▸ leaves), if_pos same]
      · rw [if_neg same, if_neg same]

/-- One reference is removed. -/
theorem referenceTable_erase (key : Nat × Nat) :
    referenceTable (references.filter fun r => ¬ r.key = key) =
      Function.update (referenceTable references) key none := by
  rw [referenceTable_filter fun other => other = key]
  funext other
  rw [Function.update_apply]

/-- What is in the table is in the list. -/
theorem referenced_of_table {key : Nat × Nat} {object : Nat}
    (held : referenceTable references key = some object) :
    ∃ r ∈ references, r.key = key := by
  induction references with
  | nil => cases held
  | cons r references ih =>
    rw [referenceTable] at held
    split at held
    case isTrue found => exact ⟨r, List.mem_cons_self, found.symm⟩
    case isFalse =>
      obtain ⟨other, inside, same⟩ := ih held
      exact ⟨other, List.mem_cons_of_mem _ inside, same⟩

end Tables

/-! ## Sections -/

/-- The sections, names, handles and views of a system. -/
structure Sections (ν : Type) where
  /-- The number of sections that were created. -/
  next : Nat
  /-- The section that a name stands for. -/
  names : ν → Option Nat
  /-- The size of a section. -/
  size : Nat → Nat
  handles : List Reference
  views : List Reference

namespace Sections

variable {ν : Type}

/-- Nothing was created. -/
def new : Sections ν where
  next := 0
  names _ := none
  size _ := 0
  handles := []
  views := []

variable (system : Sections ν) (process number : Nat)

/-- The section of a handle of a process. -/
def handle : Nat × Nat → Option Nat := referenceTable system.handles

/-- The section of a view of a process. -/
def view : Nat × Nat → Option Nat := referenceTable system.views

/-- A section has a handle. -/
def refers (object : Nat) : Bool :=
  system.handles.any fun r => system.handle r.key == some object

/-- Sections without a handle lose their names. -/
def sweep : Sections ν :=
  { system with names name := (system.names name).filter system.refers }

/-- A process has another handle. -/
def addHandle (object : Nat) : Sections ν :=
  { system with handles := ⟨process, number, object⟩ :: system.handles }

/-- A process has another view. -/
def addView (object : Nat) : Sections ν :=
  { system with views := ⟨process, number, object⟩ :: system.views }

/-- `MapViewOfFile` of a section from its start; the length must be within the section, and no
length stands for all of it. -/
def mapViewOfFile (length : Nat) : Answer → Option (Sections ν × Except Nat Nat)
  | .fails error => some (system, .error error)
  | .succeeds address =>
    match system.handle (process, number) with
    | none => some (system, .error 6)
    | some object =>
      if system.size object < length then some (system, .error 5)
      else if system.view (process, address) = none then
        some (system.addView process address object, .ok address)
      else none

/-- `CloseHandle`. -/
def closeHandle : Sections ν :=
  sweep { system with handles := system.handles.filter fun r => ¬ r.key = (process, number) }

/-- The end of a process closes its handles and removes its views. -/
def exit : Sections ν :=
  sweep { system with
    handles := system.handles.filter fun r => ¬ r.key.1 = process
    views := system.views.filter fun r => ¬ r.key.1 = process }

variable (name : ν)

/-- `OpenFileMappingA`. -/
def openFileMapping : Answer → Option (Sections ν × Except Nat Nat)
  | .fails error => some (system, .error error)
  | .succeeds handle =>
    match system.names name with
    | none => some (system, .error 2)
    | some object =>
      if system.handle (process, handle) = none then
        some (system.addHandle process handle object, .ok handle)
      else none

section Calls

variable {system system' : Sections ν} {process number : Nat} {name : ν} {reply : Answer}
  {result : Except Nat Nat}

/-- `MapViewOfFile` maps the section of the handle, or changes nothing. -/
theorem mapViewOfFile_cases {length : Nat}
    (mapped : system.mapViewOfFile process number length reply = some (system', result)) :
    (∃ error, result = .error error ∧ system' = system) ∨
    ∃ address object, result = .ok address ∧ system.handle (process, number) = some object ∧
      length ≤ system.size object ∧ system.view (process, address) = none ∧
      system' = system.addView process address object := by
  cases reply with
  | fails error =>
    cases mapped
    exact Or.inl ⟨_, rfl, rfl⟩
  | succeeds address =>
    simp only [mapViewOfFile] at mapped
    split at mapped
    case h_1 =>
      cases mapped
      exact Or.inl ⟨_, rfl, rfl⟩
    case h_2 object held =>
      split at mapped
      case isTrue =>
        cases mapped
        exact Or.inl ⟨_, rfl, rfl⟩
      case isFalse within =>
        obtain ⟨free, same⟩ := Option.ite_none_right_eq_some.mp mapped
        cases same
        exact Or.inr ⟨address, object, rfl, held, Nat.le_of_not_lt within, free, rfl⟩

/-- `OpenFileMappingA` opens the section of the name, or changes nothing. -/
theorem openFileMapping_cases
    (opened : system.openFileMapping process name reply = some (system', result)) :
    (∃ error, result = .error error ∧ system' = system) ∨
    ∃ handle object, result = .ok handle ∧ system.handle (process, handle) = none ∧
      system.names name = some object ∧ system' = system.addHandle process handle object := by
  cases reply with
  | fails error =>
    cases opened
    exact Or.inl ⟨_, rfl, rfl⟩
  | succeeds handle =>
    simp only [openFileMapping] at opened
    split at opened
    case h_1 =>
      cases opened
      exact Or.inl ⟨_, rfl, rfl⟩
    case h_2 object named =>
      obtain ⟨free, same⟩ := Option.ite_none_right_eq_some.mp opened
      cases same
      exact Or.inr ⟨handle, object, rfl, free, named, rfl⟩

end Calls

/-! ## Names stay while their sections have handles -/

section Names

variable {system : Sections ν} {process number object : Nat} {name : ν}

theorem refers_iff : system.refers object = true ↔ ∃ key, system.handle key = some object := by
  constructor
  · intro used
    obtain ⟨r, _, same⟩ := List.any_eq_true.mp used
    exact ⟨r.key, eq_of_beq same⟩
  · rintro ⟨key, held⟩
    obtain ⟨r, inside, same⟩ := referenced_of_table held
    exact List.any_eq_true.mpr ⟨r, inside, by rw [same, held]; exact beq_self_eq_true _⟩

/-- A process that has ended has no handle. -/
theorem exit_handle : (system.exit process).handle =
    fun key => if key.1 = process then none else system.handle key :=
  referenceTable_filter fun key => key.1 = process

/-- A process that has ended has no view. -/
theorem exit_view : (system.exit process).view =
    fun key => if key.1 = process then none else system.view key :=
  referenceTable_filter fun key => key.1 = process

/-- The name of a section that has a handle stays. -/
theorem sweep_names (named : system.names name = some object)
    (used : ∃ key, system.handle key = some object) : system.sweep.names name = some object :=
  Option.filter_eq_some_iff.mpr ⟨named, refers_iff.mpr used⟩

/-- What a name stands for after the sweep, it stood for before, and it has a handle. -/
theorem names_of_sweep (named : system.sweep.names name = some object) :
    system.names name = some object ∧ ∃ key, system.sweep.handle key = some object := by
  obtain ⟨before, used⟩ := Option.filter_eq_some_iff.mp named
  exact ⟨before, refers_iff.mp used⟩

/-- What had a handle still has one when there is another. -/
theorem handle_addHandle {other : Nat} (free : system.handle (process, number) = none)
    (used : ∃ key, system.handle key = some object) :
    ∃ key, (system.addHandle process number other).handle key = some object := by
  obtain ⟨key, held⟩ := used
  refine ⟨key, ?_⟩
  have different : key ≠ (process, number) := by
    rintro rfl
    rw [free] at held
    cases held
  exact (if_neg different).trans held

end Names

/-! ## Creation -/

variable [DecidableEq ν]

/-- A new section, and its name. -/
def create (size : Nat) : Sections ν :=
  { system with
    next := system.next + 1
    names := Function.update system.names name (some system.next)
    size := Function.update system.size system.next size }

/-- `CreateFileMappingA` of memory, which opens the section if there is one of the name already. -/
def createFileMapping (high low : UInt32) : Answer → Option (Sections ν × Except Nat Nat)
  | .fails error => some (system, .error error)
  | .succeeds handle =>
    let size := high.toNat * 4294967296 + low.toNat
    if size = 0 then some (system, .error 87)
    else if system.handle (process, handle) = none then
      match system.names name with
      | some object => some (system.addHandle process handle object, .ok handle)
      | none => some ((system.create name size).addHandle process handle system.next, .ok handle)
    else none

section Calls

variable {system system' : Sections ν} {process : Nat} {name : ν} {reply : Answer}
  {result : Except Nat Nat}

/-- `CreateFileMappingA` opens the section of the name, makes one, or changes nothing. -/
theorem createFileMapping_cases {high low : UInt32}
    (created : system.createFileMapping process name high low reply = some (system', result)) :
    (∃ error, result = .error error ∧ system' = system) ∨
    (∃ handle object, result = .ok handle ∧ system.handle (process, handle) = none ∧
      system.names name = some object ∧ system' = system.addHandle process handle object) ∨
    ∃ handle, result = .ok handle ∧ system.handle (process, handle) = none ∧
      system.names name = none ∧
      system' = (system.create name (high.toNat * 4294967296 + low.toNat)).addHandle process handle
        system.next := by
  cases reply with
  | fails error =>
    cases created
    exact Or.inl ⟨_, rfl, rfl⟩
  | succeeds handle =>
    simp only [createFileMapping] at created
    split at created
    case isTrue =>
      cases created
      exact Or.inl ⟨_, rfl, rfl⟩
    case isFalse =>
      obtain ⟨free, made⟩ := Option.ite_none_right_eq_some.mp created
      split at made
      case h_1 object named =>
        cases made
        exact Or.inr (Or.inl ⟨handle, object, rfl, free, named, rfl⟩)
      case h_2 unnamed =>
        cases made
        exact Or.inr (Or.inr ⟨handle, rfl, free, unnamed, rfl⟩)

end Calls

end Sections

end Azul.Foundation
