import Mathlib.Logic.Function.Basic

/-!
# Shared memory objects

What an operating system keeps for `shm_open` and the calls around it: names of objects, their
sizes, and the descriptors and mappings of every process. A name is only a way to an object: after
`shm_unlink` the object is still there for whoever has it open or mapped, and the name is free for
another one. A call may fail for a reason of its own, and the system chooses the descriptors and
addresses that it gives, among those that the process does not use.
-/

namespace Azul.Foundation

/-- Why a call fails. -/
inductive Errno
  /-- `EEXIST`. -/
  | alreadyExists
  /-- `ENOENT`. -/
  | noEntry
  /-- `EINVAL`. -/
  | invalid
  /-- Any other number. -/
  | other (number : Nat)
  deriving DecidableEq, Repr

/-- The number of an error. -/
def Errno.number : Errno → Nat
  | .alreadyExists => 17
  | .noEntry => 2
  | .invalid => 22
  | .other number => number

/-- The part of a call's result that is up to the system. -/
inductive Answer
  /-- The call fails for a reason of its own. -/
  | fails (number : Nat)
  /-- The call does what it is for; the system may choose a number. -/
  | succeeds (chosen : Nat)
  deriving DecidableEq, Repr

/-- The call fails for a reason of its own. -/
def Answer.isFailure : Answer → Bool
  | .fails _ => true
  | .succeeds _ => false

/-- The objects, names, descriptors and mappings of a system. -/
structure SharedObjects (ν : Type) where
  /-- The number of objects that were created. -/
  next : Nat
  /-- The object that a name stands for. -/
  names : ν → Option Nat
  /-- The size of an object. -/
  size : Nat → Nat
  /-- The object of a descriptor of a process. -/
  descriptors : Nat × Nat → Option Nat
  /-- The object that is mapped at an address of a process, and the length of the mapping. -/
  mappings : Nat × Nat → Option (Nat × Nat)

namespace SharedObjects

variable {ν : Type}

/-- Nothing was created. -/
def new : SharedObjects ν where
  next := 0
  names _ := none
  size _ := 0
  descriptors _ := none
  mappings _ := none

variable (system : SharedObjects ν) (process descriptor : Nat)

/-! ## Descriptors and mappings -/

/-- A descriptor of a process stands for an object. -/
def describe (object : Nat) : SharedObjects ν :=
  { system with
    descriptors := Function.update system.descriptors (process, descriptor) (some object) }

/-- Give a process a descriptor for an object, if it does not use it already. -/
def giveDescriptor (object : Nat) : Option (SharedObjects ν × Except Errno Nat) :=
  if system.descriptors (process, descriptor) = none then
    some (system.describe process descriptor object, .ok descriptor)
  else none

/-- An object has another size. -/
def resize (object length : Nat) : SharedObjects ν :=
  { system with size := Function.update system.size object length }

/-- `ftruncate`, whose length is signed. -/
def ftruncate (length : Int) : Answer → SharedObjects ν × Except Errno Unit
  | .fails number => (system, .error (.other number))
  | .succeeds _ =>
    match system.descriptors (process, descriptor) with
    | some object =>
      if 0 ≤ length then
        (system.resize object length.toNat, .ok ())
      else (system, .error .invalid)
    | none => (system, .error (.other 9))

/-- `fstat`, for the size. -/
def fstat : Answer → Except Errno Nat
  | .fails number => .error (.other number)
  | .succeeds _ =>
    match system.descriptors (process, descriptor) with
    | some object => .ok (system.size object)
    | none => .error (.other 9)

/-- An object is mapped at an address of a process. -/
def map (address object length : Nat) : SharedObjects ν :=
  { system with
    mappings := Function.update system.mappings (process, address) (some (object, length)) }

/-- `mmap` of a shared object from its start. -/
def mmap (length : Nat) : Answer → Option (SharedObjects ν × Except Errno Nat)
  | .fails number => some (system, .error (.other number))
  | .succeeds address =>
    match system.descriptors (process, descriptor) with
    | some object =>
      if length = 0 then some (system, .error .invalid)
      else if system.mappings (process, address) = none then
        some (system.map process address object length, .ok address)
      else none
    | none => some (system, .error (.other 9))

/-- `munmap` of a whole mapping. -/
def munmap (address : Nat) : SharedObjects ν :=
  { system with mappings := Function.update system.mappings (process, address) none }

/-- `close`. -/
def close : SharedObjects ν :=
  { system with descriptors := Function.update system.descriptors (process, descriptor) none }

/-- The end of a process closes its descriptors and removes its mappings; names stay. -/
def exit : SharedObjects ν :=
  { system with
    descriptors key := if key.1 = process then none else system.descriptors key
    mappings key := if key.1 = process then none else system.mappings key }

section Entries

variable {system process descriptor} {object length other : Nat} {key : Nat × Nat}

@[simp]
theorem describe_self :
    (system.describe process descriptor object).descriptors (process, descriptor) = some object :=
  Function.update_self _ _ _

theorem describe_other (different : key ≠ (process, descriptor)) :
    (system.describe process descriptor object).descriptors key = system.descriptors key :=
  Function.update_of_ne different _ _

@[simp]
theorem close_self : (system.close process descriptor).descriptors (process, descriptor) = none :=
  Function.update_self _ _ _

theorem close_other (different : key ≠ (process, descriptor)) :
    (system.close process descriptor).descriptors key = system.descriptors key :=
  Function.update_of_ne different _ _

@[simp]
theorem resize_self : (system.resize object length).size object = length :=
  Function.update_self _ _ _

theorem resize_other (different : other ≠ object) :
    (system.resize object length).size other = system.size other :=
  Function.update_of_ne different _ _

theorem exit_own (own : key.1 = process) : (system.exit process).descriptors key = none :=
  if_pos own

theorem exit_other (different : key.1 ≠ process) :
    (system.exit process).descriptors key = system.descriptors key :=
  if_neg different

end Entries

section Calls

variable {system' : SharedObjects ν} (reply : Answer)

/-- `ftruncate` resizes the object, or changes nothing. -/
theorem ftruncate_cases (length : Int) :
    (∃ error, system.ftruncate process descriptor length reply = (system, .error error)) ∨
    ∃ object, system.descriptors (process, descriptor) = some object ∧ 0 ≤ length ∧
      system.ftruncate process descriptor length reply =
        (system.resize object length.toNat, .ok ()) := by
  cases reply with
  | fails number => exact Or.inl ⟨_, rfl⟩
  | succeeds chosen =>
    simp only [ftruncate]
    split
    case h_1 object found =>
      split
      case isTrue positive => exact Or.inr ⟨object, found, positive, rfl⟩
      case isFalse => exact Or.inl ⟨_, rfl⟩
    case h_2 => exact Or.inl ⟨_, rfl⟩

variable {system process descriptor reply} in
/-- `ftruncate` of what is open, to a length that is not negative. -/
theorem ftruncate_succeeds {length : Int} (answers : reply.isFailure = false)
    (has : system.descriptors (process, descriptor) ≠ none) (positive : 0 ≤ length) :
    ∃ system', system.ftruncate process descriptor length reply = (system', .ok ()) := by
  obtain ⟨object, found⟩ := Option.ne_none_iff_exists'.mp has
  cases reply with
  | fails number => cases answers
  | succeeds chosen => exact ⟨_, by simp only [ftruncate, found, if_pos positive]; rfl⟩

/-- `mmap` can give a free address. -/
theorem mmap_isSome (length : Nat) {address : Nat}
    (free : system.mappings (process, address) = none) :
    (system.mmap process descriptor length (.succeeds address)).isSome = true := by
  simp only [mmap, if_pos free]
  split
  case h_1 => split <;> rfl
  case h_2 => rfl

variable {system process descriptor reply} in
/-- `mmap` of what is open, with some length. -/
theorem mmap_succeeds {length : Nat} {result : Except Errno Nat} (answers : reply.isFailure = false)
    (has : system.descriptors (process, descriptor) ≠ none) (filled : length ≠ 0)
    (called : system.mmap process descriptor length reply = some (system', result)) :
    ∃ address, result = .ok address := by
  obtain ⟨object, found⟩ := Option.ne_none_iff_exists'.mp has
  cases reply with
  | fails number => cases answers
  | succeeds address =>
    simp only [mmap, found, if_neg filled] at called
    obtain ⟨_, same⟩ := Option.ite_none_right_eq_some.mp called
    cases same
    exact ⟨_, rfl⟩

variable {system process descriptor reply}

/-- `mmap` maps the object, or changes nothing. -/
theorem mmap_cases {length : Nat} {result : Except Errno Nat}
    (mapped : system.mmap process descriptor length reply = some (system', result)) :
    (∃ error, result = .error error ∧ system' = system) ∨
    ∃ address object, result = .ok address ∧
      system.descriptors (process, descriptor) = some object ∧
      system.mappings (process, address) = none ∧
      system' = system.map process address object length := by
  cases reply with
  | fails number =>
    cases mapped
    exact Or.inl ⟨_, rfl, rfl⟩
  | succeeds address =>
    simp only [mmap] at mapped
    split at mapped
    case h_1 object found =>
      split at mapped
      case isTrue =>
        cases mapped
        exact Or.inl ⟨_, rfl, rfl⟩
      case isFalse =>
        obtain ⟨free, same⟩ := Option.ite_none_right_eq_some.mp mapped
        cases same
        exact Or.inr ⟨address, object, rfl, found, free, rfl⟩
    case h_2 =>
      cases mapped
      exact Or.inl ⟨_, rfl, rfl⟩

end Calls

/-! ## Objects are numbered -/

/-- What is known of an object was created, under one name. -/
structure Numbered (system : SharedObjects ν) : Prop where
  described : ∀ key object, system.descriptors key = some object → object < system.next
  named : ∀ name object, system.names name = some object → object < system.next
  single : ∀ one other object, system.names one = some object →
    system.names other = some object → one = other

namespace Numbered

variable {system : SharedObjects ν} {process descriptor object : Nat}

theorem new : Numbered (SharedObjects.new : SharedObjects ν) := by
  constructor
  · intro key object known
    cases known
  · intro name object known
    cases known
  · intro one other object known
    cases known

theorem describe (numbered : Numbered system) (known : object < system.next) :
    Numbered (system.describe process descriptor object) := by
  refine ⟨?_, numbered.named, numbered.single⟩
  intro key other described
  by_cases same : key = (process, descriptor)
  · rw [same, describe_self] at described
    cases described
    exact known
  · rw [describe_other same] at described
    exact numbered.described key other described

theorem close (numbered : Numbered system) : Numbered (system.close process descriptor) := by
  refine ⟨?_, numbered.named, numbered.single⟩
  intro key object known
  by_cases same : key = (process, descriptor)
  · rw [same, close_self] at known
    cases known
  · rw [close_other same] at known
    exact numbered.described key object known

theorem exit (numbered : Numbered system) : Numbered (system.exit process) := by
  refine ⟨?_, numbered.named, numbered.single⟩
  intro key object known
  by_cases own : key.1 = process
  · rw [exit_own own] at known
    cases known
  · rw [exit_other own] at known
    exact numbered.described key object known

end Numbered

/-! ## Names -/

variable [DecidableEq ν] (name : ν)

/-- A new object, which is empty, and its name. -/
def create : SharedObjects ν :=
  { system with
    next := system.next + 1
    names := Function.update system.names name (some system.next)
    size := Function.update system.size system.next 0 }

/-- `shm_open`, with `O_CREAT` and `O_EXCL` or not. -/
def shmOpen (creates exclusive : Bool) : Answer → Option (SharedObjects ν × Except Errno Nat)
  | .fails number => some (system, .error (.other number))
  | .succeeds descriptor =>
    match system.names name with
    | some object =>
      if creates && exclusive then some (system, .error .alreadyExists)
      else system.giveDescriptor process descriptor object
    | none =>
      if creates then (system.create name).giveDescriptor process descriptor system.next
      else some (system, .error .noEntry)

/-- A name is removed. -/
def forget : SharedObjects ν := { system with names := Function.update system.names name none }

/-- `shm_unlink`. -/
def shmUnlink : Answer → SharedObjects ν × Except Errno Unit
  | .fails number => (system, .error (.other number))
  | .succeeds _ =>
    match system.names name with
    | some _ => (system.forget name, .ok ())
    | none => (system, .error .noEntry)

section Entries

variable {system name} {other : ν} {object : Nat}

@[simp]
theorem create_self : (system.create name).names name = some system.next :=
  Function.update_self _ _ _

theorem create_other (different : other ≠ name) :
    (system.create name).names other = system.names other :=
  Function.update_of_ne different _ _

variable (name) in
@[simp]
theorem create_size : (system.create name).size system.next = 0 :=
  Function.update_self _ _ _

variable (name) in
theorem create_size_other (different : object ≠ system.next) :
    (system.create name).size object = system.size object :=
  Function.update_of_ne different _ _

@[simp]
theorem forget_self : (system.forget name).names name = none :=
  Function.update_self _ _ _

theorem forget_other (different : other ≠ name) :
    (system.forget name).names other = system.names other :=
  Function.update_of_ne different _ _

end Entries

section Calls

variable {system system' : SharedObjects ν} {process : Nat} {name : ν} {reply : Answer}

/-- `shm_open` fails, opens what the name stands for, or creates an object. -/
theorem shmOpen_cases {creates exclusive : Bool} {result : Except Errno Nat}
    (opened : system.shmOpen process name creates exclusive reply = some (system', result)) :
    (∃ error, result = .error error ∧ system' = system ∧
      (error = .alreadyExists → creates = true ∧ exclusive = true)) ∨
    (∃ descriptor object, result = .ok descriptor ∧ system.names name = some object ∧
      (creates && exclusive) = false ∧ system.descriptors (process, descriptor) = none ∧
      system' = system.describe process descriptor object) ∨
    ∃ descriptor, result = .ok descriptor ∧ creates = true ∧ system.names name = none ∧
      system.descriptors (process, descriptor) = none ∧
      system' = (system.create name).describe process descriptor system.next := by
  cases reply with
  | fails number =>
    cases opened
    exact Or.inl ⟨_, rfl, rfl, fun clash => by cases clash⟩
  | succeeds descriptor =>
    simp only [shmOpen] at opened
    split at opened
    case h_1 object named =>
      split at opened
      case isTrue both =>
        cases opened
        exact Or.inl ⟨_, rfl, rfl, fun _ => Bool.and_eq_true_iff.mp both⟩
      case isFalse shared =>
        obtain ⟨free, same⟩ := Option.ite_none_right_eq_some.mp opened
        cases same
        exact Or.inr (Or.inl ⟨descriptor, object, rfl, named,
          Bool.eq_false_iff.mpr shared, free, rfl⟩)
    case h_2 unnamed =>
      split at opened
      case isTrue creates =>
        obtain ⟨free, same⟩ := Option.ite_none_right_eq_some.mp opened
        cases same
        exact Or.inr (Or.inr ⟨descriptor, rfl, creates, unnamed, free, rfl⟩)
      case isFalse =>
        cases opened
        exact Or.inl ⟨_, rfl, rfl, fun clash => by cases clash⟩

variable (system name) in
/-- `shm_open` can give a free descriptor. -/
theorem shmOpen_isSome (creates exclusive : Bool) {descriptor : Nat}
    (free : system.descriptors (process, descriptor) = none) :
    (system.shmOpen process name creates exclusive (.succeeds descriptor)).isSome = true := by
  have fresh : (system.create name).descriptors (process, descriptor) = none := free
  simp only [shmOpen, giveDescriptor, if_pos free, if_pos fresh]
  split <;> split <;> rfl

/-- `shm_open` with `O_CREAT` gives a descriptor, unless the system fails or `O_EXCL` finds the name
in use. -/
theorem shmOpen_succeeds {exclusive : Bool} {result : Except Errno Nat}
    (opened : system.shmOpen process name true exclusive reply = some (system', result))
    (answers : reply.isFailure = false) :
    (∃ descriptor, result = .ok descriptor) ∨
      (result = .error .alreadyExists ∧ system' = system ∧ exclusive = true ∧
        system.names name ≠ none) := by
  cases reply with
  | fails number => cases answers
  | succeeds descriptor =>
    simp only [shmOpen] at opened
    split at opened
    case h_1 object named =>
      split at opened
      case isTrue both =>
        cases opened
        refine Or.inr ⟨rfl, rfl, both, ?_⟩
        rw [named]
        exact Option.some_ne_none _
      case isFalse =>
        obtain ⟨_, same⟩ := Option.ite_none_right_eq_some.mp opened
        cases same
        exact Or.inl ⟨_, rfl⟩
    case h_2 =>
      obtain ⟨_, same⟩ := Option.ite_none_right_eq_some.mp opened
      cases same
      exact Or.inl ⟨_, rfl⟩

/-- A name that stands for nothing can be removed. -/
theorem forget_unnamed (unnamed : system.names name = none) : system.forget name = system := by
  have same : Function.update system.names name none = system.names := by
    rw [← unnamed, Function.update_eq_self]
  rw [forget, same]

variable (system name reply)

/-- `shm_unlink` fails and changes nothing, or the name is gone. -/
theorem shmUnlink_cases :
    (∃ error, system.shmUnlink name reply = (system, .error error) ∧
      (reply.isFailure = false → system.names name = none)) ∨
    system.shmUnlink name reply = (system.forget name, .ok ()) := by
  cases reply with
  | fails number =>
    refine Or.inl ⟨_, rfl, ?_⟩
    intro succeeds
    cases succeeds
  | succeeds chosen =>
    simp only [shmUnlink]
    split
    case h_1 => exact Or.inr rfl
    case h_2 unnamed => exact Or.inl ⟨_, rfl, fun _ => unnamed⟩

end Calls

namespace Numbered

variable {system : SharedObjects ν} {name : ν}

theorem create (numbered : Numbered system) : Numbered (system.create name) := by
  constructor
  · exact fun key object known => Nat.lt_succ_of_lt (numbered.described key object known)
  · intro other object known
    by_cases same : other = name
    · rw [same, create_self] at known
      cases known
      exact Nat.lt_succ_self _
    · rw [create_other same] at known
      exact Nat.lt_succ_of_lt (numbered.named other object known)
  · have fresh {other : ν} {object : Nat} (known : system.names other = some object)
        (new : (system.create name).names name = some object) : False := by
      rw [create_self] at new
      cases new
      exact Nat.lt_irrefl _ (numbered.named other _ known)
    intro one other object first second
    by_cases same : one = name
    · by_cases also : other = name
      · rw [same, also]
      · rw [create_other also] at second
        exact (fresh second (same ▸ first)).elim
    · rw [create_other same] at first
      by_cases also : other = name
      · exact (fresh first (also ▸ second)).elim
      · rw [create_other also] at second
        exact numbered.single one other object first second

theorem forget (numbered : Numbered system) : Numbered (system.forget name) := by
  have remains {other : ν} {object : Nat}
      (known : (system.forget name).names other = some object) :
      system.names other = some object := by
    by_cases same : other = name
    · rw [same, forget_self] at known
      cases known
    · rwa [forget_other same] at known
  refine ⟨numbered.described, ?_, ?_⟩
  · exact fun other object known => numbered.named other object (remains known)
  · intro one other object first second
    exact numbered.single one other object (remains first) (remains second)

end Numbered

end SharedObjects

end Azul.Foundation
