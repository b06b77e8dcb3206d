import Azul.Foundation.Sections
import Azul.Foundation.System
import Azul.Ipc.SharedMemory

/-!
# Shared memory of `win32`

There the class owns a handle, and the operating system decides whether an owner creates the memory
or opens what is there already: all objects of one name that are alive have the same memory, and it
is at least as large as each of them. The disposer closes the handle only, so an object that is
destroyed leaves its view, and with it the section, until the process ends; the name goes with the
last handle.
-/

namespace Azul.Ipc.Win32.SharedMemory

open Azul.Foundation
open Azul.Ipc.SharedMemory (cStr)

/-- What a constructor throws. -/
inductive Failure
  /-- `CreateFileMappingA` or `OpenFileMappingA`. -/
  | createFileMapping (error : Nat)
  | mapViewOfFile (error : Nat)
  deriving DecidableEq

/-- The text of an exception. -/
def Failure.what : Failure → String
  | .createFileMapping error => "CreateFileMappingA failed, Error: " ++ toString error
  | .mapViewOfFile error => "MapViewOfFile failed, Error: " ++ toString error

/-- How the life of an object ends. -/
inductive Ending
  /-- The constructor throws. -/
  | thrown (failure : Failure)
  /-- The object is destroyed, and leaves its view. -/
  | destroyed (address : Nat)
  deriving DecidableEq

/-- The next call of a constructor or destructor. -/
inductive Stage
  /-- `CreateFileMappingA` or `OpenFileMappingA`. -/
  | create
  /-- `MapViewOfFile`. -/
  | mapView (handle : Nat)
  /-- The object is constructed. -/
  | live (handle address : Nat)
  /-- `CloseHandle`, in the disposer. -/
  | close (handle : Nat) (ending : Ending)
  /-- The object is destroyed, or its constructor has thrown. -/
  | ended (ending : Ending)
  /-- The process has ended. -/
  | crashed
  deriving DecidableEq

/-- An object of the class, by the arguments of its constructor. -/
structure Instance where
  process : Nat
  name : String
  size : UInt64
  isOwner : Bool
  stage : Stage
  deriving DecidableEq

namespace Instance

variable (system : Sections String) (i : Instance) (reply : Answer)

/-- The handle of an owner, by the two halves of the size, or of a user. -/
def createSharedMemory : Option (Sections String × Except Nat Nat) :=
  if i.isOwner then
    system.createFileMapping i.process (cStr i.name) (i.size >>> 32).toUInt32
      (i.size &&& 0xffffffff).toUInt32 reply
  else
    system.openFileMapping i.process (cStr i.name) reply

/-- One call. -/
def run : Option (Sections String × Stage) :=
  match i.stage with
  | .create =>
    (i.createSharedMemory system reply).map fun (system, result) =>
      (system, match result with
        | .ok handle => .mapView handle
        | .error error => .ended (.thrown (.createFileMapping error)))
  | .mapView handle =>
    (system.mapViewOfFile i.process handle i.size.toNat reply).map fun (system, result) =>
      (system, match result with
        | .ok address => .live handle address
        | .error error => .close handle (.thrown (.mapViewOfFile error)))
  | .close handle ending => some (system.closeHandle i.process handle, .ended ending)
  | .live _ _ | .ended _ | .crashed => none

end Instance

/-- The operating system, and all objects of the class that were ever constructed. -/
structure State where
  system : Sections String
  instances : List Instance

/-- What happens next. -/
inductive Event
  /-- A constructor is entered. -/
  | construct (process : Nat) (name : String) (size : UInt64) (isOwner : Bool)
  /-- A constructor or destructor makes its next call. -/
  | run (index : Nat) (reply : Answer)
  /-- A destructor is entered. -/
  | destroy (index : Nat)
  /-- A process ends. -/
  | exit (process : Nat)

/-- A process has ended. -/
def Instance.exit (process : Nat) (i : Instance) : Instance :=
  if i.process = process then { i with stage := .crashed } else i

namespace State

variable (σ : State)

/-- Put an object at another stage. -/
def goes (index : Nat) (i : Instance) (stage : Stage) (system : Sections String) : State where
  system := system
  instances := σ.instances.set index { i with stage := stage }

/-- One step. -/
def step : Event → Option State
  | .construct process name size isOwner =>
    some { σ with
      instances := σ.instances ++ [{
        process := process
        name := name
        size := size
        isOwner := isOwner
        stage := .create }] }
  | .run index reply =>
    (σ.instances[index]?).bind fun i =>
      (i.run σ.system reply).map fun (system, stage) => σ.goes index i stage system
  | .destroy index =>
    (σ.instances[index]?).bind fun i =>
      match i.stage with
      | .live handle address => some (σ.goes index i (.close handle (.destroyed address)) σ.system)
      | _ => none
  | .exit process =>
    some { system := σ.system.exit process, instances := σ.instances.map (Instance.exit process) }

end State

/-- All processes that use the class, from an empty system. -/
def system : System State Event where
  initial σ := σ.system = .new ∧ σ.instances = []
  step := State.step

/-! ## Who holds what -/

/-- The handle of an object. -/
def Stage.handle : Stage → Option Nat
  | .mapView handle | .live handle _ | .close handle _ => some handle
  | _ => none

/-- The address of an object that was constructed, also when it is destroyed. -/
def Stage.view : Stage → Option Nat
  | .live _ address | .close _ (.destroyed address) | .ended (.destroyed address) => some address
  | _ => none

/-- What an object has in a table of the operating system. -/
def Instance.holds (part : Stage → Option Nat) (i : Instance) : Option (Nat × Nat) :=
  (part i.stage).map fun number => (i.process, number)

/-- What every object has in a table. -/
abbrev State.claims (part : Stage → Option Nat) (σ : State) : Nat → Option (Nat × Nat) :=
  claimsOf (Instance.holds part) σ.instances

/-- The handle of an object is for what its name stands for, and so is its view, which is large
enough. -/
structure Instance.Refers (system : Sections String) (i : Instance) : Prop where
  handle : ∀ number, i.stage.handle = some number → ∃ object,
    system.handle (i.process, number) = some object ∧ system.names (cStr i.name) = some object ∧
      ∀ address, i.stage.view = some address → system.view (i.process, address) = some object
  view : ∀ address, i.stage.view = some address → ∃ object,
    system.view (i.process, address) = some object ∧ object < system.next ∧
      i.size.toNat ≤ system.size object

/-- Names stand for sections that have handles, and different names for different sections. -/
structure Named (system : Sections String) : Prop where
  handles : ∀ name object, system.names name = some object →
    ∃ key, system.handle key = some object
  numbered : ∀ name object, system.names name = some object → object < system.next
  single : ∀ one other object, system.names one = some object →
    system.names other = some object → one = other

/-- What holds in every run. -/
structure Held (σ : State) : Prop where
  handles : Accounted σ.system.handle (σ.claims Stage.handle)
  views : Accounted σ.system.view (σ.claims Stage.view)
  refers : ∀ i ∈ σ.instances, i.Refers σ.system
  named : Named σ.system

/-! ## What a call does -/

/-- What one call of an object does, or the entry of its destructor. -/
inductive Moved (system : Sections String) (i : Instance) : Sections String → Stage → Prop
  | opened {handle object} (stage : i.stage = .create)
      (free : system.handle (i.process, handle) = none)
      (named : system.names (cStr i.name) = some object) :
      Moved system i (system.addHandle i.process handle object) (.mapView handle)
  | created {handle} (size : Nat) (stage : i.stage = .create)
      (free : system.handle (i.process, handle) = none)
      (unnamed : system.names (cStr i.name) = none) :
      Moved system i
        ((system.create (cStr i.name) size).addHandle i.process handle system.next)
        (.mapView handle)
  | mapped {handle address object} (stage : i.stage = .mapView handle)
      (held : system.handle (i.process, handle) = some object)
      (within : i.size.toNat ≤ system.size object)
      (free : system.view (i.process, address) = none) :
      Moved system i (system.addView i.process address object) (.live handle address)
  | closed {handle ending} (stage : i.stage = .close handle ending) :
      Moved system i (system.closeHandle i.process handle) (.ended ending)
  /-- Nothing has changed for the operating system. -/
  | quiet {next} (handle : next.handle = i.stage.handle) (view : next.view = i.stage.view) :
      Moved system i system next

section Moves

variable {system system' : Sections String} {i : Instance} {reply : Answer} {next : Stage}

/-- What a call does. -/
theorem Instance.run_moved (ran : i.run system reply = some (system', next)) :
    Moved system i system' next := by
  cases stage : i.stage with
  | create =>
    simp only [Instance.run, stage] at ran
    obtain ⟨⟨after, result⟩, called, same⟩ := Option.map_eq_some_iff.mp ran
    cases same
    have opens (handle object : Nat) (free : system.handle (i.process, handle) = none)
        (named : system.names (cStr i.name) = some object) :
        Moved system i (system.addHandle i.process handle object) (.mapView handle) :=
      .opened stage free named
    have fails (error : Nat) :
        Moved system i system (.ended (.thrown (.createFileMapping error))) := by
      apply Moved.quiet <;> rw [stage] <;> rfl
    unfold Instance.createSharedMemory at called
    split at called
    case isTrue =>
      rcases Sections.createFileMapping_cases called with ⟨error, rfl, rfl⟩ |
        ⟨handle, object, rfl, free, named, rfl⟩ | ⟨handle, rfl, free, unnamed, rfl⟩
      · exact fails error
      · exact opens handle object free named
      · exact .created _ stage free unnamed
    case isFalse =>
      rcases Sections.openFileMapping_cases called with ⟨error, rfl, rfl⟩ |
        ⟨handle, object, rfl, free, named, rfl⟩
      · exact fails error
      · exact opens handle object free named
  | mapView handle =>
    simp only [Instance.run, stage] at ran
    obtain ⟨⟨after, result⟩, called, same⟩ := Option.map_eq_some_iff.mp ran
    cases same
    rcases Sections.mapViewOfFile_cases called with ⟨error, rfl, rfl⟩ |
      ⟨address, object, rfl, held, within, free, rfl⟩
    · apply Moved.quiet <;> rw [stage] <;> rfl
    · exact .mapped stage held within free
  | close handle ending =>
    simp only [Instance.run, stage] at ran
    cases ran
    exact .closed stage
  | live | ended | crashed =>
    simp only [Instance.run, stage] at ran
    cases ran

/-- An object takes or gives back its handle, or keeps it. -/
theorem Moved.handles (moved : Moved system i system' next) :
    Accounted.Trades system.handle (i.holds Stage.handle) system'.handle
      ({ i with stage := next }.holds Stage.handle) := by
  cases moved with
  | opened stage free | created _ stage free =>
    simp only [Instance.holds, stage, Sections.handle, Sections.addHandle, referenceTable_cons]
    exact .takes rfl free
  | mapped stage =>
    simp only [Instance.holds, stage]
    exact .keeps
  | closed stage =>
    simp only [Instance.holds, stage, Sections.handle, Sections.closeHandle, Sections.sweep,
      referenceTable_erase]
    exact .gives rfl
  | quiet handle =>
    simp only [Instance.holds, handle]
    exact .keeps

/-- An object takes its view, and never gives it back. -/
theorem Moved.views (moved : Moved system i system' next) :
    Accounted.Trades system.view (i.holds Stage.view) system'.view
      ({ i with stage := next }.holds Stage.view) := by
  cases moved with
  | opened stage | created _ stage =>
    simp only [Instance.holds, stage]
    exact .keeps
  | mapped stage _ _ free =>
    simp only [Instance.holds, stage, Sections.view, Sections.addView, referenceTable_cons]
    exact .takes rfl free
  | @closed _ ending stage =>
    have same : (Stage.ended ending).view = i.stage.view := by
      rw [stage]
      cases ending <;> rfl
    simp only [Instance.holds, same]
    exact .keeps
  | quiet _ view =>
    simp only [Instance.holds, view]
    exact .keeps

/-- A name that still has a handle stands for what it stood for. -/
theorem Moved.names_kept (moved : Moved system i system' next) {name : String} {object : Nat}
    (named : system.names name = some object) (used : ∃ key, system'.handle key = some object) :
    system'.names name = some object := by
  cases moved with
  | opened | mapped | quiet => exact named
  | created _ _ _ unnamed =>
    have different : name ≠ cStr i.name := by
      intro same
      rw [same, unnamed] at named
      cases named
    exact (Function.update_of_ne different _ _).trans named
  | closed => exact Sections.sweep_names named used

/-- A section that is there has its size for ever. -/
theorem Moved.size_kept (moved : Moved system i system' next) {object : Nat}
    (old : object < system.next) :
    object < system'.next ∧ system'.size object = system.size object := by
  cases moved with
  | created =>
    exact ⟨Nat.lt_succ_of_lt old, Function.update_of_ne (Nat.ne_of_lt old) _ _⟩
  | _ => exact ⟨old, rfl⟩

/-- Names keep their handles, and stay apart. -/
theorem Moved.named (moved : Moved system i system' next) (named : Named system) :
    Named system' := by
  cases moved with
  | opened _ free =>
    exact ⟨fun name object has => Sections.handle_addHandle free (named.handles name object has),
      named.numbered, named.single⟩
  | mapped | quiet => exact ⟨named.handles, named.numbered, named.single⟩
  | @created handle size _ free =>
    have known {name : String} {object : Nat}
        (has : (system.create (cStr i.name) size).names name = some object) :
        (name = cStr i.name ∧ object = system.next) ∨ system.names name = some object := by
      simp only [Sections.create, Function.update_apply] at has
      split at has
      case isTrue same => exact Or.inl ⟨same, (Option.some.inj has).symm⟩
      case isFalse => exact Or.inr has
    have below {name : String} {object : Nat} (has : system.names name = some object) :
        object ≠ system.next :=
      Nat.ne_of_lt (named.numbered name object has)
    constructor
    · intro name object has
      rcases known has with ⟨_, rfl⟩ | old
      · exact ⟨(i.process, handle), if_pos rfl⟩
      · exact Sections.handle_addHandle free (named.handles name object old)
    · intro name object has
      rcases known has with ⟨_, rfl⟩ | old
      · exact Nat.lt_succ_self _
      · exact Nat.lt_succ_of_lt (named.numbered name object old)
    · intro one other object first second
      rcases known first with ⟨here, new⟩ | old
      · rcases known second with ⟨there, _⟩ | old
        · rw [here, there]
        · exact absurd new (below old)
      · rcases known second with ⟨_, new⟩ | older
        · exact absurd new (below old)
        · exact named.single one other object old older
  | closed =>
    constructor
    · exact fun name object has => (Sections.names_of_sweep has).2
    · exact fun name object has => named.numbered name object (Sections.names_of_sweep has).1
    · exact fun one other object first second => named.single one other object
        (Sections.names_of_sweep first).1 (Sections.names_of_sweep second).1

/-- What an object refers to stays as it is, if its handle and its view do. -/
theorem Instance.Refers.kept {j : Instance} (refers : j.Refers system)
    (names : ∀ name object, system.names name = some object →
      (∃ key, system'.handle key = some object) → system'.names name = some object)
    (size : ∀ object, object < system.next →
      object < system'.next ∧ system'.size object = system.size object)
    (handle : ∀ number, j.stage.handle = some number →
      system'.handle (j.process, number) = system.handle (j.process, number))
    (view : ∀ address, j.stage.view = some address →
      system'.view (j.process, address) = system.view (j.process, address)) :
    j.Refers system' := by
  constructor
  · intro number has
    obtain ⟨object, held, stands, shows⟩ := refers.handle number has
    rw [← handle number has] at held
    refine ⟨object, held, names _ _ stands ⟨_, held⟩, ?_⟩
    intro address seen
    rw [view address seen]
    exact shows address seen
  · intro address has
    obtain ⟨object, mapped, old, enough⟩ := refers.view address has
    obtain ⟨still, same⟩ := size object old
    exact ⟨object, (view address has).trans mapped, still, same ▸ enough⟩

/-- An object refers to what its name stands for, whatever it does. -/
theorem Moved.refers (moved : Moved system i system' next) (named : Named system)
    (refers : i.Refers system) : { i with stage := next }.Refers system' := by
  cases moved with
  | @opened handle object stage free stands =>
    constructor
    · intro number has
      cases has
      refine ⟨object, if_pos rfl, stands, ?_⟩
      intro address seen
      cases seen
    · intro address has
      cases has
  | created =>
    constructor
    · intro number has
      cases has
      refine ⟨system.next, if_pos rfl, Function.update_self _ _ _, ?_⟩
      intro address seen
      cases seen
    · intro address has
      cases has
  | @mapped handle address object stage held within =>
    obtain ⟨other, known, stands, _⟩ := refers.handle handle (by rw [stage]; rfl)
    rw [held] at known
    cases known
    constructor
    · intro number has
      cases has
      refine ⟨object, held, stands, ?_⟩
      intro number seen
      cases seen
      exact if_pos rfl
    · intro number has
      cases has
      exact ⟨object, if_pos rfl, named.numbered _ _ stands, within⟩
  | @closed _ ending stage =>
    constructor
    · intro number has
      cases has
    · intro address has
      have before : i.stage.view = some address := by
        rw [stage, ← has]
        cases ending <;> rfl
      exact refers.view address before
  | quiet handle view =>
    constructor
    · rw [handle, view]
      exact refers.handle
    · rw [view]
      exact refers.view

end Moves

/-! ## What a step does -/

/-- A step is the entry of a constructor, a move of one object, or the end of a process. -/
theorem State.step_cases {σ σ' : State} {event : Event} (stepped : σ.step event = some σ') :
    (∃ process name size isOwner,
      σ' = { σ with instances := σ.instances ++ [⟨process, name, size, isOwner, .create⟩] }) ∨
    (∃ index i system stage, σ.instances[index]? = some i ∧ Moved σ.system i system stage ∧
      σ' = σ.goes index i stage system) ∨
    ∃ process, σ' = ⟨σ.system.exit process, σ.instances.map (Instance.exit process)⟩ := by
  cases event with
  | construct process name size isOwner =>
    cases stepped
    exact Or.inl ⟨process, name, size, isOwner, rfl⟩
  | run index reply =>
    obtain ⟨i, found, goes⟩ := Option.bind_eq_some_iff.mp stepped
    obtain ⟨⟨system, stage⟩, ran, same⟩ := Option.map_eq_some_iff.mp goes
    exact Or.inr (Or.inl ⟨index, i, system, stage, found, Instance.run_moved ran, same.symm⟩)
  | destroy index =>
    obtain ⟨i, found, goes⟩ := Option.bind_eq_some_iff.mp stepped
    split at goes
    case h_1 handle address stage =>
      cases goes
      refine Or.inr (Or.inl ⟨index, i, σ.system, _, found, ?_, rfl⟩)
      apply Moved.quiet <;> rw [stage] <;> rfl
    case h_2 => cases goes
  | exit process =>
    cases stepped
    exact Or.inr (Or.inr ⟨process, rfl⟩)

/-- The end of a process takes everything from its objects. -/
theorem Instance.exit_holds {process : Nat} {part : Stage → Option Nat}
    (ended : part .crashed = none) (i : Instance) :
    (i.exit process).holds part = (i.holds part).filter fun key => ¬ key.1 = process := by
  simp only [Instance.exit, Instance.holds]
  by_cases ours : i.process = process
  · rw [if_pos ours]
    cases part i.stage <;> simp [ours, ended, Option.filter_some]
  · rw [if_neg ours]
    cases part i.stage <;> simp [ours, Option.filter_some]

/-- The end of a process leaves the names that still have handles. -/
theorem Named.exit {system : Sections String} (named : Named system) (process : Nat) :
    Named (system.exit process) := by
  constructor
  · exact fun name object has => (Sections.names_of_sweep has).2
  · exact fun name object has => named.numbered name object (Sections.names_of_sweep has).1
  · exact fun one other object first second => named.single one other object
      (Sections.names_of_sweep first).1 (Sections.names_of_sweep second).1

/-- The end of a process leaves what the objects of the others refer to. -/
theorem Instance.Refers.exit {system : Sections String} {i : Instance} (refers : i.Refers system)
    (process : Nat) : (i.exit process).Refers (system.exit process) := by
  unfold Instance.exit
  split
  case isTrue =>
    constructor <;>
    · intro number has
      cases has
  case isFalse others =>
    refine refers.kept ?_ (fun _ old => ⟨old, rfl⟩) ?_ ?_
    · exact fun name object stands used => Sections.sweep_names stands used
    · intro number _
      rw [Sections.exit_handle]
      exact if_neg others
    · intro address _
      rw [Sections.exit_view]
      exact if_neg others

namespace Held

variable {σ σ' : State} {event : Event}

/-- An object that goes on leaves what the others refer to. -/
theorem goes_refers {index other : Nat} {i j : Instance} {stage : Stage} {system : Sections String}
    (held : Held σ) (found : σ.instances[index]? = some i)
    (moved : Moved σ.system i system stage) (different : other ≠ index)
    (present : σ.instances[other]? = some j) : j.Refers system := by
  have claims (part : Stage → Option Nat) : i.holds part = σ.claims part index :=
    (claimsOf_some found).symm
  have handles := moved.handles
  rw [claims] at handles
  have views := moved.views
  rw [claims] at views
  have has {part : Stage → Option Nat} {number : Nat} (holds : part j.stage = some number) :
      σ.claims part other = some (j.process, number) := by
    simp only [State.claims, claimsOf_some present, Instance.holds, holds, Option.map_some]
  have refers := held.refers j (List.mem_of_getElem? present)
  refine refers.kept (fun _ _ => moved.names_kept) (fun _ => moved.size_kept) ?_ ?_
  · exact fun number holds => held.handles.trade_others handles (has holds) different
  · exact fun address holds => held.views.trade_others views (has holds) different

/-- This is kept by every step. -/
theorem step (held : Held σ) (stepped : σ.step event = some σ') : Held σ' := by
  rcases State.step_cases stepped with ⟨process, name, size, isOwner, rfl⟩ |
    ⟨index, i, system, stage, found, moved, rfl⟩ | ⟨process, rfl⟩
  · constructor
    · rw [State.claims, claimsOf_append rfl]
      exact held.handles
    · rw [State.claims, claimsOf_append rfl]
      exact held.views
    · intro j inside
      rcases List.mem_append.mp inside with old | new
      · exact held.refers j old
      · rw [List.mem_singleton.mp new]
        constructor <;>
        · intro number has
          cases has
    · exact held.named
  · have claims (part : Stage → Option Nat) : i.holds part = σ.claims part index :=
      (claimsOf_some found).symm
    constructor
    · rw [State.claims, State.goes, claimsOf_set found]
      have trades := moved.handles
      rw [claims] at trades
      exact held.handles.trade trades
    · rw [State.claims, State.goes, claimsOf_set found]
      have trades := moved.views
      rw [claims] at trades
      exact held.views.trade trades
    · intro j inside
      obtain ⟨other, present⟩ := List.mem_iff_getElem?.mp inside
      rcases set_cases found present with ⟨_, rfl⟩ | ⟨different, present⟩
      · exact moved.refers held.named (held.refers i (List.mem_of_getElem? found))
      · exact held.goes_refers found moved different present
    · exact moved.named held.named
  · constructor
    · rw [State.claims, claimsOf_map (Instance.exit_holds rfl)]
      rw [Sections.exit_handle]
      exact held.handles.drop fun key => key.1 = process
    · rw [State.claims, claimsOf_map (Instance.exit_holds rfl)]
      rw [Sections.exit_view]
      exact held.views.drop fun key => key.1 = process
    · intro j inside
      obtain ⟨i, old, rfl⟩ := List.mem_map.mp inside
      exact (held.refers i old).exit process
    · exact held.named.exit process

/-- It holds in every run. -/
theorem reachable (reached : system.Reachable σ) : Held σ := by
  apply reached.invariant
  · intro state initial
    obtain ⟨empty, none'⟩ := initial
    have idle (part : Stage → Option Nat) : state.claims part = fun _ => none := by
      funext index
      simp only [State.claims, claimsOf, none', List.getElem?_nil, Option.bind_none]
    constructor
    · rw [empty, idle]
      exact .empty
    · rw [empty, idle]
      exact .empty
    · simp [none']
    · rw [empty]
      constructor
      · intro name object has
        cases has
      · intro name object has
        cases has
      · intro one other object has
        cases has
  · exact fun _ _ _ _ before stepped => before.step stepped

end Held

/-! ## One memory -/

/-- Objects that are alive have the same memory exactly when their names are the same up to a
terminator. It is what the name stands for, and at least as large as each of them. -/
theorem same_memory {σ : State} (reached : system.Reachable σ) {i j : Instance}
    {handle address number other : Nat} (first : i ∈ σ.instances) (second : j ∈ σ.instances)
    (alive : i.stage = .live handle address) (also : j.stage = .live number other) :
    ∃ object, σ.system.names (cStr i.name) = some object ∧
      σ.system.view (i.process, address) = some object ∧ i.size.toNat ≤ σ.system.size object ∧
      (σ.system.view (j.process, other) = some object ↔ cStr j.name = cStr i.name) := by
  have held := Held.reachable reached
  have known {k : Instance} {handle address : Nat} (inside : k ∈ σ.instances)
      (stage : k.stage = .live handle address) : ∃ object,
      σ.system.names (cStr k.name) = some object ∧
        σ.system.view (k.process, address) = some object ∧
        k.size.toNat ≤ σ.system.size object := by
    have seen : k.stage.view = some address := by
      rw [stage]
      rfl
    obtain ⟨object, _, stands, shows⟩ :=
      (held.refers k inside).handle handle (by rw [stage]; rfl)
    obtain ⟨another, mapped, _, enough⟩ := (held.refers k inside).view address seen
    rw [shows address seen] at mapped
    cases mapped
    exact ⟨object, stands, shows address seen, enough⟩
  obtain ⟨object, stands, shows, enough⟩ := known first alive
  obtain ⟨another, stands', shows', _⟩ := known second also
  refine ⟨object, stands, shows, enough, ?_⟩
  constructor
  · intro same
    rw [shows'] at same
    cases same
    exact held.named.single _ _ _ stands' stands
  · intro same
    rw [same, stands] at stands'
    cases stands'
    exact shows'

/-- A second owner gets what is there, and one with more memory nothing; then the first owner is
destroyed. -/
def grownRun : List Event :=
  [.construct 1 "memory" 4096 true, .run 0 (.succeeds 3), .run 0 (.succeeds 65536),
    .construct 2 "memory" 8192 true, .run 1 (.succeeds 3), .run 1 (.succeeds 65536),
    .run 1 (.succeeds 0), .construct 2 "memory" 16 true, .run 2 (.succeeds 3),
    .run 2 (.succeeds 131072)]

theorem grownRun_replays : (system.replay ⟨.new, []⟩ grownRun).isSome = true := by
  decide +kernel

/-- Two owners have the memory of the first one. -/
theorem same_memory_grown :
    let grown := (system.replay ⟨.new, []⟩ grownRun).get grownRun_replays
    grown.instances.map Instance.stage =
      [.live 3 65536, .ended (.thrown (.mapViewOfFile 5)), .live 3 131072] ∧
    ∃ object, grown.system.names "memory" = some object ∧
      grown.system.view (1, 65536) = some object ∧ 4096 ≤ grown.system.size object ∧
      grown.system.view (2, 131072) = some object := by
  intro grown
  have initial : system.initial ⟨.new, []⟩ := ⟨rfl, rfl⟩
  have reached : system.Reachable grown := System.Reachable.of_replay initial grownRun_replays
  have first : ⟨1, "memory", 4096, true, .live 3 65536⟩ ∈ grown.instances := by
    decide +kernel
  have second : ⟨2, "memory", 16, true, .live 3 131072⟩ ∈ grown.instances := by
    decide +kernel
  have plain : cStr "memory" = "memory" := by
    decide +kernel
  obtain ⟨object, stands, shows, enough, shared⟩ := same_memory reached first second rfl rfl
  rw [plain] at stands
  exact ⟨by decide +kernel, object, stands, shows, enough, shared.mpr rfl⟩

/-! ## Who holds a name -/

/-- A name is in use exactly as long as an object of the name has its handle, whichever object
created the section. -/
theorem names_used {σ : State} (reached : system.Reachable σ) (name : String) :
    (σ.system.names name).isSome = true ↔
      ∃ i ∈ σ.instances, i.stage.handle.isSome = true ∧ cStr i.name = name := by
  have held := Held.reachable reached
  constructor
  · intro used
    obtain ⟨object, stands⟩ := Option.isSome_iff_exists.mp used
    obtain ⟨key, known⟩ := held.named.handles name object stands
    obtain ⟨index, claims⟩ := held.handles.owned key (Option.isSome_of_mem known)
    obtain ⟨i, found, holds⟩ := Option.bind_eq_some_iff.mp claims
    obtain ⟨number, has, rfl⟩ := Option.map_eq_some_iff.mp holds
    have inside := List.mem_of_getElem? found
    obtain ⟨another, own, stands', _⟩ := (held.refers i inside).handle number has
    rw [known] at own
    cases own
    exact ⟨i, inside, Option.isSome_of_mem has, held.named.single _ _ _ stands' stands⟩
  · rintro ⟨i, inside, has, rfl⟩
    obtain ⟨number, has⟩ := Option.isSome_iff_exists.mp has
    obtain ⟨object, _, stands, _⟩ := (held.refers i inside).handle number has
    exact Option.isSome_of_mem stands

/-- The first owner, which created the section, is destroyed. -/
def handedRun : List Event := grownRun ++ [.destroy 0, .run 0 (.succeeds 0)]

theorem handedRun_replays : (system.replay ⟨.new, []⟩ handedRun).isSome = true := by
  decide +kernel

/-- The name is still in use for the second owner. -/
theorem names_used_handed :
    let handed := (system.replay ⟨.new, []⟩ handedRun).get handedRun_replays
    (handed.system.names "memory").isSome = true := by
  intro handed
  have initial : system.initial ⟨.new, []⟩ := ⟨rfl, rfl⟩
  have reached : system.Reachable handed := System.Reachable.of_replay initial handedRun_replays
  have second : ⟨2, "memory", 16, true, .live 3 131072⟩ ∈ handed.instances := by
    decide +kernel
  exact (names_used reached "memory").mpr ⟨_, second, rfl, by decide +kernel⟩

/-! ## What is left of a process -/

/-- When the objects of a process are destroyed or have thrown, the process has no handle of them;
but every object that was destroyed has left its view, with memory of its size. -/
theorem views_left {σ : State} (reached : system.Reachable σ) {process : Nat}
    (gone : ∀ i ∈ σ.instances, i.process = process →
      i.stage = .crashed ∨ ∃ ending, i.stage = .ended ending) :
    (∀ number, σ.system.handle (process, number) = none) ∧
      ∀ address, (σ.system.view (process, address)).isSome = true ↔
        ∃! index : Nat, ∃ i : Instance, σ.instances[index]? = some i ∧ i.process = process ∧
          i.stage = .ended (.destroyed address) ∧
          ∃ object ∈ σ.system.view (process, address), i.size.toNat ≤ σ.system.size object := by
  have held := Held.reachable reached
  have claimed {part : Stage → Option Nat} {index number : Nat}
      (claims : σ.claims part index = some (process, number)) :
      ∃ i, σ.instances[index]? = some i ∧ i.process = process ∧ part i.stage = some number := by
    obtain ⟨i, found, holds⟩ := Option.bind_eq_some_iff.mp claims
    obtain ⟨_, has, same⟩ := Option.map_eq_some_iff.mp holds
    cases same
    exact ⟨i, found, rfl, has⟩
  have claims {index address : Nat} {i : Instance} (found : σ.instances[index]? = some i)
      (ours : i.process = process) (stage : i.stage = .ended (.destroyed address)) :
      σ.claims Stage.view index = some (process, address) := by
    simp only [State.claims, claimsOf_some found, Instance.holds, stage, ours]
    rfl
  constructor
  · intro number
    refine held.handles.none_left fun index holds => ?_
    obtain ⟨i, found, ours, has⟩ := claimed holds
    rcases gone i (List.mem_of_getElem? found) ours with stage | ⟨ending, stage⟩ <;>
    · rw [stage] at has
      cases has
  · intro address
    constructor
    · intro there
      obtain ⟨index, holds⟩ := held.views.owned _ there
      obtain ⟨i, found, ours, has⟩ := claimed holds
      have inside := List.mem_of_getElem? found
      have stage : i.stage = .ended (.destroyed address) := by
        rcases gone i inside ours with stage | ⟨ending, stage⟩
        · rw [stage] at has
          cases has
        · rw [stage] at has ⊢
          cases ending <;> cases has
          rfl
      obtain ⟨object, mapped, _, enough⟩ := (held.refers i inside).view address has
      rw [ours] at mapped
      refine ⟨index, ⟨i, found, ours, stage, object, mapped, enough⟩, ?_⟩
      rintro other ⟨j, present, also, ended, _⟩
      exact held.views.apart other index _ (claims present also ended) holds
    · rintro ⟨index, ⟨i, found, ours, stage, _⟩, _⟩
      exact held.views.kept index _ (claims found ours stage)

/-- The second process ends, too. -/
def leftRun : List Event := handedRun ++ [.exit 2]

theorem leftRun_replays : (system.replay ⟨.new, []⟩ leftRun).isSome = true := by
  decide +kernel

/-- Nothing but the view of its object is left of the first process. -/
theorem views_left_handed :
    let left := (system.replay ⟨.new, []⟩ leftRun).get leftRun_replays
    (∀ number, left.system.handle (1, number) = none) ∧
      left.system.view (1, 65536) = some 0 ∧ left.system.names "memory" = none := by
  intro left
  have initial : system.initial ⟨.new, []⟩ := ⟨rfl, rfl⟩
  have reached : system.Reachable left := System.Reachable.of_replay initial leftRun_replays
  have gone : ∀ i ∈ left.instances, i.process = 1 →
      i.stage = .crashed ∨ ∃ ending, i.stage = .ended ending := by
    have listed : left.instances = [⟨1, "memory", 4096, true, .ended (.destroyed 65536)⟩,
        ⟨2, "memory", 8192, true, .crashed⟩, ⟨2, "memory", 16, true, .crashed⟩] := by
      decide +kernel
    rw [listed]
    intro i inside ours
    simp only [List.mem_cons, List.not_mem_nil, or_false] at inside
    rcases inside with rfl | rfl | rfl
    · exact Or.inr ⟨_, rfl⟩
    · cases ours
    · cases ours
  exact ⟨(views_left reached gone).1, by decide +kernel, by decide +kernel⟩

end Azul.Ipc.Win32.SharedMemory
