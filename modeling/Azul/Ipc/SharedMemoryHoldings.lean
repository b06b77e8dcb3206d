import Azul.Foundation.Holdings
import Azul.Ipc.SharedMemory

/-!
# Descriptors and mappings of shared memory

What the objects of the class hold is what the operating system has given out, whatever calls fail
and wherever a constructor throws: a descriptor or a mapping of a process belongs to exactly one
object, which is under construction, alive or being destroyed. So nothing is closed or unmapped
twice, and when the objects of a process are gone nothing of them is left.
-/

namespace Azul.Ipc.SharedMemory

open Azul.Foundation

/-! ## What a stage holds -/

namespace Stage

/-- The descriptor of an object. -/
@[simp]
def descriptor : Stage → Option Nat
  | .fstat fd | .ftruncate fd | .mmap fd | .live fd _ | .munmap fd _ | .close fd _ => some fd
  | _ => none

/-- The address of an object. -/
@[simp]
def address : Stage → Option Nat
  | .live _ address | .munmap _ address => some address
  | _ => none

/-- The object has a descriptor, or is about to remove its name. -/
@[simp]
def owes : Stage → Bool
  | .shmUnlink _ => true
  | stage => stage.descriptor.isSome

/-- There is nothing left to do. -/
@[simp]
def isOver : Stage → Bool
  | .ended _ | .crashed => true
  | _ => false

/-- Only an owner comes here. -/
@[simp]
def isOwners : Stage → Bool
  | .unlinkStale | .unlinkExisting | .reopen | .fstat _ | .ftruncate _ | .shmUnlink _ => true
  | _ => false

/-- An owner is about to open its object. -/
@[simp]
def opens : Stage → Bool
  | .shmOpen | .reopen => true
  | _ => false

/-- The result of the call is ignored. -/
@[simp]
def ignores : Stage → Bool
  | .unlinkStale | .shmUnlink _ => true
  | _ => false

/-- The size of the object is asked for. -/
@[simp]
def asks : Stage → Bool
  | .fstat _ => true
  | _ => false

/-- The memory of an owner has its size. -/
@[simp]
def isSized : Stage → Bool
  | .mmap _ | .live _ _ | .munmap _ _ => true
  | _ => false

/-- Who opens the memory has no descriptor yet. -/
theorem opens_bare {stage : Stage} (opens : stage.opens = true) : stage.descriptor = none := by
  cases stage <;> first | rfl | cases opens

end Stage

/-! ## What a call does -/

/-- An object is at another place in its code, and nothing else has changed. -/
structure Quiet (i : Instance) (reply : Answer) (next : Stage) : Prop where
  descriptor : next.descriptor = i.stage.descriptor
  address : next.address = i.stage.address
  sized : next.isSized = false
  asks : next.asks = false
  owners : next.isOwners = true → i.isOwner = true
  /-- A name that an owner does not want is left only by a call that fails. -/
  fails : next.opens = true ∨ i.stage.ignores = true →
    i.stage.ignores = true ∧ reply.isFailure = true
  owes : next.owes = true → i.stage.owes = true
  stays : i.stage.owes = true → next.owes = true ∨ i.stage.ignores = true ∧ next.isOver = true

/-- What one call of an object does, or the entry of its destructor, on either platform. -/
inductive Moved (platform : Platform) (system : SharedObjects String) (i : Instance)
    (reply : Answer) : SharedObjects String → Stage → Prop
  /-- The object that the name stands for is opened. -/
  | opened {fd object next} (named : system.names (platform.key i.name) = some object)
      (free : system.descriptors (i.process, fd) = none) (bare : i.stage.opens = true)
      (shared : i.isOwner = false ∨ platform.exclusive = false)
      (holds : next = if i.isOwner then .fstat fd else .mmap fd) :
      Moved platform system i reply (system.describe i.process fd object) next
  | created {fd next} (owner : i.isOwner = true)
      (unnamed : system.names (platform.key i.name) = none)
      (free : system.descriptors (i.process, fd) = none) (bare : i.stage.opens = true)
      (holds : next = if platform.exclusive then .ftruncate fd else .fstat fd) :
      Moved platform system i reply
        ((system.create (platform.key i.name)).describe i.process fd system.next) next
  /-- The name is free for an owner. -/
  | cleared {next} (owner : i.isOwner = true)
      (bare : i.stage = .unlinkStale ∨ i.stage = .unlinkExisting)
      (opens : next = .shmOpen ∨ next = .reopen) :
      Moved platform system i reply (system.forget (platform.key i.name)) next
  | resized {fd object} (owner : i.isOwner = true) (stage : i.stage = .ftruncate fd)
      (has : system.descriptors (i.process, fd) = some object)
      (positive : 0 ≤ i.size.toInt64.toInt) :
      Moved platform system i reply (system.resize object i.size.toInt64.toInt.toNat) (.mmap fd)
  | mapped {fd object address} (stage : i.stage = .mmap fd)
      (has : system.descriptors (i.process, fd) = some object)
      (free : system.mappings (i.process, address) = none) :
      Moved platform system i reply (system.map i.process address object i.size.toNat)
        (.live fd address)
  | unmapped {fd address} (stage : i.stage = .munmap fd address) :
      Moved platform system i reply (system.munmap i.process address) (.close fd none)
  | closed {fd thrown} (stage : i.stage = .close fd thrown) :
      Moved platform system i reply (system.close i.process fd) (i.closed thrown)
  /-- An owner has removed its name at the end. -/
  | removed {thrown} (owner : i.isOwner = true) (stage : i.stage = .shmUnlink thrown) :
      Moved platform system i reply (system.forget (platform.key i.name)) (.ended thrown)
  /-- `fstat` is followed by `mmap`. -/
  | skipped {fd} (stage : i.stage = .fstat fd) (shared : platform.exclusive = false)
      (why : ∀ object, system.descriptors (i.process, fd) = some object →
        reply.isFailure = false → system.size object ≠ 0) :
      Moved platform system i reply system (.mmap fd)
  /-- The destructor is entered. -/
  | entered {fd address} (stage : i.stage = .live fd address) :
      Moved platform system i reply system (.munmap fd address)
  | quiet {next} (quiet : Quiet i reply next) : Moved platform system i reply system next

section Runs

variable {system system' : SharedObjects String} {i : Instance} {reply : Answer} {next : Stage}
  {platform : Platform} {thrown : Option Failure} {fd : Nat}

/-- A constructor throws before it has a descriptor. -/
theorem Quiet.throws (stage : i.stage = .shmOpen ∨ i.stage = .unlinkExisting ∨ i.stage = .reopen) :
    Quiet i reply (.ended thrown) := by
  rcases stage with here | here | here <;> constructor <;>
    simp [here]

/-- An owner has found its name in use. -/
theorem Quiet.finds (owner : i.isOwner = true) (stage : i.stage = .shmOpen) :
    Quiet i reply .unlinkExisting := by
  constructor <;>
    simp [owner, stage]

/-- The memory is empty. -/
theorem Quiet.statted (owner : i.isOwner = true) (stage : i.stage = .fstat fd) :
    Quiet i reply (.ftruncate fd) := by
  constructor <;>
    simp [owner, stage]

/-- The constructor throws, and the descriptor is to be closed. -/
theorem Quiet.closes (stage : i.stage = .ftruncate fd ∨ i.stage = .mmap fd) :
    Quiet i reply (.close fd thrown) := by
  rcases stage with here | here <;> constructor <;>
    simp [here]

/-- A call has failed, and nobody looks at that. -/
theorem Quiet.ignored (failed : reply.isFailure = true)
    (stage : i.stage = .unlinkStale ∧ next = .shmOpen ∨
      ∃ thrown, i.stage = .shmUnlink thrown ∧ next = .ended thrown) :
    Quiet i reply next := by
  rcases stage with ⟨here, there⟩ | ⟨thrown, here, there⟩ <;> constructor <;>
    simp [here, there, failed]

/-- The last call of the constructor maps the object, or the descriptor is to be closed. -/
theorem Instance.mmap_moved (stage : i.stage = .mmap fd)
    (ran : i.mmap system fd reply = some (system', next)) :
    Moved platform system i reply system' next := by
  obtain ⟨⟨_, result⟩, called, same⟩ := Option.map_eq_some_iff.mp ran
  rcases SharedObjects.mmap_cases called with
    ⟨error, rfl, rfl⟩ | ⟨address, object, rfl, has, free, rfl⟩
  · cases same
    exact .quiet (.closes (Or.inr stage))
  · cases same
    exact .mapped stage has free

/-- `ftruncate` resizes the object, or the descriptor is to be closed. -/
theorem Instance.ftruncate_moved (owner : i.isOwner = true) (stage : i.stage = .ftruncate fd)
    (ran : i.ftruncate system fd reply = (system', next)) :
    Moved platform system i reply system' next := by
  rcases SharedObjects.ftruncate_cases system i.process fd reply i.size.toInt64.toInt with
    ⟨error, called⟩ | ⟨object, has, positive, called⟩
  · simp only [Instance.ftruncate, called] at ran
    cases ran
    exact .quiet (.closes (Or.inl stage))
  · simp only [Instance.ftruncate, called] at ran
    cases ran
    exact .resized owner stage has positive

/-- `shm_open` gives a descriptor, or the constructor takes another way. -/
theorem Moved.opens {exclusive : Bool} {result : Except Errno Nat} (stage : i.stage.opens = true)
    (insists : exclusive = (i.isOwner && platform.exclusive))
    (called : system.shmOpen i.process (platform.key i.name) i.isOwner exclusive reply =
      some (system', result))
    (allocates : ∀ fd, result = .ok fd →
      next = if i.isOwner then (if platform.exclusive then .ftruncate fd else .fstat fd)
        else .mmap fd)
    (halts : ∀ error, result = .error error → (error = .alreadyExists → i.isOwner = true) →
      Quiet i reply next) :
    Moved platform system i reply system' next := by
  rcases SharedObjects.shmOpen_cases called with ⟨error, failed, rfl, why⟩ |
    ⟨fd, object, given, named, shared, free, rfl⟩ | ⟨fd, given, creates, unnamed, free, rfl⟩
  · exact .quiet (halts error failed fun found => (why found).1)
  · have goes := allocates fd given
    cases owner : i.isOwner with
    | false =>
      rw [owner] at goes
      exact .opened named free stage (Or.inl owner) (by rw [goes, owner]; rfl)
    | true =>
      have unforced : platform.exclusive = false := by
        rwa [insists, owner] at shared
      rw [owner, unforced] at goes
      exact .opened named free stage (Or.inr unforced) (by rw [goes, owner]; rfl)
  · have goes := allocates fd given
    rw [creates] at goes
    exact .created creates unnamed free stage goes

/-- The name is removed before it is used again, or the constructor throws. -/
theorem Moved.clears (owner : i.isOwner = true) (stage : i.stage = .unlinkExisting)
    {result : Except Errno Unit}
    (goes : next = match result with
      | .ok () => .reopen
      | .error error => .ended (some (.shmUnlink error)))
    (called : system.shmUnlink (platform.key i.name) reply = (system', result)) :
    Moved platform system i reply system' next := by
  rcases SharedObjects.shmUnlink_cases system (platform.key i.name) reply with
    ⟨error, failed, _⟩ | gone
  · rw [failed] at called
    cases called
    rw [goes]
    exact .quiet (.throws (Or.inr (Or.inl stage)))
  · rw [gone] at called
    cases called
    exact .cleared owner (Or.inr stage) (Or.inr goes)

/-- The name is removed, and nobody looks at the result. -/
theorem Moved.unlinks (owner : i.isOwner = true)
    (stage : i.stage = .unlinkStale ∧ next = .shmOpen ∨
      ∃ thrown, i.stage = .shmUnlink thrown ∧ next = .ended thrown) :
    Moved platform system i reply (system.shmUnlink (platform.key i.name) reply).1 next := by
  have removes : Moved platform system i reply (system.forget (platform.key i.name)) next := by
    rcases stage with ⟨here, there⟩ | ⟨thrown, here, rfl⟩
    · exact .cleared owner (Or.inl here) (Or.inl there)
    · exact .removed owner here
  rcases SharedObjects.shmUnlink_cases system (platform.key i.name) reply with
    ⟨error, failed, why⟩ | gone
  · rw [failed]
    cases answer : reply.isFailure with
    | true => exact .quiet (.ignored answer stage)
    | false => rwa [SharedObjects.forget_unnamed (why answer)] at removes
  · rwa [gone]

/-- What a call does on `linux`. -/
theorem Linux.run_moved (owners : i.stage.isOwners = true → i.isOwner = true)
    (ran : Linux.run system i reply = some (system', next)) :
    Moved .linux system i reply system' next := by
  have insists : i.isOwner = (i.isOwner && Platform.linux.exclusive) := (Bool.and_true _).symm
  cases stage : i.stage with
  | shmOpen =>
    simp only [Linux.run, stage] at ran
    obtain ⟨⟨after, result⟩, called, same⟩ := Option.map_eq_some_iff.mp ran
    cases same
    refine .opens (by rw [stage]; rfl) insists called ?_ ?_
    · intro fd given
      cases given
      rfl
    · intro error failed owner
      cases failed
      cases error with
      | alreadyExists => exact .finds (owner rfl) stage
      | _ => exact .throws (Or.inl stage)
  | reopen =>
    simp only [Linux.run, stage] at ran
    obtain ⟨⟨after, result⟩, called, same⟩ := Option.map_eq_some_iff.mp ran
    cases same
    refine .opens (by rw [stage]; rfl) insists called ?_ ?_
    · intro fd given
      cases given
      rfl
    · intro error failed _
      cases failed
      exact .throws (Or.inr (Or.inr stage))
  | unlinkExisting =>
    simp only [Linux.run, stage] at ran
    cases ran
    exact .clears (owners (by rw [stage]; rfl)) stage rfl rfl
  | ftruncate fd =>
    simp only [Linux.run, stage] at ran
    exact Instance.ftruncate_moved (owners (by rw [stage]; rfl)) stage (Option.some.inj ran)
  | mmap fd =>
    simp only [Linux.run, stage] at ran
    exact Instance.mmap_moved stage ran
  | munmap fd address =>
    simp only [Linux.run, stage] at ran
    cases ran
    exact .unmapped stage
  | close fd thrown =>
    simp only [Linux.run, stage] at ran
    cases ran
    exact .closed stage
  | shmUnlink thrown =>
    simp only [Linux.run, stage] at ran
    cases ran
    exact .unlinks (owners (by rw [stage]; rfl)) (Or.inr ⟨thrown, stage, rfl⟩)
  | unlinkStale | fstat | live | ended | crashed =>
    simp only [Linux.run, stage] at ran
    cases ran

/-- What `fstat` leads to. -/
theorem Moved.stats {key : String → String} (owner : i.isOwner = true)
    (stage : i.stage = .fstat fd)
    (goes : next = match system.fstat i.process fd reply with
      | .ok 0 => .ftruncate fd
      | _ => .mmap fd) :
    Moved (.darwin key) system i reply system next := by
  split at goes
  case h_1 =>
    rw [goes]
    exact .quiet (.statted owner stage)
  case h_2 filled =>
    rw [goes]
    refine .skipped stage rfl ?_
    intro object has succeeds empty
    refine filled ?_
    cases reply with
    | fails => cases succeeds
    | succeeds chosen => simp only [SharedObjects.fstat, has, empty]

/-- What a call does on `darwin`. -/
theorem Darwin.run_moved {key : String → String}
    (owners : i.stage.isOwners = true → i.isOwner = true)
    (ran : Darwin.run key system i reply = some (system', next)) :
    Moved (.darwin key) system i reply system' next := by
  have insists : false = (i.isOwner && (Platform.darwin key).exclusive) := (Bool.and_false _).symm
  cases stage : i.stage with
  | unlinkStale =>
    simp only [Darwin.run, stage] at ran
    cases ran
    exact .unlinks (owners (by rw [stage]; rfl)) (Or.inl ⟨stage, rfl⟩)
  | shmOpen =>
    simp only [Darwin.run, stage] at ran
    obtain ⟨⟨after, result⟩, called, same⟩ := Option.map_eq_some_iff.mp ran
    cases same
    refine .opens (by rw [stage]; rfl) insists called ?_ ?_
    · intro fd given
      cases given
      rfl
    · intro error failed owner
      cases failed
      cases error with
      | alreadyExists => exact .finds (owner rfl) stage
      | _ => exact .throws (Or.inl stage)
  | reopen =>
    simp only [Darwin.run, stage] at ran
    obtain ⟨⟨after, result⟩, called, same⟩ := Option.map_eq_some_iff.mp ran
    cases same
    refine .opens (by rw [stage]; rfl) insists called ?_ ?_
    · intro fd given
      cases given
      rfl
    · intro error failed _
      cases failed
      exact .throws (Or.inr (Or.inr stage))
  | unlinkExisting =>
    simp only [Darwin.run, stage] at ran
    cases ran
    exact .clears (owners (by rw [stage]; rfl)) stage rfl rfl
  | fstat fd =>
    simp only [Darwin.run, stage] at ran
    cases ran
    exact .stats (owners (by rw [stage]; rfl)) stage rfl
  | ftruncate fd =>
    simp only [Darwin.run, stage] at ran
    exact Instance.ftruncate_moved (owners (by rw [stage]; rfl)) stage (Option.some.inj ran)
  | mmap fd =>
    simp only [Darwin.run, stage] at ran
    exact Instance.mmap_moved stage ran
  | munmap fd address =>
    simp only [Darwin.run, stage] at ran
    cases ran
    exact .unmapped stage
  | close fd thrown =>
    simp only [Darwin.run, stage] at ran
    cases ran
    exact .closed stage
  | shmUnlink thrown =>
    simp only [Darwin.run, stage] at ran
    cases ran
    exact .unlinks (owners (by rw [stage]; rfl)) (Or.inr ⟨thrown, stage, rfl⟩)
  | live | ended | crashed =>
    simp only [Darwin.run, stage] at ran
    cases ran

/-- What a call does, on either platform. -/
theorem Platform.run_moved (owners : i.stage.isOwners = true → i.isOwner = true)
    (ran : platform.run system i reply = some (system', next)) :
    Moved platform system i reply system' next := by
  cases platform with
  | linux => exact Linux.run_moved owners ran
  | darwin key => exact Darwin.run_moved owners ran

/-- Who makes a call has something left to do. -/
theorem Platform.run_going (ran : platform.run system i reply = some (system', next)) :
    i.stage.isOver = false := by
  cases stage : i.stage with
  | ended | crashed => cases platform <;> simp [Platform.run, Linux.run, Darwin.run, stage] at ran
  | _ => rfl

/-- Only an owner comes to where only owners come. -/
theorem Moved.owners (moved : Moved platform system i reply system' next)
    (comes : next.isOwners = true) : i.isOwner = true := by
  cases moved with
  | opened _ _ _ _ holds =>
    cases owner : i.isOwner with
    | true => rfl
    | false =>
      rw [holds, owner] at comes
      cases comes
  | created owner | cleared owner | resized owner | removed owner => exact owner
  | mapped | unmapped | skipped | entered => cases comes
  | closed =>
    rw [Instance.closed] at comes
    split at comes
    case isTrue owner => exact owner
    case isFalse => cases comes
  | quiet quiet => exact quiet.owners comes

@[simp]
theorem Instance.closed_descriptor : (i.closed thrown).descriptor = none := by
  unfold Instance.closed
  split <;> rfl

@[simp]
theorem Instance.closed_address : (i.closed thrown).address = none := by
  unfold Instance.closed
  split <;> rfl

/-- The memory of an object is the one that its descriptor stands for, with its size. -/
def Instance.Views (system : SharedObjects String) (i : Instance) : Prop :=
  ∀ address, i.stage.address = some address → ∃ fd object,
    i.stage.descriptor = some fd ∧ system.descriptors (i.process, fd) = some object ∧
      system.mappings (i.process, address) = some (object, i.size.toNat)

/-- An object maps what its descriptor stands for. -/
theorem Moved.views (moved : Moved platform system i reply system' next)
    (views : i.Views system) : { i with stage := next }.Views system' := by
  intro address has
  cases moved with
  | opened _ _ _ _ holds =>
    rw [holds] at has
    cases owner : i.isOwner <;> rw [owner] at has <;> cases has
  | created _ _ _ _ holds =>
    rw [holds] at has
    cases insists : platform.exclusive <;> rw [insists] at has <;> cases has
  | cleared _ _ opens => rcases opens with rfl | rfl <;> cases has
  | mapped stage known free =>
    cases has
    exact ⟨_, _, rfl, known, Function.update_self _ _ _⟩
  | closed =>
    rw [Instance.closed_address] at has
    cases has
  | entered stage =>
    cases has
    obtain ⟨fd, object, holds, known, mapped⟩ := views address (by rw [stage]; rfl)
    rw [stage] at holds
    cases holds
    exact ⟨_, object, rfl, known, mapped⟩
  | quiet quiet =>
    obtain ⟨fd, object, holds, known, mapped⟩ := views address (quiet.address ▸ has)
    exact ⟨fd, object, quiet.descriptor ▸ holds, known, mapped⟩
  | resized | unmapped | removed | skipped => cases has

/-- The end of a process leaves the memory of the other processes. -/
theorem Instance.Views.exit (views : i.Views system) (process : Nat) :
    (i.exit process).Views (system.exit process) := by
  intro address has
  unfold Instance.exit at has ⊢
  split at has
  case isTrue =>
    cases stage : i.stage <;> simp [stage, Stage.exit, Stage.address] at has
  case isFalse others =>
    obtain ⟨fd, object, holds, known, mapped⟩ := views address has
    simp only [if_neg others, SharedObjects.exit]
    exact ⟨fd, object, holds, known, mapped⟩

/-! ## Who holds what -/

/-- What an object has in a table of the operating system. -/
def Instance.holds (part : Stage → Option Nat) (i : Instance) : Option (Nat × Nat) :=
  (part i.stage).map fun number => (i.process, number)

/-- What every object has in a table. -/
abbrev State.claims (part : Stage → Option Nat) (σ : State) : Nat → Option (Nat × Nat) :=
  claimsOf (Instance.holds part) σ.instances

/-- An object opens or closes its descriptor, or keeps it. -/
theorem Moved.descriptors (moved : Moved platform system i reply system' next) :
    Accounted.Trades system.descriptors (i.holds Stage.descriptor) system'.descriptors
      ({ i with stage := next }.holds Stage.descriptor) := by
  have keeps (same : next.descriptor = i.stage.descriptor) :
      Accounted.Trades system.descriptors (i.holds Stage.descriptor) system.descriptors
        ({ i with stage := next }.holds Stage.descriptor) := by
    simp only [Instance.holds, same]
    exact .keeps
  have takes {fd object : Nat} (bare : i.stage.opens = true) (got : next.descriptor = some fd)
      (free : system.descriptors (i.process, fd) = none) :
      Accounted.Trades system.descriptors (i.holds Stage.descriptor)
        (system.describe i.process fd object).descriptors
        ({ i with stage := next }.holds Stage.descriptor) := by
    simp only [Instance.holds, got, Stage.opens_bare bare]
    exact .takes rfl free
  cases moved with
  | opened _ free bare _ holds =>
    refine takes bare ?_ free
    rw [holds]
    cases i.isOwner <;> rfl
  | created _ _ free bare holds =>
    refine takes bare ?_ free
    rw [holds]
    cases platform.exclusive <;> rfl
  | cleared _ bare opens =>
    apply keeps
    rcases bare with here | here <;> rcases opens with rfl | rfl <;> rw [here] <;> rfl
  | resized _ stage | mapped stage | unmapped stage | removed _ stage | skipped stage
  | entered stage =>
    exact keeps (by rw [stage]; rfl)
  | closed stage =>
    simp only [Instance.holds, Instance.closed_descriptor, stage]
    exact .gives rfl
  | quiet quiet => exact keeps quiet.descriptor

/-- An object maps its memory or removes the mapping, or keeps it. -/
theorem Moved.mappings (moved : Moved platform system i reply system' next) :
    Accounted.Trades system.mappings (i.holds Stage.address) system'.mappings
      ({ i with stage := next }.holds Stage.address) := by
  have keeps (same : next.address = i.stage.address) :
      Accounted.Trades system.mappings (i.holds Stage.address) system.mappings
        ({ i with stage := next }.holds Stage.address) := by
    simp only [Instance.holds, same]
    exact .keeps
  have bare (opens : i.stage.opens = true) : i.stage.address = none := by
    cases stage : i.stage <;> rw [stage] at opens <;> first | rfl | cases opens
  cases moved with
  | opened _ _ opens _ holds =>
    apply keeps
    rw [bare opens, holds]
    cases i.isOwner <;> rfl
  | created _ _ _ opens holds =>
    apply keeps
    rw [bare opens, holds]
    cases platform.exclusive <;> rfl
  | cleared _ bare opens =>
    apply keeps
    rcases bare with here | here <;> rcases opens with rfl | rfl <;> rw [here] <;> rfl
  | resized _ stage | removed _ stage | skipped stage | entered stage =>
    exact keeps (by rw [stage]; rfl)
  | closed stage =>
    apply keeps
    rw [stage, Instance.closed_address]
    rfl
  | mapped stage _ free =>
    simp only [Instance.holds, stage]
    exact .takes rfl free
  | unmapped stage =>
    simp only [Instance.holds, stage]
    exact .gives rfl
  | quiet quiet => exact keeps quiet.address

end Runs

/-- The end of a process takes everything from its objects. -/
theorem Instance.exit_holds {process : Nat} {part : Stage → Option Nat}
    (ended : ∀ stage, stage.isOver = true → part stage = none) (i : Instance) :
    (i.exit process).holds part = (i.holds part).filter fun key => ¬ key.1 = process := by
  simp only [Instance.exit, Instance.holds]
  by_cases ours : i.process = process
  · have gone : part i.stage.exit = none := by
      apply ended
      cases i.stage <;> rfl
    rw [if_pos ours, gone]
    cases part i.stage with
    | none => rfl
    | some number => simp [ours, Option.filter_some]
  · rw [if_neg ours]
    cases part i.stage with
    | none => rfl
    | some number => simp [ours, Option.filter_some]

/-- Descriptors and mappings are accounted for. -/
structure Held (σ : State) : Prop where
  owners : ∀ i ∈ σ.instances, i.stage.isOwners = true → i.isOwner = true
  descriptors : Accounted σ.system.descriptors (σ.claims Stage.descriptor)
  mappings : Accounted σ.system.mappings (σ.claims Stage.address)
  views : ∀ i ∈ σ.instances, i.Views σ.system

/-- What a step is: an object is constructed, an object goes on, or a process ends. -/
theorem State.step_cases {platform : Platform} {σ σ' : State} {event : Event} (held : Held σ)
    (stepped : σ.step platform event = some σ') :
    (∃ process name size isOwner, event = .construct process name size isOwner ∧
      σ' = { σ with instances := σ.instances ++
        [⟨process, name, size, isOwner, platform.first isOwner⟩] }) ∨
    (∃ index i reply system stage, (event = .run index reply ∨
        event = .destroy index ∧ reply.isFailure = false) ∧
      (σ.instances[index]? = some i ∧ i.stage.isOver = false) ∧
      Moved platform σ.system i reply system stage ∧ σ' = σ.goes index i stage system) ∨
    ∃ process, event = .exit process ∧
      σ' = ⟨σ.system.exit process, σ.instances.map (Instance.exit process)⟩ := by
  cases event with
  | construct process name size isOwner =>
    cases stepped
    exact Or.inl ⟨process, name, size, isOwner, rfl, rfl⟩
  | run index reply =>
    obtain ⟨i, found, goes⟩ := Option.bind_eq_some_iff.mp stepped
    obtain ⟨⟨system, stage⟩, ran, same⟩ := Option.map_eq_some_iff.mp goes
    have moved := Platform.run_moved (held.owners i (List.mem_of_getElem? found)) ran
    exact Or.inr (Or.inl ⟨index, i, reply, system, stage, Or.inl rfl,
      ⟨found, Platform.run_going ran⟩, moved, same.symm⟩)
  | destroy index =>
    obtain ⟨i, found, goes⟩ := Option.bind_eq_some_iff.mp stepped
    split at goes
    case h_1 fd address stage =>
      cases goes
      exact Or.inr (Or.inl ⟨index, i, .succeeds 0, σ.system, _, Or.inr ⟨rfl, rfl⟩,
        ⟨found, by rw [stage]; rfl⟩, .entered stage, rfl⟩)
    case h_2 => cases goes
  | exit process =>
    cases stepped
    exact Or.inr (Or.inr ⟨process, rfl, rfl⟩)

namespace Held

variable {platform : Platform} {σ σ' : State} {event : Event}

/-- An object that goes on leaves what the others hold. -/
theorem goes_views {index other : Nat} {i j : Instance} {reply : Answer} {stage : Stage}
    {system : SharedObjects String} (held : Held σ) (found : σ.instances[index]? = some i)
    (moved : Moved platform σ.system i reply system stage) (different : other ≠ index)
    (present : σ.instances[other]? = some j) : j.Views system := by
  have claims (part : Stage → Option Nat) : i.holds part = σ.claims part index :=
    (claimsOf_some found).symm
  intro address has
  obtain ⟨fd, object, holds, known, mapped⟩ :=
    held.views j (List.mem_of_getElem? present) address has
  have descriptors := moved.descriptors
  rw [claims] at descriptors
  have mappings := moved.mappings
  rw [claims] at mappings
  have describes : σ.claims Stage.descriptor other = some (j.process, fd) := by
    simp only [State.claims, claimsOf_some present, Instance.holds, holds, Option.map_some]
  have maps : σ.claims Stage.address other = some (j.process, address) := by
    simp only [State.claims, claimsOf_some present, Instance.holds, has, Option.map_some]
  refine ⟨fd, object, holds, ?_, ?_⟩
  · rw [held.descriptors.trade_others descriptors describes different, known]
  · rw [held.mappings.trade_others mappings maps different, mapped]

/-- Descriptors and mappings stay accounted for. -/
theorem step (held : Held σ) (stepped : σ.step platform event = some σ') : Held σ' := by
  rcases State.step_cases held stepped with ⟨process, name, size, isOwner, _, rfl⟩ |
    ⟨index, i, reply, system, stage, _, ⟨found, _⟩, moved, rfl⟩ | ⟨process, _, rfl⟩
  · have fresh : (platform.first isOwner).descriptor = none ∧
        (platform.first isOwner).address = none ∧
        ((platform.first isOwner).isOwners = true → isOwner = true) := by
      cases platform <;> cases isOwner <;> simp [Platform.first, Stage.descriptor, Stage.address,
        Stage.isOwners]
    obtain ⟨unopened, unmapped, guarded⟩ := fresh
    constructor
    · intro j inside
      rcases List.mem_append.mp inside with old | new
      · exact held.owners j old
      · rw [List.mem_singleton.mp new]
        exact guarded
    · rw [State.claims, claimsOf_append (by simp only [Instance.holds, unopened, Option.map_none])]
      exact held.descriptors
    · rw [State.claims, claimsOf_append (by simp only [Instance.holds, unmapped, Option.map_none])]
      exact held.mappings
    · intro j inside
      rcases List.mem_append.mp inside with old | new
      · exact held.views j old
      · rw [List.mem_singleton.mp new]
        intro address has
        rw [unmapped] at has
        cases has
  · have claims (part : Stage → Option Nat) : i.holds part = σ.claims part index :=
      (claimsOf_some found).symm
    constructor
    · intro j inside
      rcases List.mem_or_eq_of_mem_set inside with old | rfl
      · exact held.owners j old
      · exact moved.owners
    · rw [State.claims, State.goes, claimsOf_set found]
      have trades := moved.descriptors
      rw [claims] at trades
      exact held.descriptors.trade trades
    · rw [State.claims, State.goes, claimsOf_set found]
      have trades := moved.mappings
      rw [claims] at trades
      exact held.mappings.trade trades
    · intro j inside
      obtain ⟨other, present⟩ := List.mem_iff_getElem?.mp inside
      rcases set_cases found present with ⟨_, rfl⟩ | ⟨different, present⟩
      · exact moved.views (held.views i (List.mem_of_getElem? found))
      · exact held.goes_views found moved different present
  · constructor
    · intro j inside
      obtain ⟨i, old, rfl⟩ := List.mem_map.mp inside
      intro comes
      unfold Instance.exit at comes ⊢
      split at comes
      case isTrue =>
        cases stage : i.stage <;> simp [stage, Stage.exit, Stage.isOwners] at comes
      case isFalse ours =>
        rw [if_neg ours]
        exact held.owners i old comes
    · rw [State.claims, claimsOf_map (Instance.exit_holds fun stage ends => by
        cases stage <;> first | rfl | cases ends)]
      exact held.descriptors.drop fun key => key.1 = process
    · rw [State.claims, claimsOf_map (Instance.exit_holds fun stage ends => by
        cases stage <;> first | rfl | cases ends)]
      exact held.mappings.drop fun key => key.1 = process
    · intro j inside
      obtain ⟨i, old, rfl⟩ := List.mem_map.mp inside
      exact (held.views i old).exit process

/-- Descriptors and mappings are accounted for in every run. -/
theorem reachable (reached : (system platform).Reachable σ) : Held σ := by
  apply reached.invariant
  · intro state initial
    obtain ⟨empty, none'⟩ := initial
    have idle (part : Stage → Option Nat) : state.claims part = fun _ => none := by
      funext index
      simp only [State.claims, claimsOf, none', List.getElem?_nil, Option.bind_none]
    constructor
    · simp [none']
    · rw [empty, idle]
      exact .empty
    · rw [empty, idle]
      exact .empty
    · simp [none']
  · exact fun _ _ _ _ before stepped => before.step stepped

/-- Nothing is left of a process whose objects are gone. -/
theorem nothing_left (held : Held σ) {process : Nat}
    (ends : ∀ i ∈ σ.instances, i.process = process → i.stage.isOver = true) (number : Nat) :
    σ.system.descriptors (process, number) = none ∧ σ.system.mappings (process, number) = none := by
  have unheld {part : Stage → Option Nat}
      (nothing : ∀ stage, stage.isOver = true → part stage = none) (index : Nat) :
      σ.claims part index ≠ some (process, number) := by
    intro claims
    obtain ⟨i, found, holds⟩ := Option.bind_eq_some_iff.mp claims
    obtain ⟨has, got, same⟩ := Option.map_eq_some_iff.mp holds
    rw [nothing i.stage (ends i (List.mem_of_getElem? found) (congrArg Prod.fst same))] at got
    cases got
  refine ⟨held.descriptors.none_left (unheld ?_), held.mappings.none_left (unheld ?_)⟩
  · intro stage gone
    cases stage <;> first | rfl | cases gone
  · intro stage gone
    cases stage <;> first | rfl | cases gone

end Held

/-- Whatever calls fail, wherever constructors throw and whenever processes end, a descriptor and a
mapping belong to exactly one object, which maps what its descriptor stands for with its size; so
nothing is left of a process whose objects are gone. -/
theorem nothing_leaked {platform : Platform} {σ : State}
    (reached : (system platform).Reachable σ) :
    Accounted σ.system.descriptors (σ.claims Stage.descriptor) ∧
      Accounted σ.system.mappings (σ.claims Stage.address) ∧
      (∀ i ∈ σ.instances, i.Views σ.system) ∧
      ∀ process, (∀ i ∈ σ.instances, i.process = process → i.stage.isOver = true) →
        ∀ number, σ.system.descriptors (process, number) = none ∧
          σ.system.mappings (process, number) = none := by
  have held := Held.reachable reached
  exact ⟨held.descriptors, held.mappings, held.views, fun _ => held.nothing_left⟩

/-- An owner and another object, whose constructor throws because `mmap` fails, while the process of
the owner ends. -/
def failingRun : List Event :=
  [.construct 1 "/memory" 4096 true, .run 0 (.succeeds 3), .run 0 (.succeeds 0),
    .run 0 (.succeeds 65536), .construct 2 "/memory" 4096 false, .run 1 (.succeeds 7),
    .run 1 (.fails 12), .exit 1, .run 1 (.succeeds 0)]

theorem failingRun_replays :
    ((system .linux).replay ⟨.new, []⟩ failingRun).isSome = true := by
  decide +kernel

/-- Nothing is left of either process. -/
theorem nothing_leaked_failing :
    let failed := ((system .linux).replay ⟨.new, []⟩ failingRun).get failingRun_replays
    failed.system.descriptors (1, 3) = none ∧ failed.system.mappings (1, 65536) = none ∧
      failed.system.descriptors (2, 7) = none := by
  intro failed
  have ends : ∀ i ∈ failed.instances, i.stage.isOver = true := by
    decide +kernel
  have initial : (system .linux).initial ⟨.new, []⟩ := ⟨rfl, rfl⟩
  obtain ⟨_, _, _, left⟩ := nothing_leaked (System.Reachable.of_replay initial failingRun_replays)
  have one := left 1 fun i inside _ => ends i inside
  have two := left 2 fun i inside _ => ends i inside
  exact ⟨(one 3).1, (one 65536).2, (two 7).1⟩

end Azul.Ipc.SharedMemory
