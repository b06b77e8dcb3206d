import Azul.Ipc.SharedMemorySharing

/-!
# Owners that come after others

An owner removes what another one has left under its name: on `linux` when `shm_open` finds the name
in use, on `darwin` before it opens. So whatever processes have ended before, an owner is
constructed as long as it is the only one of its name and no call fails for a reason of its own.
-/

namespace Azul.Ipc.SharedMemory

open Azul.Foundation

/-- No call of an owner fails for a reason of its own. -/
def State.Answers (σ : State) : Event → Prop
  | .run index reply => ∀ i ∈ σ.instances[index]?, i.isOwner = true → reply.isFailure = false
  | _ => True

instance (σ : State) : DecidablePred σ.Answers
  | .run index reply => inferInstanceAs (Decidable (∀ i ∈ σ.instances[index]?,
      i.isOwner = true → reply.isFailure = false))
  | .construct _ _ _ _ | .destroy _ | .exit _ => .isTrue trivial

/-- One owner of a name at a time, whose calls do not fail for a reason of their own. -/
def Platform.Undisturbed (platform : Platform) (σ : State) (event : Event) : Prop :=
  platform.Sole σ event ∧ σ.Answers event

instance (platform : Platform) (σ : State) : DecidablePred (platform.Undisturbed σ) := by
  intro event
  unfold Platform.Undisturbed
  infer_instance

/-- What a constructor has thrown or is about to throw. -/
def Stage.throws : Stage → Option Failure
  | .close _ thrown | .shmUnlink thrown | .ended thrown => thrown
  | _ => none

/-- How many calls of an owner's constructor are left, at most. -/
def Stage.calls : Stage → Nat
  | .unlinkStale => 7
  | .shmOpen => 6
  | .unlinkExisting => 5
  | .reopen => 4
  | .fstat _ => 3
  | .ftruncate _ => 2
  | .mmap _ => 1
  | _ => 0

/-- A size that `ftruncate` takes for a positive number. -/
def Instance.Sizable (i : Instance) : Prop := 0 < i.size.toInt64.toInt

instance (i : Instance) : Decidable i.Sizable := inferInstanceAs (Decidable (0 < _))

/-- `mmap` is not asked for nothing. -/
theorem Instance.Sizable.ne_zero {i : Instance} (sizable : i.Sizable) : i.size.toNat ≠ 0 := by
  have same := toNat_of_signed (Int.le_of_lt sizable)
  have positive : 0 < i.size.toInt64.toInt := sizable
  omega

/-- What an owner finds when it comes to its next call. -/
structure Instance.Finds (platform : Platform) (system : SharedObjects String) (i : Instance) :
    Prop where
  taken : i.stage = .unlinkExisting → system.names (platform.key i.name) ≠ none
  free : i.stage = .reopen → system.names (platform.key i.name) = none
  kept : i.Sizable → i.stage.throws = none
  /-- `linux` neither removes a name first nor asks for a size. -/
  direct : platform.exclusive = true → i.stage ≠ .unlinkStale ∧ i.stage.asks = false

/-- What a call of an owner leads to. -/
structure Instance.Goes (platform : Platform) (system : SharedObjects String) (i : Instance)
    (next : Stage) : Prop where
  finds : { i with stage := next }.Finds platform system
  fewer : i.Sizable → i.stage.calls ≠ 0 → next.calls < i.stage.calls ∧
    (next.calls = 0 → ∃ fd address, next = .live fd address)

section Runs

variable {platform : Platform} {system system' : SharedObjects String} {i : Instance}
  {reply : Answer} {next : Stage} {fd : Nat}

namespace Instance.Goes

/-- An owner comes to a call that does not depend on its name. -/
theorem elsewhere (unlinks : next ≠ .unlinkExisting) (reopens : next ≠ .reopen)
    (kept : i.Sizable → next.throws = none)
    (direct : platform.exclusive = true → next ≠ .unlinkStale ∧ next.asks = false)
    (fewer : i.Sizable → i.stage.calls ≠ 0 → next.calls < i.stage.calls ∧
      (next.calls = 0 → ∃ fd address, next = .live fd address)) :
    i.Goes platform system next where
  finds := ⟨fun here => absurd here unlinks, fun here => absurd here reopens, kept, direct⟩
  fewer := fewer

/-- `shm_open` gives an owner a descriptor, or finds its name in use. -/
theorem opened {result : Except Errno Nat} {exclusive : Bool} (answers : reply.isFailure = false)
    (owner : i.isOwner = true)
    (called : system.shmOpen i.process (platform.key i.name) i.isOwner exclusive reply =
      some (system', result))
    (early : 3 < i.stage.calls)
    (allocates : ∀ fd, result = .ok fd →
      next = .ftruncate fd ∨ (next = .fstat fd ∧ platform.exclusive = false))
    (found : result = .error .alreadyExists → exclusive = true →
      system.names (platform.key i.name) ≠ none → next = .unlinkExisting ∧ i.stage = .shmOpen) :
    i.Goes platform system' next := by
  rw [owner] at called
  rcases SharedObjects.shmOpen_succeeds called answers with
    ⟨fd, given⟩ | ⟨failed, rfl, insists, taken⟩
  · rcases allocates fd given with rfl | ⟨rfl, shared⟩
    · refine .elsewhere (by simp) (by simp) (fun _ => rfl) (fun _ => by simp) fun _ _ => ?_
      exact ⟨Nat.lt_trans (Nat.lt_succ_self 2) early, fun last => by cases last⟩
    · refine .elsewhere (by simp) (by simp) (fun _ => rfl) (fun insists => ?_) fun _ _ => ?_
      · rw [shared] at insists
        cases insists
      · exact ⟨early, fun last => by cases last⟩
  · obtain ⟨goes, here⟩ := found failed insists taken
    rw [goes]
    refine ⟨⟨fun _ => taken, ?_, fun _ => rfl, fun _ => by simp⟩, fun _ _ => ⟨?_, ?_⟩⟩
    · intro clash
      cases clash
    · rw [here]
      decide
    · intro last
      cases last

/-- An owner removes its name, which is in use. -/
theorem unlinked (answers : reply.isFailure = false) (stage : i.stage = .unlinkExisting)
    (taken : system.names (platform.key i.name) ≠ none)
    {result : Except Errno Unit}
    (goes : next = match result with
      | .ok () => .reopen
      | .error error => .ended (some (.shmUnlink error)))
    (called : system.shmUnlink (platform.key i.name) reply = (system', result)) :
    i.Goes platform system' next := by
  rcases SharedObjects.shmUnlink_cases system (platform.key i.name) reply with
    ⟨error, failed, why⟩ | gone
  · exact absurd (why answers) taken
  · rw [gone] at called
    cases called
    rw [goes]
    refine ⟨⟨?_, fun _ => SharedObjects.forget_self, fun _ => rfl, fun _ => by simp⟩,
      fun _ _ => ⟨?_, ?_⟩⟩
    · intro clash
      cases clash
    · rw [stage]
      decide
    · intro last
      cases last

/-- `ftruncate` is followed by `mmap`. -/
theorem resized (answers : reply.isFailure = false) (stage : i.stage = .ftruncate fd)
    (has : system.descriptors (i.process, fd) ≠ none)
    (ran : i.ftruncate system fd reply = (system', next)) : i.Goes platform system' next := by
  have away : next ≠ .unlinkExisting ∧ next ≠ .reopen ∧
      next ≠ .unlinkStale ∧ next.asks = false := by
    unfold Instance.ftruncate at ran
    split at ran
    cases ran
    split <;> simp
  have maps (sizable : i.Sizable) : next = .mmap fd := by
    obtain ⟨after, called⟩ := SharedObjects.ftruncate_succeeds answers has (Int.le_of_lt sizable)
    unfold Instance.ftruncate at ran
    rw [called] at ran
    cases ran
    rfl
  refine .elsewhere away.1 away.2.1 (fun sizable => by rw [maps sizable]; rfl)
    (fun _ => away.2.2) fun sizable _ => ?_
  rw [maps sizable, stage]
  exact ⟨Nat.lt_succ_self 1, fun last => by cases last⟩

/-- After `mmap` the object is constructed. -/
theorem mapped (answers : reply.isFailure = false) (stage : i.stage = .mmap fd)
    (has : system.descriptors (i.process, fd) ≠ none)
    (ran : i.mmap system fd reply = some (system', next)) : i.Goes platform system' next := by
  obtain ⟨⟨after, result⟩, called, same⟩ := Option.map_eq_some_iff.mp ran
  cases same
  have lives (sizable : i.Sizable) : ∃ address, result = .ok address :=
    SharedObjects.mmap_succeeds answers has sizable.ne_zero called
  refine .elsewhere (by split <;> simp) (by split <;> simp) ?_ (fun _ => by split <;> simp) ?_
  · intro sizable
    obtain ⟨address, rfl⟩ := lives sizable
    rfl
  · intro sizable _
    obtain ⟨address, rfl⟩ := lives sizable
    rw [stage]
    exact ⟨Nat.lt_succ_self 0, fun _ => ⟨fd, address, rfl⟩⟩

/-- A call of the destructor, or of a constructor that throws already. -/
theorem after (stage : i.stage.calls = 0) (away : next.calls = 0)
    (kept : next.throws = i.stage.throws) (finds : i.Finds platform system) :
    i.Goes platform system' next := by
  refine .elsewhere ?_ ?_ ?_ ?_ fun _ constructs => absurd stage constructs
  · rintro rfl
    cases away
  · rintro rfl
    cases away
  · exact fun sizable => kept.trans (finds.kept sizable)
  · intro _
    cases next <;> simp [Stage.calls] at away ⊢

end Instance.Goes

/-- A call of an owner on `linux`. -/
theorem Linux.run_goes (finds : i.Finds .linux system) (owner : i.isOwner = true)
    (answers : reply.isFailure = false)
    (has : ∀ fd, i.stage.descriptor = some fd → system.descriptors (i.process, fd) ≠ none)
    (ran : Linux.run system i reply = some (system', next)) : i.Goes .linux system' next := by
  cases stage : i.stage with
  | shmOpen =>
    simp only [Linux.run, stage] at ran
    obtain ⟨⟨after, result⟩, called, same⟩ := Option.map_eq_some_iff.mp ran
    cases same
    refine .opened answers owner called (by rw [stage]; decide) ?_ ?_
    · rintro fd rfl
      rw [owner]
      exact Or.inl rfl
    · rintro rfl _ _
      exact ⟨rfl, stage⟩
  | unlinkExisting =>
    simp only [Linux.run, stage] at ran
    cases ran
    exact .unlinked answers stage (finds.taken stage) rfl rfl
  | reopen =>
    simp only [Linux.run, stage] at ran
    obtain ⟨⟨after, result⟩, called, same⟩ := Option.map_eq_some_iff.mp ran
    cases same
    refine .opened answers owner called (by rw [stage]; decide) ?_ ?_
    · rintro fd rfl
      rw [owner]
      exact Or.inl rfl
    · exact fun _ _ taken => absurd (finds.free stage) taken
  | ftruncate fd =>
    simp only [Linux.run, stage] at ran
    exact .resized answers stage (has fd (by rw [stage]; rfl)) (Option.some.inj ran)
  | mmap fd =>
    simp only [Linux.run, stage] at ran
    exact .mapped answers stage (has fd (by rw [stage]; rfl)) ran
  | munmap | shmUnlink =>
    simp only [Linux.run, stage] at ran
    cases ran
    exact .after (by rw [stage]; rfl) rfl (by rw [stage]; rfl) finds
  | close =>
    simp only [Linux.run, stage, Instance.closed, owner] at ran
    cases ran
    exact .after (by rw [stage]; rfl) rfl (by rw [stage]; rfl) finds
  | unlinkStale | fstat | live | ended | crashed =>
    simp only [Linux.run, stage] at ran
    cases ran

/-- A call of an owner on `darwin`. -/
theorem Darwin.run_goes {key : String → String} (finds : i.Finds (.darwin key) system)
    (owner : i.isOwner = true) (answers : reply.isFailure = false)
    (has : ∀ fd, i.stage.descriptor = some fd → system.descriptors (i.process, fd) ≠ none)
    (ran : Darwin.run key system i reply = some (system', next)) :
    i.Goes (.darwin key) system' next := by
  cases stage : i.stage with
  | unlinkStale =>
    simp only [Darwin.run, stage] at ran
    cases ran
    refine .elsewhere (by simp) (by simp) (fun _ => rfl) (fun insists => by cases insists)
      fun _ _ => ?_
    rw [stage]
    exact ⟨by decide, fun last => by cases last⟩
  | shmOpen =>
    simp only [Darwin.run, stage] at ran
    obtain ⟨⟨after, result⟩, called, same⟩ := Option.map_eq_some_iff.mp ran
    cases same
    refine .opened answers owner called (by rw [stage]; decide) ?_ ?_
    · rintro fd rfl
      rw [owner]
      exact Or.inr ⟨rfl, rfl⟩
    · intro _ insists
      cases insists
  | unlinkExisting =>
    simp only [Darwin.run, stage] at ran
    cases ran
    exact .unlinked answers stage (finds.taken stage) rfl rfl
  | reopen =>
    simp only [Darwin.run, stage] at ran
    obtain ⟨⟨after, result⟩, called, same⟩ := Option.map_eq_some_iff.mp ran
    cases same
    refine .opened answers owner called (by rw [stage]; decide) ?_ ?_
    · rintro fd rfl
      rw [owner]
      exact Or.inr ⟨rfl, rfl⟩
    · intro _ insists
      cases insists
  | fstat fd =>
    simp only [Darwin.run, stage] at ran
    cases ran
    split
    case h_1 =>
      refine .elsewhere (by simp) (by simp) (fun _ => rfl) (fun insists => by cases insists)
        fun _ _ => ?_
      rw [stage]
      exact ⟨Nat.lt_succ_self 2, fun last => by cases last⟩
    case h_2 =>
      refine .elsewhere (by simp) (by simp) (fun _ => rfl) (fun insists => by cases insists)
        fun _ _ => ?_
      rw [stage]
      exact ⟨Nat.lt_succ_of_lt (Nat.lt_succ_self 1), fun last => by cases last⟩
  | ftruncate fd =>
    simp only [Darwin.run, stage] at ran
    exact .resized answers stage (has fd (by rw [stage]; rfl)) (Option.some.inj ran)
  | mmap fd =>
    simp only [Darwin.run, stage] at ran
    exact .mapped answers stage (has fd (by rw [stage]; rfl)) ran
  | munmap | shmUnlink =>
    simp only [Darwin.run, stage] at ran
    cases ran
    exact .after (by rw [stage]; rfl) rfl (by rw [stage]; rfl) finds
  | close =>
    simp only [Darwin.run, stage, Instance.closed, owner] at ran
    cases ran
    exact .after (by rw [stage]; rfl) rfl (by rw [stage]; rfl) finds
  | live | ended | crashed =>
    simp only [Darwin.run, stage] at ran
    cases ran

/-- A call of an owner, on either platform. -/
theorem Platform.run_goes (finds : i.Finds platform system) (owner : i.isOwner = true)
    (answers : reply.isFailure = false)
    (has : ∀ fd, i.stage.descriptor = some fd → system.descriptors (i.process, fd) ≠ none)
    (ran : platform.run system i reply = some (system', next)) : i.Goes platform system' next := by
  cases platform with
  | linux => exact Linux.run_goes finds owner answers has ran
  | darwin key => exact Darwin.run_goes finds owner answers has ran

end Runs

/-! ## Owners do not throw -/

/-- Every owner finds what it needs. -/
def State.Finds (platform : Platform) (σ : State) : Prop :=
  ∀ i ∈ σ.instances, i.isOwner = true → i.Finds platform σ.system

section Steps

variable {platform : Platform} {σ σ' : State} {event : Event}

/-- The descriptor of an object is open. -/
theorem Held.open (held : Held σ) {index fd : Nat} {i : Instance}
    (found : σ.instances[index]? = some i) (has : i.stage.descriptor = some fd) :
    σ.system.descriptors (i.process, fd) ≠ none := by
  apply Option.isSome_iff_ne_none.mp
  apply held.descriptors.kept index
  simp only [State.claims, claimsOf_some found, Instance.holds, has, Option.map_some]

/-- An object that goes on leaves what other owners find. -/
theorem State.Finds.others {index other : Nat} {i j : Instance} {reply : Answer} {stage : Stage}
    {system : SharedObjects String} (finds : j.Finds platform σ.system) (alone : Alone platform σ)
    (found : σ.instances[index]? = some i) (going : i.stage.isOver = false)
    (moved : Moved platform σ.system i reply system stage)
    (present : σ.instances[other]? = some j) (owner : j.isOwner = true)
    (different : other ≠ index) :
    j.Finds platform system := by
  have named (still : j.stage.isOver = false) :=
    alone.others_named found going moved present owner still different
  refine ⟨fun here => ?_, fun here => ?_, finds.kept, finds.direct⟩
  · rw [named (by rw [here]; rfl)]
    exact finds.taken here
  · rw [named (by rw [here]; rfl)]
    exact finds.free here

/-- Every owner still finds what it needs after a step. -/
theorem State.Finds.step (finds : σ.Finds platform) (held : Held σ) (alone : Alone platform σ)
    (answers : σ.Answers event) (stepped : σ.step platform event = some σ') :
    σ'.Finds platform := by
  cases event with
  | construct process name size isOwner =>
    cases stepped
    intro j inside owner
    rcases List.mem_append.mp inside with old | new
    · exact finds j old owner
    · rw [List.mem_singleton.mp new]
      cases platform <;> cases isOwner <;> constructor <;>
        simp [Platform.first, Platform.exclusive, Stage.throws]
  | run index reply =>
    obtain ⟨i, found, goes⟩ := Option.bind_eq_some_iff.mp stepped
    obtain ⟨⟨system, stage⟩, ran, rfl⟩ := Option.map_eq_some_iff.mp goes
    have own := List.mem_of_getElem? found
    have moved := Platform.run_moved (held.owners i own) ran
    intro j inside owner
    obtain ⟨other, present⟩ := List.mem_iff_getElem?.mp inside
    rcases set_cases found present with ⟨_, rfl⟩ | ⟨different, present⟩
    · have succeeds := answers i (Option.mem_def.mpr found) owner
      exact (Platform.run_goes (finds i own owner) owner succeeds (fun _ => held.open found)
        ran).finds
    · exact State.Finds.others (finds j (List.mem_of_getElem? present) owner) alone found
        (Platform.run_going ran) moved present owner different
  | destroy index =>
    obtain ⟨i, found, goes⟩ := Option.bind_eq_some_iff.mp stepped
    split at goes
    case h_1 fd address stage =>
      cases goes
      intro j inside owner
      rcases List.mem_or_eq_of_mem_set inside with old | rfl
      · exact finds j old owner
      · constructor <;> simp [Stage.throws]
    case h_2 => cases goes
  | exit process =>
    cases stepped
    intro j inside owner
    obtain ⟨i, old, rfl⟩ := List.mem_map.mp inside
    rw [Instance.exit_isOwner] at owner
    have before := finds i old owner
    unfold Instance.exit
    split
    case isFalse => exact ⟨before.taken, before.free, before.kept, before.direct⟩
    case isTrue =>
      refine ⟨?_, ?_, fun sizable => ?_, fun _ => ?_⟩
      · intro here
        cases stage : i.stage <;> simp [stage, Stage.exit] at here
      · intro here
        cases stage : i.stage <;> simp [stage, Stage.exit] at here
      · have kept := before.kept sizable
        cases stage : i.stage <;> simp [stage, Stage.exit, Stage.throws] at kept ⊢
        exact kept
      · cases i.stage <;> simp [Stage.exit]

/-- Every owner finds what it needs in every run. -/
theorem State.Finds.reachable
    (reached : ((SharedMemory.system platform).under platform.Undisturbed).Reachable σ) :
    σ.Finds platform := by
  apply reached.invariant
  · intro state initial i inside
    simp [initial.2] at inside
  · intro state event after before finds stepped
    obtain ⟨undisturbed, taken⟩ := System.under_step.mp stepped
    exact finds.step (Held.reachable before.of_under)
      (Alone.reachable (before.under_weaker fun _ _ undisturbed => undisturbed.1)) undisturbed.2
      taken

end Steps

/-! ## Owners are constructed -/

section Progress

variable {platform : Platform} {σ : State} {index : Nat} {i : Instance}

/-- The next call of an owner's constructor can be made. -/
theorem Held.can_run (held : Held σ) (finds : i.Finds platform σ.system)
    (constructs : i.stage.calls ≠ 0) :
    ∃ reply, reply.isFailure = false ∧ (platform.run σ.system i reply).isSome = true := by
  obtain ⟨fd, unopened⟩ := held.descriptors.exists_free i.process
  obtain ⟨address, unmapped⟩ := held.mappings.exists_free i.process
  have opens (name : String) (creates exclusive : Bool) :=
    SharedObjects.shmOpen_isSome σ.system name creates exclusive unopened
  have maps (fd : Nat) :=
    SharedObjects.mmap_isSome σ.system i.process fd i.size.toNat unmapped
  have direct := finds.direct
  cases platform with
  | linux =>
    cases stage : i.stage with
    | shmOpen | reopen =>
      refine ⟨.succeeds fd, rfl, ?_⟩
      simp only [Platform.run, Linux.run, stage, Option.isSome_map]
      exact opens _ _ _
    | unlinkExisting | ftruncate =>
      refine ⟨.succeeds 0, rfl, ?_⟩
      simp only [Platform.run, Linux.run, stage]
      rfl
    | mmap fd =>
      refine ⟨.succeeds address, rfl, ?_⟩
      simp only [Platform.run, Linux.run, stage, Instance.mmap, Option.isSome_map]
      exact maps fd
    | unlinkStale => exact absurd stage (direct rfl).1
    | fstat =>
      have asks := (direct rfl).2
      rw [stage] at asks
      cases asks
    | live | munmap | close | shmUnlink | ended | crashed =>
      rw [stage] at constructs
      exact absurd rfl constructs
  | darwin key =>
    cases stage : i.stage with
    | shmOpen | reopen =>
      refine ⟨.succeeds fd, rfl, ?_⟩
      simp only [Platform.run, Darwin.run, stage, Option.isSome_map]
      exact opens _ _ _
    | unlinkStale | unlinkExisting | fstat | ftruncate =>
      refine ⟨.succeeds 0, rfl, ?_⟩
      simp only [Platform.run, Darwin.run, stage]
      rfl
    | mmap fd =>
      refine ⟨.succeeds address, rfl, ?_⟩
      simp only [Platform.run, Darwin.run, stage, Instance.mmap, Option.isSome_map]
      exact maps fd
    | live | munmap | close | shmUnlink | ended | crashed =>
      rw [stage] at constructs
      exact absurd rfl constructs

/-- An owner is constructed by its own calls. -/
theorem constructed_within (calls : Nat)
    (reached : ((system platform).under platform.Undisturbed).Reachable σ)
    (found : σ.instances[index]? = some i) (owner : i.isOwner = true) (sizable : i.Sizable)
    (constructs : i.stage.calls ≠ 0) (enough : i.stage.calls ≤ calls) :
    ∃ (replies : List Answer) (σ' : State), replies.length ≤ calls ∧
      ((system platform).under platform.Undisturbed).replay σ (replies.map (.run index)) = some σ' ∧
      ∃ fd address, σ'.instances[index]? = some { i with stage := .live fd address } := by
  induction calls generalizing σ i with
  | zero => exact absurd (Nat.le_zero.mp enough) constructs
  | succ calls ih =>
    have held := Held.reachable reached.of_under
    have finds := State.Finds.reachable reached i (List.mem_of_getElem? found) owner
    obtain ⟨reply, succeeds, runs⟩ := held.can_run finds constructs
    obtain ⟨⟨after, next⟩, ran⟩ := Option.isSome_iff_exists.mp runs
    have goes := Platform.run_goes finds owner succeeds (fun _ => held.open found) ran
    obtain ⟨fewer, last⟩ := goes.fewer sizable constructs
    have taken : σ.step platform (.run index reply) = some (σ.goes index i next after) := by
      rw [State.step, found, Option.bind_some, ran, Option.map_some]
    have answers : σ.Answers (.run index reply) := by
      intro j present _
      exact succeeds
    have stepped : ((system platform).under platform.Undisturbed).step σ (.run index reply) =
        some (σ.goes index i next after) :=
      System.under_step.mpr ⟨⟨trivial, answers⟩, taken⟩
    have present : (σ.goes index i next after).instances[index]? =
        some { i with stage := next } :=
      List.getElem?_set_self (List.getElem?_eq_some_iff.mp found).1
    by_cases done : next.calls = 0
    · obtain ⟨fd, address, rfl⟩ := last done
      refine ⟨[reply], _, Nat.succ_le_succ (Nat.zero_le _), ?_, fd, address, present⟩
      rw [List.map_singleton, System.replay, stepped, Option.bind_some, System.replay]
    · obtain ⟨replies, σ', short, replays, fd, address, alive⟩ :=
        ih (reached.next stepped) present owner sizable done
          (Nat.le_of_lt_succ (Nat.lt_of_lt_of_le fewer enough))
      refine ⟨reply :: replies, σ', Nat.succ_le_succ short, ?_, fd, address, alive⟩
      rw [List.map_cons, System.replay, stepped, Option.bind_some, replays]

/-- The event is a call of an object. -/
def Event.runs (index : Nat) : Event → Bool
  | .run other _ => other == index
  | .construct _ _ _ _ | .destroy _ | .exit _ => false

/-- An object is constructed in the course of a run. -/
def Constructed (platform : Platform) (σ : State) (index : Nat) (i : Instance)
    (events : List Event) : Prop :=
  ∃ (before after : List Event) (σ' : State) (fd address : Nat), events = before ++ after ∧
    ((system platform).under platform.Undisturbed).replay σ before = some σ' ∧
    σ'.instances[index]? = some { i with stage := .live fd address }

/-- A step while an owner is constructed, which is one of its calls and brings it on, or is none and
leaves it. -/
theorem constructs_step {event : Event} {σ' : State}
    (reached : ((system platform).under platform.Undisturbed).Reachable σ)
    (found : σ.instances[index]? = some i) (owner : i.isOwner = true) (sizable : i.Sizable)
    (constructs : i.stage.calls ≠ 0) (stays : event ≠ .exit i.process)
    (stepped : ((system platform).under platform.Undisturbed).step σ event = some σ') :
    ∃ next, σ'.instances[index]? = some { i with stage := next } ∧
      ((event.runs index = true ∧ next.calls < i.stage.calls ∧
          (next.calls = 0 → ∃ fd address, next = .live fd address)) ∨
        (event.runs index = false ∧ next = i.stage)) := by
  obtain ⟨undisturbed, taken⟩ := System.under_step.mp stepped
  change σ.step platform event = some σ' at taken
  have inside := (List.getElem?_eq_some_iff.mp found).1
  cases event with
  | construct process name size isOwner =>
    rw [← Option.some.inj taken]
    refine ⟨i.stage, ?_, Or.inr ⟨rfl, rfl⟩⟩
    rw [List.getElem?_append_left inside]
    exact found
  | run other reply =>
    obtain ⟨j, present, ran⟩ := Option.bind_eq_some_iff.mp taken
    obtain ⟨⟨after, next⟩, runs, same⟩ := Option.map_eq_some_iff.mp ran
    rw [← same]
    by_cases own : other = index
    · rw [own] at present undisturbed ⊢
      rw [found] at present
      rw [← Option.some.inj present] at runs ⊢
      have held := Held.reachable reached.of_under
      have finds := State.Finds.reachable reached i (List.mem_of_getElem? found) owner
      have succeeds : reply.isFailure = false := undisturbed.2 i found owner
      have goes := Platform.run_goes finds owner succeeds (fun _ => held.open found) runs
      obtain ⟨fewer, last⟩ := goes.fewer sizable constructs
      exact ⟨next, List.getElem?_set_self inside, Or.inl ⟨beq_self_eq_true index, fewer, last⟩⟩
    · refine ⟨i.stage, ?_, Or.inr ⟨beq_false_of_ne own, rfl⟩⟩
      show (σ.instances.set other _)[index]? = _
      rw [List.getElem?_set_ne own]
      exact found
  | destroy other =>
    obtain ⟨j, present, ends⟩ := Option.bind_eq_some_iff.mp taken
    have apart : other ≠ index := by
      intro same
      rw [same, found] at present
      rw [← Option.some.inj present] at ends
      cases stage : i.stage with
      | live fd address =>
        rw [stage] at constructs
        exact constructs rfl
      | _ =>
        rw [stage] at ends
        cases ends
    refine ⟨i.stage, ?_, Or.inr ⟨rfl, rfl⟩⟩
    split at ends
    · rw [← Option.some.inj ends]
      show (σ.instances.set other _)[index]? = _
      rw [List.getElem?_set_ne apart]
      exact found
    · cases ends
  | exit process =>
    have alive : i.exit process = i :=
      if_neg fun same => stays (by rw [same])
    rw [← Option.some.inj taken]
    refine ⟨i.stage, ?_, Or.inr ⟨rfl, rfl⟩⟩
    rw [List.getElem?_map, found, Option.map_some, alive]

/-- In every run that its process outlives an owner is constructed, or its calls have brought it on
by one each. -/
theorem constructs_run {events : List Event} {σ' : State}
    (reached : ((system platform).under platform.Undisturbed).Reachable σ)
    (found : σ.instances[index]? = some i) (owner : i.isOwner = true) (sizable : i.Sizable)
    (constructs : i.stage.calls ≠ 0) (stays : ∀ event ∈ events, event ≠ .exit i.process)
    (replays : ((system platform).under platform.Undisturbed).replay σ events = some σ') :
    Constructed platform σ index i events ∨
      ∃ next, σ'.instances[index]? = some { i with stage := next } ∧ next.calls ≠ 0 ∧
        next.calls + events.countP (Event.runs index) ≤ i.stage.calls := by
  induction events generalizing σ i with
  | nil =>
    rw [← Option.some.inj replays]
    exact Or.inr ⟨i.stage, found, constructs, Nat.le_refl _⟩
  | cons event events ih =>
    obtain ⟨middle, stepped, rest⟩ := Option.bind_eq_some_iff.mp replays
    obtain ⟨next, present, brought⟩ := constructs_step reached found owner sizable constructs
      (stays event List.mem_cons_self) stepped
    have later : next.calls ≠ 0 → Constructed platform middle index i events ∨
        ∃ last, σ'.instances[index]? = some { i with stage := last } ∧ last.calls ≠ 0 ∧
          last.calls + events.countP (Event.runs index) ≤ next.calls :=
      fun going => ih (reached.next stepped) present owner sizable going
        (fun other member => stays other (List.mem_cons_of_mem _ member)) rest
    have extends_run : Constructed platform middle index i events →
        Constructed platform σ index i (event :: events) := by
      intro constructed
      obtain ⟨before, after, last, fd, address, split, ran, alive⟩ := constructed
      refine ⟨event :: before, after, last, fd, address, by rw [split]; rfl, ?_, alive⟩
      rw [System.replay, stepped, Option.bind_some, ran]
    rcases brought with ⟨own, fewer, live⟩ | ⟨other, same⟩
    · by_cases done : next.calls = 0
      · obtain ⟨fd, address, last⟩ := live done
        refine Or.inl ⟨[event], events, middle, fd, address, rfl, ?_, ?_⟩
        · rw [System.replay, stepped, Option.bind_some, System.replay]
        · rw [present, last]
      · apply (later done).imp extends_run
        rintro ⟨last, alive, going, enough⟩
        refine ⟨last, alive, going, ?_⟩
        rw [List.countP_cons_of_pos own]
        omega
    · rw [same] at later
      apply (later constructs).imp extends_run
      rintro ⟨last, alive, going, enough⟩
      refine ⟨last, alive, going, ?_⟩
      rw [List.countP_cons_of_neg (by rw [other]; exact Bool.false_ne_true)]
      exact enough

/-- As long as a name has one owner at a time and no call of an owner fails for a reason of its own,
no constructor of an owner throws, whatever others have left under the name; and wherever it is, it
can go on, and seven of its calls construct it, whatever they are answered and others do. -/
theorem owner_constructed
    (reached : ((system platform).under platform.Undisturbed).Reachable σ)
    (found : σ.instances[index]? = some i) (owner : i.isOwner = true) (sizable : i.Sizable) :
    i.stage.throws = none ∧
      (i.stage.calls ≠ 0 →
        (∃ (replies : List Answer) (σ' : State), replies.length ≤ 7 ∧
          ((system platform).under platform.Undisturbed).replay σ (replies.map (.run index)) =
            some σ' ∧
          ∃ fd address, σ'.instances[index]? = some { i with stage := .live fd address }) ∧
        ∀ (events : List Event) (σ' : State),
          ((system platform).under platform.Undisturbed).replay σ events = some σ' →
          (∀ event ∈ events, event ≠ .exit i.process) →
          7 ≤ events.countP (Event.runs index) → Constructed platform σ index i events) := by
  have finds := State.Finds.reachable reached i (List.mem_of_getElem? found) owner
  have few : i.stage.calls ≤ 7 := by
    cases i.stage <;> simp [Stage.calls]
  refine ⟨finds.kept sizable, fun constructs => ⟨?_, ?_⟩⟩
  · exact constructed_within 7 reached found owner sizable constructs few
  · intro events σ' replays stays enough
    rcases constructs_run reached found owner sizable constructs stays replays with
      constructed | ⟨next, _, going, most⟩
    · exact constructed
    · omega

end Progress

/-- The process of an owner ends, which leaves the name, and another owner finds that. -/
def leftRun : List Event :=
  [.construct 1 "/memory" 4096 true, .run 0 (.succeeds 3), .run 0 (.succeeds 0),
    .run 0 (.succeeds 65536), .exit 1, .construct 2 "/memory" 8192 true, .run 1 (.succeeds 3)]

theorem leftRun_replays :
    (((system .linux).under Platform.linux.Undisturbed).replay ⟨.new, []⟩ leftRun).isSome =
      true := by
  decide +kernel

/-- The other owner is constructed, too. -/
theorem owner_constructed_left :
    let left := (((system .linux).under Platform.linux.Undisturbed).replay ⟨.new, []⟩ leftRun).get
      leftRun_replays
    left.system.names "/memory" = some 0 ∧
      ∃ (replies : List Answer) (σ' : State),
        ((system .linux).under Platform.linux.Undisturbed).replay left
          (replies.map (.run 1)) = some σ' ∧
        ∃ fd address, σ'.instances[1]? = some ⟨2, "/memory", 8192, true, .live fd address⟩ := by
  intro left
  have initial : ((system .linux).under Platform.linux.Undisturbed).initial ⟨.new, []⟩ :=
    ⟨rfl, rfl⟩
  have reached : ((system .linux).under Platform.linux.Undisturbed).Reachable left :=
    System.Reachable.of_replay initial leftRun_replays
  have found : left.instances[1]? = some ⟨2, "/memory", 8192, true, .unlinkExisting⟩ := by
    decide +kernel
  obtain ⟨_, constructs⟩ := owner_constructed reached found rfl (by decide +kernel)
  obtain ⟨replies, σ', _, replays, alive⟩ := (constructs (by decide)).1
  exact ⟨by decide +kernel, replies, σ', replays, alive⟩

end Azul.Ipc.SharedMemory
