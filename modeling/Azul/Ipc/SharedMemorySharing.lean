import Azul.Ipc.SharedMemoryOwners

/-!
# Sharing memory

As long as a name has one owner at a time, the name stands for the memory of its owner, and whoever
opens the name while the owner is there has the same memory. On `darwin`, where an owner does not
insist on a new object, this is also what makes the memory of an owner its own, if the calls whose
results are ignored do not fail.
-/

namespace Azul.Ipc.SharedMemory

open Azul.Foundation

/-- An owner is constructed only when the other owners of its name are gone. -/
def Platform.Sole (platform : Platform) (σ : State) : Event → Prop
  | .construct _ name _ true =>
    ∀ i ∈ σ.instances, i.isOwner = true → platform.key i.name = platform.key name →
      i.stage.isOver = true
  | _ => True

instance (platform : Platform) (σ : State) : DecidablePred (platform.Sole σ) := by
  intro event
  unfold Platform.Sole
  split <;> infer_instance

section Moves

variable {platform : Platform} {system system' : SharedObjects String} {i : Instance}
  {reply : Answer} {next : Stage} {o : Nat}

/-- An object of the class does not change the names of others. -/
theorem Moved.names_other (moved : Moved platform system i reply system' next) {name : String}
    (others : i.isOwner = true → platform.key i.name ≠ name) :
    system'.names name = system.names name := by
  cases moved with
  | created owner => exact SharedObjects.create_other (others owner).symm
  | cleared owner | removed owner => exact SharedObjects.forget_other (others owner).symm
  | _ => rfl

/-- Who keeps its memory changes no names. -/
theorem Moved.names_kept (moved : Moved platform system i reply system' next)
    (old : i.object system = some o) (has : { i with stage := next }.object system' = some o) :
    system'.names = system.names := by
  cases moved with
  | created _ _ _ bare =>
    rw [Instance.object_none (Stage.opens_bare bare)] at old
    cases old
  | cleared _ _ opens =>
    rw [Instance.object_none] at has
    · cases has
    · rcases opens with rfl | rfl <;> rfl
  | removed =>
    rw [Instance.object_none rfl] at has
    cases has
  | _ => rfl

/-- The size is asked for after the memory was opened. -/
theorem Moved.asks (moved : Moved platform system i reply system' next)
    (asks : next.asks = true) : i.stage.opens = true := by
  cases moved with
  | opened _ _ bare | created _ _ _ bare => exact bare
  | cleared _ _ opens => rcases opens with rfl | rfl <;> cases asks
  | closed =>
    unfold Instance.closed at asks
    split at asks <;> cases asks
  | quiet quiet =>
    rw [quiet.asks] at asks
    cases asks
  | _ => cases asks

/-- Who has opened its memory does not do so again. -/
theorem Moved.past (moved : Moved platform system i reply system' next)
    (owes : i.stage.owes = true) : next.owes = true ∨ next.isOver = true := by
  cases moved with
  | opened _ _ _ _ holds =>
    rw [holds]
    exact Or.inl (by cases i.isOwner <;> rfl)
  | created _ _ _ _ holds =>
    rw [holds]
    exact Or.inl (by cases platform.exclusive <;> rfl)
  | cleared _ bare => rcases bare with here | here <;> rw [here] at owes <;> cases owes
  | closed =>
    unfold Instance.closed
    split
    case isTrue => exact Or.inl rfl
    case isFalse => exact Or.inr rfl
  | removed => exact Or.inr rfl
  | quiet quiet =>
    rcases quiet.stays owes with still | ⟨_, ends⟩
    · exact Or.inl still
    · exact Or.inr ends
  | _ => exact Or.inl rfl

end Moves

/-! ## A name stands for the memory of its owner -/

/-- There is one owner of a name at a time, and the name stands for its memory. -/
structure Alone (platform : Platform) (σ : State) : Prop where
  alone : ∀ (one other : Nat) (i j : Instance), σ.instances[one]? = some i →
    σ.instances[other]? = some j → i.isOwner = true → j.isOwner = true →
    platform.key i.name = platform.key j.name → i.stage.isOver = false →
    j.stage.isOver = false → one = other
  named : ∀ i ∈ σ.instances, i.isOwner = true → ∀ o, i.object σ.system = some o →
    σ.system.names (platform.key i.name) = some o

/-- Who has an object is not over. -/
theorem Instance.going {system : SharedObjects String} {i : Instance} {o : Nat}
    (has : i.object system = some o) : i.stage.isOver = false := by
  obtain ⟨fd, described, _⟩ := Instance.described has
  cases stage : i.stage <;> rw [stage] at described <;> first | rfl | cases described

/-- Who is not over after the end of a process is in another process. -/
theorem Instance.exit_going {process : Nat} {i : Instance}
    (going : (i.exit process).stage.isOver = false) : i.exit process = i := by
  unfold Instance.exit at going ⊢
  split
  case isTrue own =>
    rw [if_pos own] at going
    cases stage : i.stage <;> simp [stage, Stage.exit] at going
  case isFalse => rfl

@[simp]
theorem Instance.exit_isOwner (process : Nat) (i : Instance) :
    (i.exit process).isOwner = i.isOwner := by
  unfold Instance.exit
  split <;> rfl

@[simp]
theorem Instance.exit_name (process : Nat) (i : Instance) : (i.exit process).name = i.name := by
  unfold Instance.exit
  split <;> rfl

namespace Alone

variable {platform : Platform} {σ σ' : State} {event : Event}

/-- Who has the memory of an owner changes no name of another owner. -/
theorem others_named (alone : Alone platform σ) {index other : Nat} {i j : Instance}
    {reply : Answer} {stage : Stage} {system : SharedObjects String}
    (found : σ.instances[index]? = some i) (going : i.stage.isOver = false)
    (moved : Moved platform σ.system i reply system stage)
    (present : σ.instances[other]? = some j) (owner : j.isOwner = true)
    (still : j.stage.isOver = false) (different : other ≠ index) :
    system.names (platform.key j.name) = σ.system.names (platform.key j.name) := by
  apply moved.names_other
  intro also same
  exact different (alone.alone other index j i present found owner also same.symm still going)

/-- Names keep standing for the memory of their owners. -/
theorem step (held : Held σ) (alone : Alone platform σ) (sole : platform.Sole σ event)
    (stepped : σ.step platform event = some σ') : Alone platform σ' := by
  rcases State.step_cases held stepped with ⟨process, name, size, isOwner, rfl, rfl⟩ |
    ⟨index, i, reply, system, stage, _, ⟨found, going⟩, moved, rfl⟩ | ⟨process, _, rfl⟩
  · have unique {k : Nat} {i : Instance} (old : σ.instances[k]? = some i)
        (owner : i.isOwner = true) (new : isOwner = true)
        (same : platform.key i.name = platform.key name) : i.stage.isOver = true := by
      rw [new] at sole
      exact sole i (List.mem_of_getElem? old) owner same
    constructor
    · intro one other i j first second owner also same going still
      rcases append_cases first with old | ⟨here, rfl⟩
      · rcases append_cases second with older | ⟨_, rfl⟩
        · exact alone.alone one other i j old older owner also same going still
        · rw [unique old owner also same] at going
          cases going
      · rcases append_cases second with old | ⟨there, _⟩
        · rw [unique old also owner same.symm] at still
          cases still
        · rw [here, there]
    · intro i inside owner o has
      rcases List.mem_append.mp inside with old | new
      · exact alone.named i old owner o has
      · rw [List.mem_singleton.mp new, Instance.object_none (Platform.first_descriptor _)] at has
        cases has
  · constructor
    · intro one other j k first second owner also same busy still
      rcases set_cases found first with ⟨here, rfl⟩ | ⟨_, present⟩
      · rcases set_cases found second with ⟨there, rfl⟩ | ⟨_, present⟩
        · rw [here, there]
        · rw [here]
          exact alone.alone index other i k found present owner also same going still
      · rcases set_cases found second with ⟨there, rfl⟩ | ⟨_, another⟩
        · rw [there]
          exact alone.alone one index j i present found owner also same busy going
        · exact alone.alone one other j k present another owner also same busy still
    · intro j inside owner o has
      obtain ⟨other, present⟩ := List.mem_iff_getElem?.mp inside
      rcases set_cases found present with ⟨_, rfl⟩ | ⟨different, present⟩
      · rcases moved.object has with old | ⟨_, named, same, _⟩ | ⟨_, _, _, named, _⟩
        · rw [State.goes, moved.names_kept old has]
          exact alone.named i (List.mem_of_getElem? found) owner o old
        · rwa [State.goes, same]
        · exact named
      · rw [State.goes, held.goes_object found moved present different] at has
        rw [State.goes, alone.others_named found going moved present owner (Instance.going has)
          different]
        exact alone.named j (List.mem_of_getElem? present) owner o has
  · constructor
    · intro one other i j first second owner also same going still
      rw [List.getElem?_map] at first second
      obtain ⟨i, old, rfl⟩ := Option.map_eq_some_iff.mp first
      obtain ⟨j, older, rfl⟩ := Option.map_eq_some_iff.mp second
      rw [Instance.exit_going going] at owner same going
      rw [Instance.exit_going still] at also same still
      exact alone.alone one other i j old older owner also same going still
    · intro j inside owner o has
      obtain ⟨i, old, rfl⟩ := List.mem_map.mp inside
      obtain ⟨same, kept⟩ := Instance.object_exit has
      rw [same] at owner ⊢
      exact alone.named i old owner o kept

/-- Names stand for the memory of their owners in every run. -/
theorem reachable (reached : ((system platform).under platform.Sole).Reachable σ) :
    Alone platform σ := by
  apply reached.invariant
  · intro state initial
    constructor
    · intro one other i j first
      simp [initial.2] at first
    · intro i inside
      simp [initial.2] at inside
  · intro state event after before alone stepped
    obtain ⟨sole, taken⟩ := System.under_step.mp stepped
    exact alone.step (Held.reachable before.of_under) sole taken

end Alone

/-! ## Opening the memory of an owner -/

/-- An owner that had its memory, and a user that has no other memory while the owner has its. -/
structure Shares (platform : Platform) (one other o : Nat) (σ : State) (i j : Instance) : Prop where
  present : σ.instances[one]? = some i
  found : σ.instances[other]? = some j
  owner : i.isOwner = true
  user : j.isOwner = false
  same : platform.key j.name = platform.key i.name
  past : i.stage.owes = true ∨ i.stage.isOver = true
  own : ∀ p, i.object σ.system = some p → p = o
  shared : i.object σ.system = some o → ∀ p, j.object σ.system = some p → p = o

namespace Shares

variable {platform : Platform} {σ σ' : State} {event : Event} {one other o : Nat} {i j : Instance}

/-- What the owner and the user are after a step of the owner, if it is not over. -/
theorem owner_goes {reply : Answer} {stage : Stage} {system : SharedObjects String}
    (shares : Shares platform one other o σ i j) (held : Held σ) (going : i.stage.isOver = false)
    (moved : Moved platform σ.system i reply system stage) (different : other ≠ one) :
    Shares platform one other o (σ.goes one i stage system) { i with stage := stage } j := by
  have owes : i.stage.owes = true := by
    rcases shares.past with owes | ends
    · exact owes
    · rw [going] at ends
      cases ends
  have bare : i.stage.opens = false := by
    cases stage : i.stage <;> rw [stage] at owes <;> first | rfl | cases owes
  have old {p : Nat} (has : { i with stage := stage }.object system = some p) :
      i.object σ.system = some p := by
    rcases moved.object has with old | ⟨opens, _⟩ | ⟨opens, _⟩
    · exact old
    · rw [bare] at opens
      cases opens
    · rw [bare] at opens
      cases opens
  have kept := held.goes_object shares.present moved shares.found different
  refine ⟨?_, ?_, shares.owner, shares.user, shares.same, moved.past owes, ?_, ?_⟩
  · exact List.getElem?_set_self (List.getElem?_eq_some_iff.mp shares.present).1
  · rw [State.goes, List.getElem?_set_ne different.symm, shares.found]
  · exact fun p has => shares.own p (old has)
  · intro has p
    rw [State.goes, kept]
    exact shares.shared (old has) p

/-- What they are after a step of the user: the name stands for the memory of the owner. -/
theorem user_goes {reply : Answer} {stage : Stage} {system : SharedObjects String}
    (shares : Shares platform one other o σ i j) (held : Held σ) (alone : Alone platform σ)
    (moved : Moved platform σ.system j reply system stage) (different : one ≠ other) :
    Shares platform one other o (σ.goes other j stage system) i { j with stage := stage } := by
  have kept := held.goes_object shares.found moved shares.present different
  refine ⟨?_, ?_, shares.owner, shares.user, shares.same, shares.past, ?_, ?_⟩
  · rw [State.goes, List.getElem?_set_ne different.symm, shares.present]
  · exact List.getElem?_set_self (List.getElem?_eq_some_iff.mp shares.found).1
  · intro p
    rw [State.goes, kept]
    exact shares.own p
  · intro has p got
    rw [State.goes, kept] at has
    rcases moved.object got with old | ⟨_, named, _⟩ | ⟨_, creator, _⟩
    · exact shares.shared has p old
    · have owned := alone.named i (List.mem_of_getElem? shares.present) shares.owner o has
      rw [← shares.same, named] at owned
      exact Option.some.inj owned
    · have user := shares.user
      rw [creator] at user
      cases user

/-- What they are after any step. -/
theorem step (shares : Shares platform one other o σ i j) (held : Held σ)
    (alone : Alone platform σ) (stepped : σ.step platform event = some σ') :
    ∃ i' j', Shares platform one other o σ' i' j' := by
  have different : other ≠ one := by
    rintro rfl
    have both := shares.owner
    rw [Option.some.inj (shares.present.symm.trans shares.found), shares.user] at both
    cases both
  rcases State.step_cases held stepped with ⟨process, name, size, isOwner, rfl, rfl⟩ |
    ⟨index, k, reply, system, stage, _, ⟨here, going⟩, moved, rfl⟩ | ⟨process, _, rfl⟩
  · refine ⟨i, j, ?_, ?_, shares.owner, shares.user, shares.same, shares.past, shares.own,
      shares.shared⟩
    · have inside := (List.getElem?_eq_some_iff.mp shares.present).1
      rw [List.getElem?_append_left inside, shares.present]
    · have inside := (List.getElem?_eq_some_iff.mp shares.found).1
      rw [List.getElem?_append_left inside, shares.found]
  · by_cases mine : one = index
    · rw [← mine, shares.present] at here
      cases here
      rw [← mine]
      exact ⟨_, _, shares.owner_goes held going moved different⟩
    · by_cases yours : other = index
      · rw [← yours, shares.found] at here
        cases here
        rw [← yours]
        exact ⟨_, _, shares.user_goes held alone moved different.symm⟩
      · refine ⟨i, j, ?_, ?_, shares.owner, shares.user, shares.same, shares.past, ?_, ?_⟩
        · rw [State.goes, List.getElem?_set_ne (Ne.symm mine), shares.present]
        · rw [State.goes, List.getElem?_set_ne (Ne.symm yours), shares.found]
        · rw [State.goes, held.goes_object here moved shares.present mine]
          exact shares.own
        · rw [State.goes, held.goes_object here moved shares.present mine,
            held.goes_object here moved shares.found yours]
          exact shares.shared
  · refine ⟨i.exit process, j.exit process, ?_, ?_, ?_, ?_, ?_, ?_, ?_, ?_⟩
    · rw [List.getElem?_map, shares.present, Option.map_some]
    · rw [List.getElem?_map, shares.found, Option.map_some]
    · rw [Instance.exit_isOwner]
      exact shares.owner
    · rw [Instance.exit_isOwner]
      exact shares.user
    · rw [Instance.exit_name, Instance.exit_name]
      exact shares.same
    · unfold Instance.exit
      split
      case isTrue => exact Or.inr (by cases i.stage <;> rfl)
      case isFalse => exact shares.past
    · exact fun p has => shares.own p (Instance.object_exit has).2
    · intro has p got
      exact shares.shared (Instance.object_exit has).2 p (Instance.object_exit got).2

/-- What they are after a run. -/
theorem replay {events : List Event} (shares : Shares platform one other o σ i j)
    (reached : ((system platform).under platform.Sole).Reachable σ)
    (replayed : ((system platform).under platform.Sole).replay σ events = some σ') :
    ∃ i' j', Shares platform one other o σ' i' j' := by
  let relates (first last : State) : Prop :=
    ∀ i j, Shares platform one other o first i j → ∃ i' j', Shares platform one other o last i' j'
  have related : relates σ σ' := by
    apply reached.replay_relates _ _ replayed
    · exact fun _ i j shares => ⟨i, j, shares⟩
    · intro first state event after before related stepped i j start
      obtain ⟨i', j', shares⟩ := related i j start
      exact shares.step (Held.reachable before.of_under) (Alone.reachable before)
        (System.under_step.mp stepped).2
  exact related i j shares

end Shares

/-- Who has a descriptor has an object. -/
theorem Held.object {σ : State} {index fd : Nat} {i : Instance} (held : Held σ)
    (found : σ.instances[index]? = some i) (has : i.stage.descriptor = some fd) :
    ∃ o, i.object σ.system = some o := by
  have claims : σ.claims Stage.descriptor index = some (i.process, fd) := by
    simp only [State.claims, claimsOf_some found, Instance.holds, has, Option.map_some]
  obtain ⟨o, known⟩ := Option.isSome_iff_exists.mp (held.descriptors.kept index _ claims)
  exact ⟨o, by rw [Instance.object_some has, known]⟩

/-- While the owner of a name has its memory, a user that opens the name has the same memory: as
long as a name has one owner at a time, both map one object, each with its own size. -/
theorem opener_shares {platform : Platform} {σ σ' : State} {events : List Event}
    (reached : ((system platform).under platform.Sole).Reachable σ)
    (replayed : ((system platform).under platform.Sole).replay σ events = some σ')
    {one other : Nat} {i j i' j' : Instance}
    (present : σ.instances[one]? = some i) (owner : i.isOwner = true)
    (opened : i.stage.descriptor ≠ none)
    (found : σ.instances[other]? = some j) (user : j.isOwner = false)
    (unopened : j.stage.descriptor = none) (same : platform.key j.name = platform.key i.name)
    (present' : σ'.instances[one]? = some i') (found' : σ'.instances[other]? = some j')
    {own opening : Nat} (maps : i'.stage.address = some own)
    (uses : j'.stage.address = some opening) :
    ∃ object, σ'.system.mappings (i'.process, own) = some (object, i'.size.toNat) ∧
      σ'.system.mappings (j'.process, opening) = some (object, j'.size.toNat) := by
  have held := Held.reachable reached.of_under
  obtain ⟨fd, described⟩ := Option.ne_none_iff_exists'.mp opened
  obtain ⟨o, mine⟩ := held.object present described
  have owes : i.stage.owes = true := by
    cases stage : i.stage <;> rw [stage] at described <;> first | rfl | cases described
  have start : Shares platform one other o σ i j := by
    refine ⟨present, found, owner, user, same, Or.inl owes, ?_, ?_⟩
    · intro p has
      rw [mine] at has
      exact (Option.some.inj has).symm
    · intro _ p has
      rw [Instance.object_none unopened] at has
      cases has
  obtain ⟨k, l, shares⟩ := start.replay reached replayed
  rw [Option.some.inj (shares.present.symm.trans present')] at shares
  rw [Option.some.inj (shares.found.symm.trans found')] at shares
  have later := Held.reachable (reached.replay replayed).of_under
  obtain ⟨fd', object, has, known, mapped⟩ :=
    later.views i' (List.mem_of_getElem? present') own maps
  obtain ⟨fd'', object', has', known', mapped'⟩ :=
    later.views j' (List.mem_of_getElem? found') opening uses
  have first : i'.object σ'.system = some object := by rw [Instance.object_some has, known]
  have second : j'.object σ'.system = some object' := by rw [Instance.object_some has', known']
  have owned := shares.own object first
  rw [owned] at first mapped
  rw [shares.shared first object' second] at mapped'
  exact ⟨o, mapped, mapped'⟩

/-- The constructor of an owner and that of a user, each in its own process. -/
def sharingRun : List Event :=
  [.construct 1 "/memory" 4096 true, .run 0 (.succeeds 3), .construct 2 "/memory" 4096 false]

/-- Their remaining calls, in turns. -/
def sharedRun : List Event :=
  [.run 1 (.succeeds 5), .run 0 (.succeeds 0), .run 1 (.succeeds 131072), .run 0 (.succeeds 65536)]

theorem sharingRun_replays :
    (((system .linux).under Platform.linux.Sole).replay ⟨.new, []⟩ sharingRun).isSome = true := by
  decide +kernel

/-- The state after the first calls. -/
def sharing : State :=
  (((system .linux).under Platform.linux.Sole).replay ⟨.new, []⟩ sharingRun).get sharingRun_replays

theorem sharedRun_replays :
    (((system .linux).under Platform.linux.Sole).replay sharing sharedRun).isSome = true := by
  decide +kernel

/-- Both map the object that the owner has created. -/
theorem opener_shares_turns :
    let shared := (((system .linux).under Platform.linux.Sole).replay sharing sharedRun).get
      sharedRun_replays
    ∃ object, shared.system.mappings (1, 65536) = some (object, 4096) ∧
      shared.system.mappings (2, 131072) = some (object, 4096) := by
  intro shared
  have initial : ((system .linux).under Platform.linux.Sole).initial ⟨.new, []⟩ := ⟨rfl, rfl⟩
  have reached : ((system .linux).under Platform.linux.Sole).Reachable sharing :=
    System.Reachable.of_replay initial sharingRun_replays
  have owner : sharing.instances[0]? = some ⟨1, "/memory", 4096, true, .ftruncate 3⟩ := by
    decide +kernel
  have user : sharing.instances[1]? = some ⟨2, "/memory", 4096, false, .shmOpen⟩ := by
    decide +kernel
  have owner' : shared.instances[0]? = some ⟨1, "/memory", 4096, true, .live 3 65536⟩ := by
    decide +kernel
  have user' : shared.instances[1]? = some ⟨2, "/memory", 4096, false, .live 5 131072⟩ := by
    decide +kernel
  exact opener_shares reached (Option.some_get sharedRun_replays).symm owner rfl (by decide) user
    rfl rfl rfl owner' user' rfl rfl

/-! ## Owners on `darwin` -/

/-- Calls whose failure is ignored do not fail: `shm_unlink` around the life of an owner, and
`fstat`. -/
def State.Calls (σ : State) : Event → Prop
  | .run index reply => ∀ i ∈ σ.instances[index]?,
    (i.stage.ignores || i.stage.asks) = true → reply.isFailure = false
  | _ => True

instance (σ : State) : DecidablePred σ.Calls
  | .run index reply => inferInstanceAs (Decidable (∀ i ∈ σ.instances[index]?,
      (i.stage.ignores || i.stage.asks) = true → reply.isFailure = false))
  | .construct _ _ _ _ | .destroy _ | .exit _ => .isTrue trivial

/-- One owner of a name at a time, and calls that do not fail without notice. -/
def Platform.Orderly (platform : Platform) (σ : State) (event : Event) : Prop :=
  platform.Sole σ event ∧ σ.Calls event

instance (platform : Platform) (σ : State) : DecidablePred (platform.Orderly σ) := by
  intro event
  unfold Platform.Orderly
  infer_instance

/-- An owner that is about to open its memory finds its name free, and what it opens is empty until
the owner resizes it. -/
structure Emptied (platform : Platform) (σ : State) : Prop where
  free : ∀ i ∈ σ.instances, i.isOwner = true → i.stage.opens = true →
    σ.system.names (platform.key i.name) = none
  empty : ∀ i ∈ σ.instances, i.isOwner = true → i.stage.asks = true →
    ∀ o, i.object σ.system = some o → σ.system.size o = 0
  sized : ∀ i ∈ σ.instances, i.isOwner = true → i.stage.isSized = true →
    ∀ o, i.object σ.system = some o → σ.system.size o = i.size.toNat

/-- Owners of different names have different objects. -/
theorem Alone.apart {platform : Platform} {σ : State} (alone : Alone platform σ)
    (numbered : σ.system.Numbered) {one other : Nat} {i j : Instance} {o : Nat}
    (first : σ.instances[one]? = some i) (second : σ.instances[other]? = some j)
    (owner : i.isOwner = true) (also : j.isOwner = true) (has : i.object σ.system = some o)
    (shares : j.object σ.system = some o) : one = other := by
  have named := alone.named i (List.mem_of_getElem? first) owner o has
  have renamed := alone.named j (List.mem_of_getElem? second) also o shares
  exact alone.alone one other i j first second owner also (numbered.single _ _ o named renamed)
    (Instance.going has) (Instance.going shares)

namespace Emptied

variable {platform : Platform} {σ σ' : State} {event : Event} {index : Nat} {i : Instance}
  {reply : Answer} {stage : Stage} {system : SharedObjects String}

/-- The owner that goes on finds its name free and its object empty, or has its size. -/
theorem moved (emptied : Emptied platform σ) (shared : platform.exclusive = false)
    (inside : i ∈ σ.instances) (owner : i.isOwner = true)
    (answers : (i.stage.ignores || i.stage.asks) = true → reply.isFailure = false)
    (moved : Moved platform σ.system i reply system stage) :
    (stage.opens = true → system.names (platform.key i.name) = none) ∧
      ∀ o, { i with stage := stage }.object system = some o →
        (stage.asks = true → system.size o = 0) ∧
          (stage.isSized = true → system.size o = i.size.toNat) := by
  refine ⟨?_, fun o has => ⟨?_, ?_⟩⟩
  · intro opens
    cases moved with
    | opened _ _ _ _ holds =>
      rw [holds, owner] at opens
      cases opens
    | created _ _ _ _ holds =>
      rw [holds, shared] at opens
      cases opens
    | cleared => exact SharedObjects.forget_self
    | closed =>
      rw [Instance.closed, if_pos owner] at opens
      cases opens
    | quiet quiet =>
      obtain ⟨ignores, failed⟩ := quiet.fails (Or.inl opens)
      rw [answers (by rw [ignores]; rfl)] at failed
      cases failed
    | _ => cases opens
  · intro asks
    rcases moved.object has with old | ⟨bare, named, _⟩ | ⟨_, _, _, _, empty⟩
    · rw [Instance.object_none (Stage.opens_bare (moved.asks asks))] at old
      cases old
    · rw [emptied.free i inside owner bare] at named
      cases named
    · exact empty
  · intro sized
    rcases moved.sized owner sized has with done | ⟨before, old, same⟩ |
      ⟨_, rfl, old, fd, stats, filled⟩
    · exact done
    · rw [same]
      exact emptied.sized i inside owner before o old
    · have asks : i.stage.asks = true := by
        rw [stats]
        rfl
      have answered := answers (by rw [asks, Bool.or_true])
      exact absurd (emptied.empty i inside owner asks o old) (filled answered)

/-- This is kept under these conditions. -/
theorem step {key : String → String} (held : Held σ) (numbered : σ.system.Numbered)
    (alone : Alone (.darwin key) σ) (emptied : Emptied (.darwin key) σ) (calls : σ.Calls event)
    (stepped : σ.step (.darwin key) event = some σ') : Emptied (.darwin key) σ' := by
  rcases State.step_cases held stepped with ⟨process, name, size, isOwner, _, rfl⟩ |
    ⟨index, i, reply, system, stage, event', ⟨found, going⟩, moved, rfl⟩ | ⟨process, _, rfl⟩
  · have fresh {j : Instance} (inside : j ∈ σ.instances ++
          [⟨process, name, size, isOwner, (Platform.darwin key).first isOwner⟩])
        (owner : j.isOwner = true) (busy : j.stage ≠ .unlinkStale) : j ∈ σ.instances := by
      rcases List.mem_append.mp inside with old | new
      · exact old
      · rw [List.mem_singleton.mp new] at owner busy
        rw [Platform.first, if_pos owner] at busy
        exact absurd rfl busy
    constructor
    · intro j inside owner opens
      refine emptied.free j (fresh inside owner ?_) owner opens
      intro stale
      rw [stale] at opens
      cases opens
    · intro j inside owner asks
      refine emptied.empty j (fresh inside owner ?_) owner asks
      intro stale
      rw [stale] at asks
      cases asks
    · intro j inside owner sized
      refine emptied.sized j (fresh inside owner ?_) owner sized
      intro stale
      rw [stale] at sized
      cases sized
  · have answers : (i.stage.ignores || i.stage.asks) = true → reply.isFailure = false := by
      rcases event' with rfl | ⟨_, succeeds⟩
      · exact calls i (Option.mem_def.mpr found)
      · exact fun _ => succeeds
    have mine (owner : i.isOwner = true) :=
      emptied.moved rfl (List.mem_of_getElem? found) owner answers moved
    have others {other o : Nat} {j : Instance} (present : σ.instances[other]? = some j)
        (different : other ≠ index) (owner : j.isOwner = true)
        (has : j.object system = some o) :
        j.object σ.system = some o ∧ system.size o = σ.system.size o := by
      rw [held.goes_object found moved present different] at has
      obtain ⟨fd, _, known⟩ := Instance.described has
      refine ⟨has, moved.size_other (numbered.described _ _ known) ?_⟩
      exact fun also old => different (alone.apart numbered present found owner also has old)
    constructor
    · intro j inside owner opens
      obtain ⟨other, present⟩ := List.mem_iff_getElem?.mp inside
      rcases set_cases found present with ⟨_, rfl⟩ | ⟨different, present⟩
      · exact (mine owner).1 opens
      · have still : j.stage.isOver = false := by
          cases stage : j.stage <;> rw [stage] at opens <;> first | rfl | cases opens
        rw [State.goes, alone.others_named found going moved present owner still different]
        exact emptied.free j (List.mem_of_getElem? present) owner opens
    · intro j inside owner asks o has
      obtain ⟨other, present⟩ := List.mem_iff_getElem?.mp inside
      rcases set_cases found present with ⟨_, rfl⟩ | ⟨different, present⟩
      · exact ((mine owner).2 o has).1 asks
      · obtain ⟨old, same⟩ := others present different owner has
        rw [State.goes, same]
        exact emptied.empty j (List.mem_of_getElem? present) owner asks o old
    · intro j inside owner sized o has
      obtain ⟨other, present⟩ := List.mem_iff_getElem?.mp inside
      rcases set_cases found present with ⟨_, rfl⟩ | ⟨different, present⟩
      · exact ((mine owner).2 o has).2 sized
      · obtain ⟨old, same⟩ := others present different owner has
        rw [State.goes, same]
        exact emptied.sized j (List.mem_of_getElem? present) owner sized o old
  · constructor
    · intro j inside owner opens
      obtain ⟨i, old, rfl⟩ := List.mem_map.mp inside
      have still : (i.exit process).stage.isOver = false := by
        cases stage : (i.exit process).stage <;> rw [stage] at opens <;> first | rfl | cases opens
      rw [Instance.exit_going still] at owner opens ⊢
      exact emptied.free i old owner opens
    · intro j inside owner asks o has
      obtain ⟨i, old, rfl⟩ := List.mem_map.mp inside
      obtain ⟨same, kept⟩ := Instance.object_exit has
      rw [same] at owner asks
      exact emptied.empty i old owner asks o kept
    · intro j inside owner sized o has
      obtain ⟨i, old, rfl⟩ := List.mem_map.mp inside
      obtain ⟨same, kept⟩ := Instance.object_exit has
      rw [same] at owner sized ⊢
      exact emptied.sized i old owner sized o kept

end Emptied

/-- On `darwin`, too, the memory of an owner is its own and has its size, as long as a name has one
owner at a time and neither `fstat` nor a `shm_unlink` whose result is ignored fails. -/
theorem darwin_owners_apart {key : String → String} {σ : State}
    (reached : ((system (.darwin key)).under (Platform.darwin key).Orderly).Reachable σ) :
    OwnersApart σ := by
  have sole : ((system (.darwin key)).under (Platform.darwin key).Sole).Reachable σ :=
    reached.under_weaker fun _ _ orderly => orderly.1
  have emptied : Emptied (.darwin key) σ := by
    apply reached.invariant
    · intro state initial
      constructor <;>
      · intro i inside
        simp [initial.2] at inside
    · intro state event after before emptied stepped
      obtain ⟨orderly, taken⟩ := System.under_step.mp stepped
      have plain := before.of_under
      exact emptied.step (Held.reachable plain) (Held.numbered plain)
        (Alone.reachable (before.under_weaker fun _ _ orderly => orderly.1)) orderly.2 taken
  refine ⟨?_, emptied.sized⟩
  exact fun one other i j o first second owner also has shares =>
    (Alone.reachable sole).apart (Held.numbered reached.of_under) first second owner also has shares

/-- The encoding of the name `memory`. -/
def memoryKey (_ : String) : String := "/gcXUm+lQUInY0kjqlvbQd/0Kub0="

/-- The process of an owner ends, and another owner of the name comes. -/
def restartedRun : List Event :=
  [.construct 1 "memory" 4096 true, .run 0 (.succeeds 0), .run 0 (.succeeds 3),
    .run 0 (.succeeds 0), .run 0 (.succeeds 0), .run 0 (.succeeds 65536), .exit 1,
    .construct 2 "memory" 8192 true, .run 1 (.succeeds 0), .run 1 (.succeeds 3),
    .run 1 (.succeeds 0), .run 1 (.succeeds 0), .run 1 (.succeeds 65536)]

theorem restartedRun_replays :
    (((system (.darwin memoryKey)).under (Platform.darwin memoryKey).Orderly).replay ⟨.new, []⟩
      restartedRun).isSome = true := by
  decide +kernel

/-- The new owner has memory of its own size. -/
theorem darwin_owners_apart_restarted :
    let restarted := (((system (.darwin memoryKey)).under
      (Platform.darwin memoryKey).Orderly).replay ⟨.new, []⟩ restartedRun).get restartedRun_replays
    OwnersApart restarted ∧ restarted.instances.map Instance.stage = [.crashed, .live 3 65536] := by
  intro restarted
  have initial : ((system (.darwin memoryKey)).under
      (Platform.darwin memoryKey).Orderly).initial ⟨.new, []⟩ := ⟨rfl, rfl⟩
  exact ⟨darwin_owners_apart (System.Reachable.of_replay initial restartedRun_replays),
    by decide +kernel⟩

end Azul.Ipc.SharedMemory
