import Azul.Foundation.Accounting
import Azul.Ipc.SharedMemoryHoldings

/-!
# Owners of shared memory

On `linux` an owner insists on a new object, so the memory of an owner is its own and has the size
that it was constructed with, however the calls of other processes fall between its own. A name that
is in use belongs to an owner that is still there or whose process has ended before it could remove
the name; the next owner of the name removes it then.
-/

namespace Azul.Ipc.SharedMemory

open Azul.Foundation

/-- The object that the descriptor of an object of the class stands for. -/
def Instance.object (system : SharedObjects String) (i : Instance) : Option Nat :=
  (i.holds Stage.descriptor).bind system.descriptors

section Moves

variable {platform : Platform} {system system' : SharedObjects String} {i : Instance}
  {reply : Answer} {next : Stage} {o : Nat}

/-- Who has no descriptor has no object. -/
theorem Instance.object_none (bare : i.stage.descriptor = none) : i.object system = none := by
  simp only [Instance.object, Instance.holds, bare, Option.map_none, Option.bind_none]

/-- Who has a descriptor has an object. -/
theorem Instance.object_some {fd : Nat} (has : i.stage.descriptor = some fd) :
    i.object system = system.descriptors (i.process, fd) := by
  simp only [Instance.object, Instance.holds, has, Option.map_some, Option.bind_some]

/-- Who has an object has a descriptor. -/
theorem Instance.described (has : i.object system = some o) :
    ∃ fd, i.stage.descriptor = some fd ∧ system.descriptors (i.process, fd) = some o := by
  cases described : i.stage.descriptor with
  | none =>
    rw [Instance.object_none described] at has
    cases has
  | some fd => exact ⟨fd, rfl, by rw [← has, Instance.object_some described]⟩

/-- Where an object comes from. -/
theorem Moved.object (moved : Moved platform system i reply system' next)
    (has : { i with stage := next }.object system' = some o) :
    i.object system = some o ∨
      (i.stage.opens = true ∧ system.names (platform.key i.name) = some o ∧
        system'.names = system.names ∧ (i.isOwner = false ∨ platform.exclusive = false)) ∨
      (i.stage.opens = true ∧ i.isOwner = true ∧ o = system.next ∧
        system'.names (platform.key i.name) = some o ∧ system'.size o = 0) := by
  have keeps (old : i.stage.descriptor ≠ none) : i.object system = some o := by
    have had : i.holds Stage.descriptor ≠ none := by
      simpa only [Instance.holds, ne_eq, Option.map_eq_none_iff] using old
    rcases moved.descriptors.entry_kept had with same | gone
    · rw [← has]
      exact same.symm
    · rw [Instance.object, gone] at has
      cases has
  have lost (none' : next.descriptor = none) : i.object system = some o := by
    rw [Instance.object_none none'] at has
    cases has
  cases moved with
  | opened named free bare shared holds =>
    refine Or.inr (Or.inl ⟨bare, ?_, rfl, shared⟩)
    rename_i fd object
    have here : { i with stage := next }.stage.descriptor = some fd := by
      rw [holds]
      cases i.isOwner <;> rfl
    rwa [Instance.object_some here, SharedObjects.describe_self, ← named] at has
  | created owner unnamed free bare holds =>
    rename_i fd
    have here : { i with stage := next }.stage.descriptor = some fd := by
      rw [holds]
      cases platform.exclusive <;> rfl
    rw [Instance.object_some here, SharedObjects.describe_self] at has
    cases has
    exact Or.inr (Or.inr ⟨bare, owner, rfl, SharedObjects.create_self,
      SharedObjects.create_size (platform.key i.name)⟩)
  | cleared _ _ opens =>
    refine Or.inl (lost ?_)
    rcases opens with rfl | rfl <;> rfl
  | removed => exact Or.inl (lost rfl)
  | closed => exact Or.inl (lost Instance.closed_descriptor)
  | resized _ stage | mapped stage | unmapped stage | skipped stage | entered stage =>
    refine Or.inl (keeps ?_)
    rw [stage]
    exact Option.some_ne_none _
  | quiet quiet =>
    cases old : i.stage.descriptor with
    | none => exact Or.inl (lost (quiet.descriptor.trans old))
    | some fd =>
      refine Or.inl (keeps ?_)
      rw [old]
      exact Option.some_ne_none _

/-- The descriptors of a process that does not end stay as they are. -/
theorem Instance.object_exit {process : Nat}
    (has : (i.exit process).object (system.exit process) = some o) :
    i.exit process = i ∧ i.object system = some o := by
  obtain ⟨fd, described, known⟩ := Instance.described has
  by_cases own : i.process = process
  · rw [Instance.exit, if_pos own] at described
    cases stage : i.stage <;> simp [stage, Stage.exit, Stage.descriptor] at described
  · have same : i.exit process = i := if_neg own
    rw [same] at described known
    rw [SharedObjects.exit_other own] at known
    exact ⟨same, by rw [Instance.object_some described, known]⟩

/-- A constructor has nothing at first. -/
theorem Platform.first_descriptor (isOwner : Bool) :
    (platform.first isOwner).descriptor = none := by
  cases platform <;> cases isOwner <;> rfl

end Moves

/-- The others keep their objects when an object goes on. -/
theorem Held.goes_object {platform : Platform} {σ : State} {index other : Nat} {i j : Instance}
    {reply : Answer} {stage : Stage} {system : SharedObjects String} (held : Held σ)
    (found : σ.instances[index]? = some i)
    (moved : Moved platform σ.system i reply system stage)
    (present : σ.instances[other]? = some j) (different : other ≠ index) :
    j.object system = j.object σ.system := by
  have trades := moved.descriptors
  have mine : i.holds Stage.descriptor = σ.claims Stage.descriptor index :=
    (claimsOf_some found).symm
  rw [mine] at trades
  cases has : j.holds Stage.descriptor with
  | none => simp only [Instance.object, has, Option.bind_none]
  | some key =>
    have holds : σ.claims Stage.descriptor other = some key := by
      rw [State.claims, claimsOf_some present, has]
    simp only [Instance.object, has, Option.bind_some]
    exact held.descriptors.trade_others trades holds different

/-! ## Objects are numbered -/

section Numbers

variable {platform : Platform} {σ σ' : State} {event : Event}
  {system system' : SharedObjects String}

/-- Objects stay numbered whatever an object of the class does. -/
theorem Moved.numbered {i : Instance} {reply : Answer} {next : Stage}
    (moved : Moved platform system i reply system' next) (numbered : system.Numbered) :
    system'.Numbered := by
  cases moved with
  | opened named => exact numbered.describe (numbered.named _ _ named)
  | created => exact numbered.create.describe (Nat.lt_succ_self _)
  | cleared | removed => exact numbered.forget
  | closed => exact numbered.close
  | resized | mapped | unmapped => exact ⟨numbered.described, numbered.named, numbered.single⟩
  | skipped | entered | quiet => exact numbered

/-- Objects are numbered in every run. -/
theorem Held.numbered (reached : (SharedMemory.system platform).Reachable σ) :
    σ.system.Numbered := by
  apply reached.invariant
  · intro state initial
    rw [initial.1]
    exact .new
  · intro state event after before numbered stepped
    rcases State.step_cases (Held.reachable before) stepped with
      ⟨process, name, size, isOwner, _, rfl⟩ |
      ⟨index, i, reply, system, stage, _, ⟨found, _⟩, moved, rfl⟩ | ⟨process, _, rfl⟩
    · exact numbered
    · exact moved.numbered numbered
    · exact numbered.exit

end Numbers

/-! ## The memory of an owner is its own -/

/-- No two owners share an object, and the memory of an owner has the size of the owner. -/
structure OwnersApart (σ : State) : Prop where
  apart : ∀ (one other : Nat) (i j : Instance) (o : Nat), σ.instances[one]? = some i →
    σ.instances[other]? = some j → i.isOwner = true → j.isOwner = true →
    i.object σ.system = some o → j.object σ.system = some o → one = other
  sized : ∀ i ∈ σ.instances, i.isOwner = true → i.stage.isSized = true →
    ∀ o, i.object σ.system = some o → σ.system.size o = i.size.toNat

/-- A size that is not negative as a signed number is the same number. -/
theorem toNat_of_signed {size : UInt64} (positive : 0 ≤ size.toInt64.toInt) :
    size.toInt64.toInt.toNat = size.toNat := by
  change 0 ≤ size.toBitVec.toInt at positive
  change size.toBitVec.toInt.toNat = size.toBitVec.toNat
  have bounded := size.toBitVec.isLt
  rw [BitVec.toInt_eq_toNat_cond] at positive ⊢
  split at positive
  case isTrue low =>
    rw [if_pos low]
    rfl
  case isFalse => omega

section Sizes

variable {platform : Platform} {system system' : SharedObjects String} {i : Instance}
  {reply : Answer} {next : Stage} {o : Nat}

/-- Only an owner changes the size of an object, and only of its own. -/
theorem Moved.size_other (moved : Moved platform system i reply system' next)
    (old : o < system.next) (others : i.isOwner = true → i.object system ≠ some o) :
    system'.size o = system.size o := by
  cases moved with
  | created => exact SharedObjects.create_size_other (platform.key i.name) (Nat.ne_of_lt old)
  | resized owner stage has =>
    apply SharedObjects.resize_other
    rintro rfl
    apply others owner
    rw [Instance.object_some (by rw [stage]; rfl), has]
  | _ => rfl

/-- How an owner comes to have its size. -/
theorem Moved.sized (moved : Moved platform system i reply system' next)
    (owner : i.isOwner = true) (sized : next.isSized = true)
    (has : { i with stage := next }.object system' = some o) :
    system'.size o = i.size.toNat ∨
      (i.stage.isSized = true ∧ i.object system = some o ∧ system'.size = system.size) ∨
      (platform.exclusive = false ∧ system' = system ∧ i.object system = some o ∧
        ∃ fd, i.stage = .fstat fd ∧ (reply.isFailure = false → system.size o ≠ 0)) := by
  have stays {fd : Nat} (stage : i.stage.descriptor = some fd) (bare : i.stage.opens = false) :
      i.object system = some o := by
    rcases moved.object has with same | ⟨opens, _⟩ | ⟨opens, _⟩
    · exact same
    · rw [bare] at opens
      cases opens
    · rw [bare] at opens
      cases opens
  cases moved with
  | opened _ _ _ _ holds =>
    rw [holds, owner] at sized
    cases sized
  | created _ _ _ _ holds =>
    rw [holds] at sized
    cases insists : platform.exclusive <;> rw [insists] at sized <;> cases sized
  | cleared _ _ opens => rcases opens with rfl | rfl <;> cases sized
  | resized _ stage known positive =>
    have same := stays (by rw [stage]; rfl) (by rw [stage]; rfl)
    rw [Instance.object_some (by rw [stage]; rfl), known] at same
    cases same
    exact Or.inl (by rw [SharedObjects.resize_self, toNat_of_signed positive])
  | mapped stage | entered stage =>
    refine Or.inr (Or.inl ⟨by rw [stage]; rfl, ?_, rfl⟩)
    exact stays (by rw [stage]; rfl) (by rw [stage]; rfl)
  | closed stage =>
    rw [Instance.closed, if_pos owner] at sized
    cases sized
  | skipped stage shared why =>
    have same := stays (by rw [stage]; rfl) (by rw [stage]; rfl)
    refine Or.inr (Or.inr ⟨shared, rfl, same, _, stage, why o ?_⟩)
    rw [← same, Instance.object_some (by rw [stage]; rfl)]
  | quiet quiet =>
    rw [quiet.sized] at sized
    cases sized
  | unmapped | removed => cases sized

end Sizes

namespace OwnersApart

variable {platform : Platform} {σ σ' : State} {event : Event}

/-- Where owners insist on new objects, their memory stays their own. -/
theorem step (insists : platform.exclusive = true) (held : Held σ) (numbered : σ.system.Numbered)
    (apart : OwnersApart σ) (stepped : σ.step platform event = some σ') : OwnersApart σ' := by
  rcases State.step_cases held stepped with ⟨process, name, size, isOwner, _, rfl⟩ |
    ⟨index, i, reply, system, stage, _, ⟨found, _⟩, moved, rfl⟩ | ⟨process, _, rfl⟩
  · have bare {system : SharedObjects String} {o : Nat}
        (has : Instance.object system ⟨process, name, size, isOwner, platform.first isOwner⟩ =
          some o) : False := by
      rw [Instance.object_none (Platform.first_descriptor isOwner)] at has
      cases has
    constructor
    · intro one other i j o first second owner also has shares
      rcases append_cases first with first | ⟨_, rfl⟩
      · rcases append_cases second with second | ⟨_, rfl⟩
        · exact apart.apart one other i j o first second owner also has shares
        · exact (bare shares).elim
      · exact (bare has).elim
    · intro i inside owner sized o has
      rcases List.mem_append.mp inside with old | new
      · exact apart.sized i old owner sized o has
      · rw [List.mem_singleton.mp new] at has
        exact (bare has).elim
  · have clash {other : Nat} {j : Instance} {o : Nat} (present : σ.instances[other]? = some j)
        (different : other ≠ index) (owner : i.isOwner = true) (also : j.isOwner = true)
        (has : { i with stage := stage }.object system = some o)
        (shares : j.object σ.system = some o) : False := by
      rcases moved.object has with old | ⟨_, _, _, shared⟩ | ⟨_, _, fresh, _⟩
      · exact different (apart.apart other index j i o present found also owner shares old)
      · rcases shared with user | unforced
        · rw [owner] at user
          cases user
        · rw [insists] at unforced
          cases unforced
      · obtain ⟨fd, _, known⟩ := Instance.described shares
        have bounded := numbered.described _ _ known
        omega
    constructor
    · intro one other j k o first second owner also has shares
      rcases set_cases found first with ⟨here, rfl⟩ | ⟨different, present⟩
      · rcases set_cases found second with ⟨there, rfl⟩ | ⟨different, present⟩
        · rw [here, there]
        · rw [State.goes, held.goes_object found moved present different] at shares
          exact (clash present different owner also has shares).elim
      · rw [State.goes, held.goes_object found moved present different] at has
        rcases set_cases found second with ⟨_, rfl⟩ | ⟨elsewhere, another⟩
        · exact (clash present different also owner shares has).elim
        · rw [State.goes, held.goes_object found moved another elsewhere] at shares
          exact apart.apart one other j k o present another owner also has shares
    · intro j inside owner sized o has
      obtain ⟨other, present⟩ := List.mem_iff_getElem?.mp inside
      rcases set_cases found present with ⟨rfl, rfl⟩ | ⟨different, present⟩
      · rcases moved.sized owner sized has with done | ⟨before, old, same⟩ | ⟨unforced, _⟩
        · exact done
        · rw [State.goes, same]
          exact apart.sized i (List.mem_of_getElem? found) owner before o old
        · rw [insists] at unforced
          cases unforced
      · rw [State.goes, held.goes_object found moved present different] at has
        obtain ⟨fd, _, known⟩ := Instance.described has
        rw [State.goes, moved.size_other (numbered.described _ _ known)]
        · exact apart.sized j (List.mem_of_getElem? present) owner sized o has
        · intro mine old
          exact different (apart.apart other index j i o present found owner mine has old)
  · have left {k : Nat} {j : Instance} {o : Nat}
        (present : (σ.instances.map (Instance.exit process))[k]? = some j)
        (has : j.object (σ.system.exit process) = some o) :
        σ.instances[k]? = some j ∧ j.object σ.system = some o := by
      rw [List.getElem?_map] at present
      obtain ⟨i, found, rfl⟩ := Option.map_eq_some_iff.mp present
      obtain ⟨same, old⟩ := Instance.object_exit has
      rw [same]
      exact ⟨found, old⟩
    constructor
    · intro one other i j o first second owner also has shares
      obtain ⟨first, has⟩ := left first has
      obtain ⟨second, shares⟩ := left second shares
      exact apart.apart one other i j o first second owner also has shares
    · intro i inside owner sized o has
      obtain ⟨k, present⟩ := List.mem_iff_getElem?.mp inside
      obtain ⟨found, old⟩ := left present has
      exact apart.sized i (List.mem_of_getElem? found) owner sized o old

end OwnersApart

/-- On `linux` the memory of an owner is its own and has the size that it was constructed with. -/
theorem linux_owners_apart {σ : State} (reached : (system .linux).Reachable σ) :
    OwnersApart σ := by
  apply reached.invariant
  · intro state initial
    constructor
    · intro one other i j o first
      simp [initial.2] at first
    · intro i inside
      simp [initial.2] at inside
  · exact fun _ _ _ before apart stepped =>
      apart.step rfl (Held.reachable before) (Held.numbered before) stepped

/-- An owner finds its name in use by an owner that is still alive. -/
def rivalRun : List Event :=
  [.construct 1 "/memory" 4096 true, .run 0 (.succeeds 3), .run 0 (.succeeds 0),
    .run 0 (.succeeds 65536), .construct 2 "/memory" 8192 true, .run 1 (.succeeds 3),
    .run 1 (.succeeds 0), .run 1 (.succeeds 3), .run 1 (.succeeds 0), .run 1 (.succeeds 65536)]

theorem rivalRun_replays : ((system .linux).replay ⟨.new, []⟩ rivalRun).isSome = true := by
  decide +kernel

/-- Both are alive at the end, each with memory of its own. -/
theorem linux_owners_apart_rivals :
    let rivals := ((system .linux).replay ⟨.new, []⟩ rivalRun).get rivalRun_replays
    OwnersApart rivals ∧ rivals.instances.map (Instance.object rivals.system) =
      [some 0, some 1] := by
  intro rivals
  have initial : (system .linux).initial ⟨.new, []⟩ := ⟨rfl, rfl⟩
  exact ⟨linux_owners_apart (System.Reachable.of_replay initial rivalRun_replays),
    by decide +kernel⟩

/-! ## Names that are left behind -/

/-- The calls whose results are ignored do not fail. -/
def State.Unlinks (σ : State) : Event → Prop
  | .run index reply =>
    ∀ i ∈ σ.instances[index]?, i.stage.ignores = true → reply.isFailure = false
  | _ => True

instance (σ : State) : DecidablePred σ.Unlinks
  | .run index reply => inferInstanceAs (Decidable (∀ i ∈ σ.instances[index]?,
      i.stage.ignores = true → reply.isFailure = false))
  | .construct _ _ _ _ | .destroy _ | .exit _ => .isTrue trivial

/-- Every name belongs to an owner that is going to remove it, or could not because its process has
ended. -/
def State.NamesOwned (platform : Platform) (σ : State) : Prop :=
  ∀ name object, σ.system.names name = some object → ∃ i ∈ σ.instances, i.isOwner = true ∧
    platform.key i.name = name ∧ (i.stage.owes = true ∨ i.stage = .crashed)

section Names

variable {platform : Platform} {system system' : SharedObjects String} {i : Instance}
  {reply : Answer} {next : Stage} {σ σ' : State} {event : Event}

/-- A name that an object of the class leaves was there already, or is owed by that object. -/
theorem Moved.names (moved : Moved platform system i reply system' next) {name : String}
    {object : Nat} (named : system'.names name = some object) :
    (∃ old, system.names name = some old) ∧
        (i.stage.owes = true → i.isOwner = true → platform.key i.name = name →
          next.owes = true ∨ i.stage.ignores = true ∧ reply.isFailure = true) ∨
      (i.isOwner = true ∧ platform.key i.name = name ∧ next.owes = true) := by
  cases moved with
  | opened _ _ _ _ holds =>
    refine Or.inl ⟨⟨object, named⟩, fun _ _ _ => Or.inl ?_⟩
    rw [holds]
    cases i.isOwner <;> rfl
  | created owner _ _ _ holds =>
    have owes : next.owes = true := by
      rw [holds]
      cases platform.exclusive <;> rfl
    by_cases same : name = platform.key i.name
    · exact Or.inr ⟨owner, same.symm, owes⟩
    · refine Or.inl ⟨⟨object, ?_⟩, fun _ _ _ => Or.inl owes⟩
      exact (SharedObjects.create_other same).symm.trans named
  | cleared _ bare =>
    by_cases same : name = platform.key i.name
    · rw [same, SharedObjects.forget_self] at named
      cases named
    · rw [SharedObjects.forget_other same] at named
      refine Or.inl ⟨⟨object, named⟩, fun owes _ _ => ?_⟩
      rcases bare with here | here <;> rw [here] at owes <;> cases owes
  | removed =>
    by_cases same : name = platform.key i.name
    · rw [same, SharedObjects.forget_self] at named
      cases named
    · rw [SharedObjects.forget_other same] at named
      exact Or.inl ⟨⟨object, named⟩, fun _ _ own => absurd own.symm same⟩
  | closed =>
    refine Or.inl ⟨⟨object, named⟩, fun _ owner _ => Or.inl ?_⟩
    rw [Instance.closed, if_pos owner]
    rfl
  | resized | mapped | unmapped | skipped | entered =>
    exact Or.inl ⟨⟨object, named⟩, fun _ _ _ => Or.inl rfl⟩
  | quiet quiet =>
    refine Or.inl ⟨⟨object, named⟩, fun owes _ _ => ?_⟩
    rcases quiet.stays owes with still | ⟨ignores, _⟩
    · exact Or.inl still
    · exact Or.inr (quiet.fails (Or.inr ignores))

/-- Names stay owned as long as the calls whose results are ignored do not fail. -/
theorem State.NamesOwned.step (held : Held σ) (unlinks : σ.Unlinks event)
    (owned : σ.NamesOwned platform) (stepped : σ.step platform event = some σ') :
    σ'.NamesOwned platform := by
  intro name object named
  rcases State.step_cases held stepped with ⟨process, name', size, isOwner, _, rfl⟩ |
    ⟨index, i, reply, system, stage, event', ⟨found, going⟩, moved, rfl⟩ | ⟨process, _, rfl⟩
  · obtain ⟨i, inside, owner⟩ := owned name object named
    exact ⟨i, List.mem_append_left _ inside, owner⟩
  · have inside := (List.getElem?_eq_some_iff.mp found).1
    have there : { i with stage := stage } ∈ (σ.goes index i stage system).instances :=
      List.mem_iff_getElem?.mpr ⟨index, List.getElem?_set_self inside⟩
    rcases moved.names named with ⟨⟨old, before⟩, stays⟩ | ⟨owner, own, owes⟩
    · obtain ⟨j, member, owner, own, owing⟩ := owned name old before
      obtain ⟨other, present⟩ := List.mem_iff_getElem?.mp member
      by_cases same : other = index
      · rw [same, found] at present
        cases present
        rcases owing with owes | crashed
        · rcases stays owes owner own with still | ⟨ignores, failed⟩
          · exact ⟨_, there, owner, own, Or.inl still⟩
          · rcases event' with rfl | ⟨_, succeeded⟩
            · rw [unlinks i (Option.mem_def.mpr found) ignores] at failed
              cases failed
            · rw [succeeded] at failed
              cases failed
        · rw [crashed] at going
          cases going
      · refine ⟨j, List.mem_iff_getElem?.mpr ⟨other, ?_⟩, owner, own, owing⟩
        rw [State.goes, List.getElem?_set_ne (Ne.symm same), present]
    · exact ⟨_, there, owner, own, Or.inl owes⟩
  · obtain ⟨i, inside, owner, own, owing⟩ := owned name object named
    refine ⟨i.exit process, List.mem_map_of_mem inside, ?_⟩
    unfold Instance.exit
    split
    case isTrue =>
      refine ⟨owner, own, Or.inr ?_⟩
      rcases owing with owes | crashed
      · cases stage : i.stage <;> rw [stage] at owes <;> first | rfl | cases owes
      · simp only [crashed, Stage.exit]
    case isFalse => exact ⟨owner, own, owing⟩

end Names

/-- As long as the calls whose results are ignored do not fail, a name is in use only on behalf of
an owner that is still there or whose process has ended; so when all objects are destroyed or have
thrown, the operating system is as it was at first. -/
theorem names_owned {platform : Platform} {σ : State}
    (reached : ((system platform).under State.Unlinks).Reachable σ) :
    σ.NamesOwned platform ∧ ((∀ i ∈ σ.instances, ∃ thrown, i.stage = .ended thrown) →
      (∀ name, σ.system.names name = none) ∧
        ∀ key, σ.system.descriptors key = none ∧ σ.system.mappings key = none) := by
  have both : Held σ ∧ σ.NamesOwned platform := by
    apply reached.invariant
    · intro state initial
      have plain : (system platform).Reachable state := .start initial
      refine ⟨Held.reachable plain, ?_⟩
      intro name object named
      rw [initial.1] at named
      cases named
    · intro state event after _ before stepped
      obtain ⟨unlinks, taken⟩ := System.under_step.mp stepped
      exact ⟨before.1.step taken, before.2.step before.1 unlinks taken⟩
  obtain ⟨held, owned⟩ := both
  refine ⟨owned, fun ended => ⟨fun name => ?_, fun key => ?_⟩⟩
  · by_contra used
    obtain ⟨object, named⟩ := Option.ne_none_iff_exists'.mp used
    obtain ⟨i, inside, _, _, owing⟩ := owned name object named
    obtain ⟨thrown, ends⟩ := ended i inside
    rw [ends] at owing
    rcases owing with owes | crashed
    · cases owes
    · cases crashed
  · apply held.nothing_left
    intro i inside _
    obtain ⟨thrown, ends⟩ := ended i inside
    rw [ends]
    rfl

/-- An owner whose last call fails, after another object has opened the memory. -/
def thrownRun : List Event :=
  [.construct 1 "/memory" 4096 true, .run 0 (.succeeds 3), .construct 2 "/memory" 4096 false,
    .run 1 (.succeeds 5), .run 0 (.succeeds 0), .run 0 (.fails 12), .run 1 (.succeeds 65536),
    .run 0 (.succeeds 0), .run 0 (.succeeds 0), .destroy 1, .run 1 (.succeeds 0),
    .run 1 (.succeeds 0)]

theorem thrownRun_replays :
    (((system .linux).under State.Unlinks).replay ⟨.new, []⟩ thrownRun).isSome = true := by
  decide +kernel

/-- The operating system is as it was. -/
theorem names_owned_thrown :
    let thrown := (((system .linux).under State.Unlinks).replay ⟨.new, []⟩ thrownRun).get
      thrownRun_replays
    thrown.system.names "/memory" = none ∧ thrown.system.descriptors (2, 5) = none ∧
      thrown.system.mappings (2, 65536) = none := by
  intro thrown
  have initial : ((system .linux).under State.Unlinks).initial ⟨.new, []⟩ := ⟨rfl, rfl⟩
  have ended : thrown.instances.map Instance.stage =
      [.ended (some (.mmap (.other 12))), .ended none] := by
    decide +kernel
  obtain ⟨_, left⟩ := names_owned (System.Reachable.of_replay initial thrownRun_replays)
  obtain ⟨names, keys⟩ := left fun i inside => by
    have listed : i.stage ∈ thrown.instances.map Instance.stage := List.mem_map_of_mem inside
    rw [ended] at listed
    simp only [List.mem_cons, List.not_mem_nil, or_false] at listed
    rcases listed with same | same
    · exact ⟨_, same⟩
    · exact ⟨_, same⟩
  exact ⟨names _, (keys _).1, (keys _).2⟩

end Azul.Ipc.SharedMemory
