import Azul.Async.Idle

/-!
# One thread goes on

Every step of the runtime replaces the top of one stack. What comes in its place is what the
instruction on top schedules, the end of a callable, the code of a library call, or the code of a
component above.
-/

namespace Azul.Async

open Foundation

variable {V ε X : Type} {σ σ' : Config V ε X} {thread : Nat} {old new base : List (Instr V ε X)}

/-- A thread has replaced the top of its stack. -/
structure Replaced (σ σ' : Config V ε X) (thread : Nat)
    (old new base : List (Instr V ε X)) :
    Prop where
  found : σ.threads[thread]? = some (old ++ base)
  after : σ' = σ.update thread σ'.heap (new ++ base)

namespace Replaced

/-- What is pending changes like the stack, whose lower part stays. -/
theorem pending_below (replaced : Replaced σ σ' thread old new base) :
    ∃ rest : Multiset (Instr V ε X), (∀ x ∈ base, x ∈ rest) ∧
      σ.pending = (old : Multiset (Instr V ε X)) + rest ∧
      σ'.pending = (new : Multiset (Instr V ε X)) + rest := by
  obtain ⟨others, split, changed⟩ := Stacks.pending_split replaced.found
  refine ⟨(base : Multiset (Instr V ε X)) + others, ?_, ?_, ?_⟩
  · intro x inside
    exact Multiset.mem_add.mpr (Or.inl (Multiset.mem_coe.mpr inside))
  · rw [Config.pending, split, ← Multiset.coe_add, add_assoc]
  · rw [replaced.after]
    exact (changed (new ++ base)).trans (by rw [← Multiset.coe_add, add_assoc])

/-- What is pending changes like the stack. -/
theorem pending (replaced : Replaced σ σ' thread old new base) :
    ∃ rest : Multiset (Instr V ε X), σ.pending = (old : Multiset (Instr V ε X)) + rest ∧
      σ'.pending = (new : Multiset (Instr V ε X)) + rest := by
  obtain ⟨rest, _, split⟩ := replaced.pending_below
  exact ⟨rest, split⟩

/-- The stacks after the step. -/
theorem threads (replaced : Replaced σ σ' thread old new base) (other : Nat) :
    σ'.threads[other]? = if thread = other then some (new ++ base) else σ.threads[other]? := by
  have bound := (List.getElem?_eq_some_iff.mp replaced.found).1
  rw [replaced.after]
  change (σ.threads.set thread (new ++ base))[other]? = _
  rw [List.getElem?_set]
  simp [bound]

/-- A stack after the step is the changed one or an old one. -/
theorem stack (replaced : Replaced σ σ' thread old new base) {stack : List (Instr V ε X)}
    (member : stack ∈ σ'.threads) : stack = new ++ base ∨ stack ∈ σ.threads := by
  rw [replaced.after] at member
  exact (List.mem_or_eq_of_mem_set member).symm

/-- What the stacks need stays met when one of them goes on. -/
theorem nested {needs needs' : Instr V ε X → (Instr V ε X → Prop) → Prop}
    (replaced : Replaced σ σ' thread old new base)
    (met : ∀ stack ∈ σ.threads, Stacks.Nested needs stack)
    (kept : ∀ x ∈ σ.pending, ∀ below : Instr V ε X → Prop, (∀ y, below y → y ∈ σ.pending) →
      needs x below → needs' x below)
    (fresh : Stacks.Nested needs' base → Stacks.Nested needs' (new ++ base)) :
    ∀ stack ∈ σ'.threads, Stacks.Nested needs' stack := by
  have still {stack : List (Instr V ε X)} (member : stack ∈ σ.threads) :
      Stacks.Nested needs' stack :=
    (met stack member).mono fun x inside below limit =>
      kept x (Stacks.mem_pending.mpr ⟨stack, member, inside⟩) below
        fun y held => Stacks.mem_pending.mpr ⟨stack, member, limit y held⟩
  intro stack member
  cases replaced.stack member with
  | inl same =>
    rw [same]
    exact fresh (still (List.mem_of_getElem? replaced.found)).suffix
  | inr old => exact still old

end Replaced

/-- Why a thread replaces the top of its stack. -/
inductive Cause (h : Heap V ε) : Heap V ε → List (Instr V ε X) → List (Instr V ε X) → Prop
  /-- It executes the instruction on top. -/
  | executes {x h' new} (executed : execute h x = some (h', new)) : Cause h h' [x] new
  /-- A callable returns a value. -/
  | returns {d value} (fits : Result.fits (h.isVoid d) (.ok value : Result V ε) = true) :
    Cause h (h.receive d (.ok value)) [.inCallable d] [.resolve d value]
  /-- A callable throws. -/
  | throws {d error} :
    Cause h (h.receive d (.error error)) [.inCallable d] [.setException d error]
  /-- The program calls the library. -/
  | calls {api h' new} (begun : h.begin api = some (h', new)) : Cause h h' [] new
  /-- The program goes on to a component above. -/
  | enters (code : List X) : Cause h h [] (code.map .external)
  /-- A component above goes on. -/
  | leaves (x : X) (code : List X) : Cause h h [.external x] (code.map .external)

/-- A step of the runtime is one of these. -/
theorem step_cause {event : Event V ε X} (stepped : σ.step event = some σ') :
    ∃ thread old new base, Replaced σ σ' thread old new base ∧ Cause σ.heap σ'.heap old new := by
  cases event with
  | run thread =>
    simp only [Config.step] at stepped
    split at stepped
    case h_1 x rest found =>
      obtain ⟨⟨heap, new⟩, executed, same⟩ := Option.map_eq_some_iff.mp stepped
      cases same
      exact ⟨thread, [x], new, rest, ⟨found, rfl⟩, .executes executed⟩
    case h_2 => cases stepped
  | ret thread result =>
    simp only [Config.step] at stepped
    split at stepped
    case h_1 d rest found =>
      obtain ⟨fits, same⟩ := Option.ite_none_right_eq_some.mp stepped
      cases same
      cases result with
      | ok value => exact ⟨thread, _, [.resolve d value], rest, ⟨found, rfl⟩, .returns fits⟩
      | error error => exact ⟨thread, _, [.setException d error], rest, ⟨found, rfl⟩, .throws⟩
    case h_2 => cases stepped
  | call thread api =>
    simp only [Config.step] at stepped
    split at stepped
    case h_1 stack found =>
      obtain ⟨-, same⟩ := Option.ite_none_right_eq_some.mp stepped
      obtain ⟨⟨heap, new⟩, begun, same⟩ := Option.map_eq_some_iff.mp same
      cases same
      exact ⟨thread, [], new, stack, ⟨found, rfl⟩, .calls begun⟩
    case h_2 => cases stepped
  | enter thread leave code =>
    simp only [Config.step] at stepped
    split at stepped
    case h_1 x rest found =>
      cases stepped
      exact ⟨thread, [.external x], _, rest, ⟨found, rfl⟩, .leaves x code⟩
    case h_2 stack found =>
      obtain ⟨-, same⟩ := Option.ite_none_right_eq_some.mp stepped
      cases same
      exact ⟨thread, [], _, stack, ⟨found, rfl⟩, .enters code⟩
    case h_3 => cases stepped

/-! ## Code of the library -/

/-- An instruction of the library schedules nothing but the library's. -/
theorem execute_internal {h h' : Heap V ε} {x : Instr V ε X}
    (executed : execute h x = some (h', new)) : ∀ y ∈ new, y.isExternal = false := by
  cases x with
  | setValue | resolve | walk | clear | invoke =>
    simp only [execute] at executed
    split at executed <;> cases executed <;> simp [Instr.isExternal]
  | setException | aboutToDestroyPromise =>
    cases executed
    simp [Instr.isExternal]
  | destroyClosure d copy =>
    cases executed
    intro y inside
    cases mem_dropped inside with
    | inl breaking =>
      rw [breaking.2]
      rfl
    | inr released =>
      obtain ⟨_, _, _, same⟩ := released
      rw [same]
      rfl
  | thenFunc s callable =>
    cases executed
    simp [Instr.thenCode, Instr.isExternal]
  | registerThen d =>
    simp only [execute] at executed
    split at executed
    case h_1 => split at executed <;> cases executed <;> simp [Instr.isExternal]
    case h_2 => cases executed
  | releaseActivator all owner =>
    cases executed
    split <;> simp [Instr.isExternal]
  | inCallable | external => cases executed

/-- A call of the library is code of the library. -/
theorem begin_internal {h h' : Heap V ε} {api : Api V ε} (begun : h.begin api = some (h', new)) :
    ∀ y ∈ new, y.isExternal = false := by
  cases api with
  | newPromise isVoid =>
    cases begun
    simp
  | complete s result =>
    obtain ⟨-, made⟩ := Option.ite_none_right_eq_some.mp begun
    cases result <;> cases made <;> simp [Instr.isExternal]
  | destroyPromise s =>
    obtain ⟨-, made⟩ := Option.ite_none_right_eq_some.mp begun
    cases made
    simp [Instr.isExternal]
  | «then» s isVoid =>
    obtain ⟨-, made⟩ := Option.ite_none_right_eq_some.mp begun
    cases made
    simp [Instr.thenCode, Instr.isExternal]
  | whenAll inputs =>
    obtain ⟨-, made⟩ := Option.ite_none_right_eq_some.mp begun
    cases made
    intro y inside
    cases List.mem_append.mp inside with
    | inl registers =>
      obtain ⟨s, _, same⟩ := List.mem_map.mp registers
      rw [← same]
      rfl
    | inr releases =>
      simp only [List.mem_cons, List.not_mem_nil, or_false] at releases
      cases releases with
      | inl same | inr same =>
        rw [same]
        rfl
  | whenAny inputs =>
    obtain ⟨-, made⟩ := Option.ite_none_right_eq_some.mp begun
    cases made
    intro y inside
    obtain ⟨s, _, same⟩ := List.mem_map.mp inside
    rw [← same]
    rfl

/-- A call of the library decides nothing before its first critical section. -/
theorem begin_cell {h h' : Heap V ε} {api : Api V ε} (begun : h.begin api = some (h', new)) :
    h'.cell = h.cell := by
  cases api with
  | newPromise isVoid =>
    cases begun
    rfl
  | complete | destroyPromise | «then» | whenAll | whenAny =>
    obtain ⟨-, made⟩ := Option.ite_none_right_eq_some.mp begun
    cases made
    rfl

end Azul.Async
