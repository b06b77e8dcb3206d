import Azul.Async.HarmlessCode

/-!
# Closures that have done their work

A closure that a list holds is called by a walk over the list, and everything that its call does is
on the stack above that walk. So when nobody completes a state any more, the closures that are
stored in it have returned and their futures are completed, by calls that are over as well: what is
stored below a state that was walked is settled, to any depth. Destroying settled closures calls
nothing, decides nothing and releases no activator for the last time, whatever the callables are
that go with them.
-/

namespace Azul.Async

open Foundation

variable {V ε X : Type} {h h' : Heap V ε} {P : Multiset (Instr V ε X)} {x : Instr V ε X}
  {old new base : List (Instr V ε X)} {σ σ' : Config V ε X} {d s : StateId}

/-! ## Who runs a stored closure -/

/-- The instruction belongs to a call of the closure that derives a state. -/
def Instr.runs (d : StateId) : Instr V ε X → Bool
  | .invoke e _ | .inCallable e | .resolve e _ | .setException e _ | .walk e _ => e == d
  | _ => false

/-- It does so above a walk over the list that holds the closure, if a list does. -/
def Heap.runNeeds (h : Heap V ε) (x : Instr V ε X) (below : Instr V ε X → Prop) : Prop :=
  ∀ d s callable, x.runs d = true → h.origin d = some (.derived s callable) →
    h.appended d = true → ∃ index, below (.walk s index)

theorem Heap.runNeeds_grow (x : Instr V ε X) (below wider : Instr V ε X → Prop)
    (wide : ∀ y, below y → wider y) (needs : h.runNeeds x below) : h.runNeeds x wider := by
  intro d s callable runs made stored
  obtain ⟨index, walks⟩ := needs d s callable runs made stored
  exact ⟨index, wide _ walks⟩

/-- An instruction of a closure's call comes from one of the same call, or from the walk, unless no
list holds the closure. -/
theorem execute_runs (inv : Inv h P) (inside : x ∈ P) (executed : execute h x = some (h', new))
    {before after : List (Instr V ε X)} {y : Instr V ε X} (split : new = before ++ y :: after)
    {callable : Callable} (runs : y.runs d = true)
    (made : h.origin d = some (.derived s callable)) (stored : h.appended d = true) :
    x.runs d = true ∨ ∃ index, .walk s index ∈ after := by
  have typed := inv.layout.typed x inside
  have member : y ∈ new := by
    rw [split]
    exact List.mem_append_right _ List.mem_cons_self
  have only {z : Instr V ε X} (one : new = [z]) : y = z := by
    rw [one] at member
    exact List.mem_singleton.mp member
  cases x with
  | setValue t value =>
    have other : t ≠ d := fun clash => typed.2.2 (clash ▸ ⟨s, callable, made⟩)
    simp only [execute] at executed
    split at executed
    all_goals cases executed
    · cases member
    · cases member
    · rw [only rfl] at runs
      exact absurd (eq_of_beq runs) other
  | resolve t value =>
    simp only [execute] at executed
    split at executed
    all_goals cases executed
    · rw [only rfl] at runs
      exact Or.inl runs
    · cases member
    · rw [only rfl] at runs
      exact Or.inl runs
  | setException t error =>
    cases executed
    rw [only rfl] at runs
    exact Or.inl runs
  | walk t index =>
    simp only [execute] at executed
    split at executed
    case h_1 =>
      cases executed
      cases member
    case h_2 e found =>
      cases executed
      cases before with
      | nil =>
        obtain ⟨top, rest⟩ := List.cons.inj split
        have is : e = d := by
          rw [← top] at runs
          exact eq_of_beq runs
        obtain ⟨_, origin⟩ := (inv.layout.listed t e (List.mem_of_getElem? found)).2
        rw [is, made] at origin
        cases origin
        exact Or.inr ⟨index + 1, rest ▸ List.mem_cons_self⟩
      | cons first before =>
        have later := (List.cons.inj split).2
        have again : y = .walk t (index + 1) := by
          have one : y ∈ [Instr.walk t (index + 1)] := by
            rw [later]
            exact List.mem_append_right _ List.mem_cons_self
          exact List.mem_singleton.mp one
        rw [again] at runs
        exact Or.inl runs
  | aboutToDestroyPromise t =>
    cases executed
    rw [only rfl] at runs
    cases runs
  | clear t =>
    simp only [execute] at executed
    split at executed
    all_goals cases executed
    · cases member
    · simp only [List.mem_cons, List.not_mem_nil, or_false] at member
      rcases member with is | is <;> rw [is] at runs <;> cases runs
  | invoke e copy =>
    obtain ⟨t, func, origin⟩ := typed.2
    simp only [execute, origin] at executed
    cases func with
    | user =>
      cases executed
      rw [only rfl] at runs
      exact Or.inl runs
    | release all | fire any =>
      cases executed
      simp only [List.mem_cons, List.not_mem_nil, or_false] at member
      rcases member with is | is
      · rw [is] at runs
        cases runs
      · rw [is] at runs
        exact Or.inl runs
  | destroyClosure e copy =>
    cases executed
    rcases mem_dropped member with ⟨-, is⟩ | ⟨_, _, -, is⟩ <;> rw [is] at runs <;> cases runs
  | thenFunc t func =>
    cases executed
    simp only [Instr.thenCode, List.mem_cons, List.not_mem_nil, or_false] at member
    rcases member with is | is | is <;> rw [is] at runs <;> cases runs
  | registerThen e =>
    simp only [execute] at executed
    split at executed
    case h_1 t func origin =>
      split at executed
      all_goals cases executed
      · rw [only rfl] at runs
        have is : e = d := eq_of_beq runs
        have none := (inv.counts.stored d s callable made stored).2.2
        have one := Stacks.count_eq_zero.mp none _ inside
        rw [is] at one
        exact absurd (beq_self_eq_true d) (Bool.eq_false_iff.mp one)
      · cases member
    case h_2 => cases executed
  | releaseActivator all owner =>
    cases executed
    split at member
    · rw [List.mem_singleton.mp member] at runs
      cases runs
    · cases member
  | inCallable | external => cases executed

/-- No call of the program begins inside the call of a closure. -/
theorem begin_runs {api : Api V ε} (begun : h.begin api = some (h', new)) (inside : x ∈ new)
    (runs : x.runs d = true) : h.origin d = some .promise := by
  cases api with
  | newPromise isVoid =>
    cases begun
    cases inside
  | complete t result =>
    obtain ⟨⟨origin, _⟩, made⟩ := Option.ite_none_right_eq_some.mp begun
    cases result with
    | ok value =>
      cases made
      rw [List.mem_singleton.mp inside] at runs
      cases runs
    | error error =>
      cases made
      rw [List.mem_singleton.mp inside] at runs
      rw [← eq_of_beq runs]
      exact origin
  | destroyPromise t =>
    obtain ⟨_, made⟩ := Option.ite_none_right_eq_some.mp begun
    cases made
    rw [List.mem_singleton.mp inside] at runs
    cases runs
  | «then» t isVoid =>
    obtain ⟨_, made⟩ := Option.ite_none_right_eq_some.mp begun
    cases made
    simp only [Instr.thenCode, List.mem_cons, List.not_mem_nil, or_false] at inside
    rcases inside with is | is | is <;> rw [is] at runs <;> cases runs
  | whenAll inputs =>
    obtain ⟨_, made⟩ := Option.ite_none_right_eq_some.mp begun
    cases made
    simp only [List.mem_append, List.mem_map, List.mem_cons, List.not_mem_nil, or_false] at inside
    rcases inside with ⟨_, _, is⟩ | is | is
    · rw [← is] at runs
      cases runs
    · rw [is] at runs
      cases runs
    · rw [is] at runs
      cases runs
  | whenAny inputs =>
    obtain ⟨_, made⟩ := Option.ite_none_right_eq_some.mp begun
    cases made
    obtain ⟨_, _, is⟩ := List.mem_map.mp inside
    rw [← is] at runs
    cases runs

/-- Only `FutureState::Then` stores a closure. -/
theorem execute_stores (executed : execute h x = some (h', new)) (before : h.appended d = false)
    (after : h'.appended d = true) : x = .registerThen d ∧ new = [] := by
  have unchanged (same : h'.appended = h.appended) : x = .registerThen d ∧ new = [] := by
    rw [same, before] at after
    cases after
  cases x with
  | setValue | resolve | walk | clear | invoke =>
    simp only [execute] at executed
    split at executed <;> cases executed <;> exact unchanged rfl
  | setException | aboutToDestroyPromise | destroyClosure | thenFunc | releaseActivator =>
    cases executed
    exact unchanged rfl
  | registerThen e =>
    simp only [execute] at executed
    split at executed
    case h_1 t callable origin =>
      split at executed
      all_goals cases executed
      · exact unchanged rfl
      · have is : d = e := by
          by_contra other
          change Function.update h.appended e true d = true at after
          rw [Function.update_of_ne other, before] at after
          cases after
        rw [is]
        exact ⟨rfl, rfl⟩
    case h_2 => cases executed
  | inCallable | external => cases executed

/-- Whatever stores a closure is `FutureState::Then`. -/
theorem Cause.stores (cause : Cause h h' old new) (before : h.appended d = false)
    (after : h'.appended d = true) : old = [.registerThen d] ∧ new = [] := by
  have unchanged (same : h'.appended = h.appended) : old = [.registerThen d] ∧ new = [] := by
    rw [same, before] at after
    cases after
  cases cause with
  | executes executed =>
    obtain ⟨is, none⟩ := execute_stores executed before after
    exact ⟨by rw [is], none⟩
  | @calls api heap new begun =>
    apply unchanged
    cases api with
    | newPromise isVoid =>
      cases begun
      rfl
    | complete | destroyPromise | «then» | whenAll | whenAny =>
      obtain ⟨-, made⟩ := Option.ite_none_right_eq_some.mp begun
      cases made
      rfl
  | returns | throws | enters | leaves => exact unchanged rfl

/-- Nobody calls a closure that is about to be stored. -/
theorem Inv.unrun (inv : Inv h P) (registers : .registerThen d ∈ P) :
    ∀ x ∈ P, x.runs d = false := by
  obtain ⟨s, callable, made⟩ := inv.layout.typed _ registers
  have pending : 0 < Stacks.count P (Instr.isRegister d) :=
    Stacks.count_pos.mpr ⟨_, registers, beq_self_eq_true d⟩
  have unstored : h.appended d = false := by
    by_contra stored
    have none := (inv.counts.stored d s callable made (by simpa using stored)).2.2
    omega
  obtain ⟨once, unlisted, _⟩ := inv.counts.inline d s callable made unstored
  have uncalled : h.invocations d = 0 ∧ Stacks.count P (Instr.isInvoke d .argument) = 0 := by omega
  have returned := inv.decisions.returned d ⟨s, callable, made⟩
  have received := inv.decisions.receivedLe d (Or.inr ⟨s, callable, made⟩)
  rw [uncalled.1] at returned
  have calm : Stacks.count P (Instr.isInCallable d) = 0 ∧
      Stacks.count P (Instr.decidesOn d) = 0 ∧ h.walks d = 0 := by omega
  have absent {p : Instr V ε X → Bool} (none : Stacks.count P p = 0) {y : Instr V ε X}
      (inside : y ∈ P) : p y = false := Stacks.count_eq_zero.mp none y inside
  intro x inside
  cases x with
  | invoke e copy =>
    have typed := inv.layout.typed _ inside
    cases copy with
    | lambda => exact absurd rfl typed.1
    | argument | listed =>
      have other : (e == d && true) = false := by
        first
        | exact absent uncalled.2 inside
        | exact absent unlisted inside
      rw [Bool.and_true] at other
      exact other
  | inCallable e => exact absent calm.1 inside
  | resolve e value | setException e error => exact absent calm.2.1 inside
  | walk e index =>
    cases is : (Instr.walk e index : Instr V ε X).runs d with
    | false => rfl
    | true =>
      have walked := inv.decisions.walking e index inside
      rw [eq_of_beq is, calm.2.2] at walked
      exact absurd walked (Nat.lt_irrefl 0)
  | _ => rfl

/-- Whatever comes on a stack runs above the walk that it needs. -/
theorem Cause.runNested (inv : Inv h P) (pending : ∀ x ∈ old, x ∈ P) (extended : h.Extends h')
    (cause : Cause h h' old new) (needs : ∀ x ∈ old, h.runNeeds x (· ∈ base))
    (nested : Stacks.Nested h'.runNeeds base) :
    Stacks.Nested h'.runNeeds (new ++ base) := by
  apply nested.append_split
  intro before y after split below all d s callable runs made stored
  have member : y ∈ new := by
    rw [split]
    exact List.mem_append_right _ List.mem_cons_self
  have was : h.appended d = true := by
    by_contra fresh
    obtain ⟨-, none⟩ := cause.stores (by simpa using fresh) stored
    rw [none] at member
    cases member
  have old' : d < h.next := by
    by_contra beyond
    rw [(inv.layout.blank d (Nat.le_of_not_lt beyond)).appended] at was
    cases was
  have origin : h.origin d = some (.derived s callable) := by
    rw [← extended.origin d old']
    exact made
  have inherited {x : Instr V ε X} (inside : x ∈ old) (same : x.runs d = true) :
      ∃ index, below (.walk s index) := by
    obtain ⟨index, walks⟩ := needs x inside d s callable same origin was
    exact ⟨index, all _ (List.mem_append_right after walks)⟩
  cases cause with
  | @executes x heap _ executed =>
    cases execute_runs inv (pending x List.mem_cons_self) executed split runs origin was with
    | inl same => exact inherited List.mem_cons_self same
    | inr walks =>
      obtain ⟨index, walks⟩ := walks
      exact ⟨index, all _ (List.mem_append_left base walks)⟩
  | returns | throws =>
    rw [List.mem_singleton.mp member] at runs
    exact inherited List.mem_cons_self runs
  | calls begun =>
    have promise := begin_runs begun member runs
    rw [origin] at promise
    cases promise
  | enters code | leaves _ code =>
    obtain ⟨_, _, same⟩ := List.mem_map.mp member
    rw [← same] at runs
    cases runs

/-- In every reachable configuration, the calls of stored closures are above the walks that make
them. -/
theorem runNested (reached : (runtime V ε X).Reachable σ) :
    ∀ stack ∈ σ.threads, Stacks.Nested σ.heap.runNeeds stack := by
  apply reached.invariant
  · intro σ initial stack member
    obtain ⟨count, same⟩ := initial
    rw [same] at member
    rw [List.eq_of_mem_replicate member]
    trivial
  · intro σ event σ' reached met stepped
    have ok := Config.ok reached
    obtain ⟨disciplined, stepped⟩ := System.under_step.mp stepped
    have extended := (ok.step_extends disciplined stepped).1
    obtain ⟨thread, old, new, base, replaced, cause⟩ := step_cause stepped
    have pending : ∀ x ∈ old, x ∈ σ.pending := fun x inside =>
      Stacks.mem_pending.mpr ⟨_, List.mem_of_getElem? replaced.found,
        List.mem_append_left base inside⟩
    have top (x : Instr V ε X) (inside : x ∈ old) : σ.heap.runNeeds x (· ∈ base) := by
      have here := met _ (List.mem_of_getElem? replaced.found)
      have single := cause.single
      cases old with
      | nil => cases inside
      | cons y rest =>
        have none : rest = [] := List.eq_nil_of_length_eq_zero (by simpa using single)
        rw [none] at here inside
        rw [List.mem_singleton.mp inside]
        exact here.1
    apply replaced.nested met
    · intro x inside below limit needs d s callable runs made stored
      have was : σ.heap.appended d = true := by
        by_contra fresh
        obtain ⟨registers, -⟩ := cause.stores (by simpa using fresh) stored
        have idle := ok.inv.unrun (pending (.registerThen d) (registers ▸ List.mem_cons_self)) x
          inside
        rw [idle] at runs
        cases runs
      have bound : d < σ.heap.next := by
        by_contra beyond
        rw [(ok.inv.layout.blank d (Nat.le_of_not_lt beyond)).appended] at was
        cases was
      exact needs d s callable runs ((extended.origin d bound).symm.trans made) was
    · exact cause.runNested ok.inv pending extended top

/-! ## What is over -/

/-- A closure is stored at a state or below it. -/
inductive Heap.Stores (h : Heap V ε) (s : StateId) : StateId → Prop
  | listed {d : StateId} (inside : d ∈ (h.cell s).continuations) : Stores h s d
  | deeper {d e : StateId} (stores : Stores h s d) (inside : e ∈ (h.cell d).continuations) :
    Stores h s e

/-- A stored closure has done its work: its future is decided, and its stored copy has released what
it captured of an activator. -/
def Heap.Done (h : Heap V ε) (d : StateId) : Prop :=
  h.appended d = true ∧ h.Decided d ∧ ∀ all, .closure d .listed ∉ h.owners all

/-- The state is decided, and all closures at it and below have done their work. -/
def Heap.Settled (h : Heap V ε) (s : StateId) : Prop :=
  h.Decided s ∧ ∀ d, h.Stores s d → h.Done d

/-- The completing calls of a state are over, and its promise is there. -/
structure Config.Over (σ : Config V ε X) (s : StateId) : Prop where
  kept : ¬ σ.heap.Retired s
  ended : ∀ x ∈ σ.pending, x.completes s = false
  walked : 0 < σ.heap.walks s

/-- When the calls of a state are over, nobody runs the closures it stores. -/
theorem Config.Over.idle (past : σ.Over s) (reached : (runtime V ε X).Reachable σ)
    (inside : d ∈ (σ.heap.cell s).continuations) : ∀ x ∈ σ.pending, x.runs d = false := by
  obtain ⟨stored, callable, made⟩ := (Config.ok reached).inv.layout.listed s d inside
  intro x pending
  cases runs : x.runs d with
  | false => rfl
  | true =>
    obtain ⟨stack, member, held⟩ := Stacks.mem_pending.mp pending
    obtain ⟨index, walks⟩ := (runNested reached stack member).needs Heap.runNeeds_grow held d s
      callable runs made stored
    have quiet := past.ended _ (Stacks.mem_pending.mpr ⟨stack, member, walks⟩)
    exact absurd (beq_self_eq_true s) (Bool.eq_false_iff.mp quiet)

/-- Each of its walks has called them, and every call has returned. -/
theorem Config.Over.called (past : σ.Over s) (reached : (runtime V ε X).Reachable σ)
    (inside : d ∈ (σ.heap.cell s).continuations) :
    σ.heap.invocations d = σ.heap.walks s ∧
      (σ.heap.received d).length = σ.heap.walks s := by
  have inv := (Config.ok reached).inv
  obtain ⟨stored, callable, made⟩ := inv.layout.listed s d inside
  have idle := past.idle reached inside
  have uncalled : Stacks.count σ.pending (Instr.isInvoke d .listed) = 0 := by
    apply count_absent idle
    intro x is
    cases x with
    | invoke e copy => exact (Bool.and_eq_true_iff.mp is).1
    | _ => cases is
  have outside : Stacks.count σ.pending (Instr.isInCallable d) = 0 := by
    apply count_absent idle
    intro x is
    cases x with
    | inCallable e => exact is
    | _ => cases is
  have unwalked : Stacks.count σ.pending
      (Instr.walksTo s ((σ.heap.cell s).continuations.idxOf d)) = 0 := by
    apply count_absent past.ended
    intro x is
    cases x with
    | walk t i => exact (Bool.and_eq_true_iff.mp is).1
    | _ => cases is
  have called := (inv.counts.stored d s callable made stored).1
  have returned := inv.decisions.returned d ⟨s, callable, made⟩
  omega

/-- When the calls of a state are over, so are the calls of the closures it stores. -/
theorem Config.Over.listed (past : σ.Over s) (reached : (runtime V ε X).Reachable σ)
    (inside : d ∈ (σ.heap.cell s).continuations) : σ.heap.Done d ∧ σ.Over d := by
  have inv := (Config.ok reached).inv
  obtain ⟨stored, callable, made⟩ := inv.layout.listed s d inside
  have alone := unhandled reached past.kept past.ended made
  have idle := past.idle reached inside
  obtain ⟨called, received⟩ := past.called reached inside
  have derived : σ.heap.Derived d := ⟨s, callable, made⟩
  have ended : ∀ x ∈ σ.pending, x.completes d = false := by
    intro x pending
    cases x with
    | setValue t value =>
      have typed := inv.layout.typed _ pending
      change (t == d) = false
      apply Bool.eq_false_iff.mpr
      intro same
      rw [eq_of_beq same] at typed
      exact typed.2.2 derived
    | resolve | setException | walk => exact idle _ pending
    | _ => rfl
  have undeciding : Stacks.count σ.pending (Instr.decidesOn d) = 0 := by
    apply count_absent ended
    intro x is
    cases x with
    | setValue | resolve | setException => exact is
    | _ => cases is
  have given : σ.heap.received d ≠ [] := by
    intro none
    rw [none, List.length_nil] at received
    have walked := past.walked
    omega
  have walked := inv.decisions.receivedGe d (Or.inr derived) given
  rw [undeciding, Nat.zero_add] at walked
  refine ⟨⟨stored, (inv.walked_iff.mp walked).1, ?_⟩, ?_, ended, walked⟩
  · intro all owned
    cases (inv.activators.uncalled all d owned).2 with
    | inl never =>
      have walks := past.walked
      omega
    | inr releases => exact alone _ releases rfl
  · intro retired
    have gone := (Heap.retired_derived made).mp retired
    have live := inv.counts.listed_live made inside
    rw [gone] at live
    exact absurd live (Finset.notMem_empty _)

/-- A state that was completed once, and all closures below it, are walked once. -/
theorem Config.Over.once (past : σ.Over s) (reached : (runtime V ε X).Reachable σ)
    (single : σ.heap.walks s = 1) (stores : σ.heap.Stores s d) :
    σ.heap.invocations d = 1 ∧ (∀ x ∈ σ.pending, x.runs d = false) ∧ σ.heap.walks d = 1 ∧
      σ.Over d := by
  have inv := (Config.ok reached).inv
  have next {t e : StateId} (above : σ.Over t) (walked : σ.heap.walks t = 1)
      (inside : e ∈ (σ.heap.cell t).continuations) :
      σ.heap.invocations e = 1 ∧ (∀ x ∈ σ.pending, x.runs e = false) ∧ σ.heap.walks e = 1 ∧
        σ.Over e := by
    obtain ⟨called, received⟩ := above.called reached inside
    obtain ⟨-, below⟩ := above.listed reached inside
    obtain ⟨-, callable, made⟩ := inv.layout.listed t e inside
    have most := inv.decisions.receivedLe e (Or.inr ⟨t, callable, made⟩)
    have least := below.walked
    rw [walked] at called received
    exact ⟨called, above.idle reached inside, by omega, below⟩
  induction stores with
  | listed inside => exact next past single inside
  | deeper _ inside ih => exact next ih.2.2.2 ih.2.2.1 inside

/-- When the calls of a state are over, everything that is stored below it has done its work. -/
theorem Config.Over.settled (past : σ.Over s) (reached : (runtime V ε X).Reachable σ) :
    σ.heap.Settled s := by
  have below (d : StateId) (stores : σ.heap.Stores s d) : σ.heap.Done d ∧ σ.Over d := by
    induction stores with
    | listed inside => exact past.listed reached inside
    | deeper _ inside ih => exact ih.2.listed reached inside
  exact ⟨((Config.ok reached).inv.walked_iff.mp past.walked).1, fun d stores => (below d stores).1⟩

theorem Heap.Done.kept (done : h.Done d) (later : h.Later h') (settles : h.Settles h') :
    h'.Done d := by
  obtain ⟨stored, decided, released⟩ := done
  exact ⟨settles.appended d stored, later.decided d decided,
    fun all again => released all (settles.owners all d stored again)⟩

/-- What is settled stays settled. -/
theorem Heap.Settled.kept (settled : h.Settled s) (later : h.Later h') (settles : h.Settles h') :
    h'.Settled s := by
  obtain ⟨decided, done⟩ := settled
  have old (d : StateId) (stores : h'.Stores s d) : h.Stores s d := by
    induction stores with
    | listed inside => exact .listed (settles.listed s decided _ inside)
    | deeper _ inside ih => exact .deeper ih (settles.listed _ (done _ ih).2.1 _ inside)
  exact ⟨later.decided s decided, fun d stores => (done d (old d stores)).kept later settles⟩

/-- What is stored below a settled state is settled. -/
theorem Heap.Settled.listed (settled : h.Settled s) (inside : d ∈ (h.cell s).continuations) :
    h.Done d ∧ h.Settled d := by
  have first : h.Stores s d := .listed inside
  have through (e : StateId) (stores : h.Stores d e) : h.Stores s e := by
    induction stores with
    | listed inside => exact .deeper first inside
    | deeper _ inside ih => exact .deeper ih inside
  exact ⟨settled.2 d first, (settled.2 d first).2.1, fun e stores => settled.2 e (through e stores)⟩

/-! ## Destroying settled closures -/

/-- The instruction destroys settled closures. -/
def Instr.Tidies (h : Heap V ε) : Instr V ε X → Prop
  | .aboutToDestroyPromise s | .clear s => h.Settled s
  | .destroyClosure d copy => copy = .listed ∧ h.Done d ∧ h.Settled d
  | .releaseActivator all owner =>
    ∃ d, owner = .closure d .listed ∧ h.appended d = true ∧ owner ∉ h.owners all
  | _ => False

theorem Instr.Tidies.kept (tidies : x.Tidies h) (later : h.Later h') (settles : h.Settles h') :
    x.Tidies h' := by
  cases x with
  | aboutToDestroyPromise s | clear s => exact Heap.Settled.kept tidies later settles
  | destroyClosure d copy =>
    exact ⟨tidies.1, tidies.2.1.kept later settles, tidies.2.2.kept later settles⟩
  | releaseActivator all owner =>
    obtain ⟨d, same, stored, gone⟩ := tidies
    refine ⟨d, same, settles.appended d stored, ?_⟩
    rw [same] at gone ⊢
    exact fun again => gone (settles.owners all d stored again)
  | _ => exact tidies

/-- Destroying settled closures is followed by nothing else. -/
theorem execute_tidies (executed : execute h x = some (h', new)) (tidies : x.Tidies h)
    (later : h.Later h') (settles : h.Settles h') : ∀ y ∈ new, y.Tidies h' := by
  cases x with
  | aboutToDestroyPromise s =>
    have next : h'.Settled s := Heap.Settled.kept tidies later settles
    cases executed
    intro y inside
    rw [List.mem_singleton.mp inside]
    exact next
  | clear s =>
    have next : h'.Settled s := Heap.Settled.kept tidies later settles
    simp only [execute] at executed
    split at executed
    case h_1 =>
      cases executed
      exact fun y inside => absurd inside List.not_mem_nil
    case h_2 d rest found =>
      have listed : d ∈ (h.cell s).continuations := found ▸ List.mem_cons_self
      obtain ⟨done, settled⟩ := Heap.Settled.listed tidies listed
      cases executed
      intro y inside
      simp only [List.mem_cons, List.not_mem_nil, or_false] at inside
      cases inside with
      | inl destroys =>
        rw [destroys]
        exact ⟨rfl, done.kept later settles, settled.kept later settles⟩
      | inr again =>
        rw [again]
        exact next
  | destroyClosure d copy =>
    obtain ⟨listed, done, settled⟩ := tidies
    have next : h'.Settled d := settled.kept later settles
    have still := done.kept later settles
    cases executed
    intro y inside
    rcases mem_dropped inside with ⟨-, same⟩ | ⟨_, all, -, same⟩
    · rw [same]
      exact next
    · rw [same, listed]
      exact ⟨d, rfl, still.1, still.2.2 all⟩
  | releaseActivator all owner =>
    obtain ⟨_, _, _, gone⟩ := tidies
    cases executed
    intro y inside
    split at inside
    case isTrue last => exact absurd last.1 gone
    case isFalse => cases inside
  | _ => exact tidies.elim

/-! ## Completion -/

/-- A promise was completed once, exists, and no completing call of it is in progress: then every
closure that is stored at its state, or at any depth below, was called exactly once and is running
no longer, and its future is decided. -/
theorem completion_spreads (reached : (runtime V ε X).Reachable σ)
    (promise : σ.heap.origin s = some .promise) (alive : σ.heap.destroyed s = false)
    {result : Result V ε} (completed : σ.heap.received s = [result])
    (ended : ∀ x ∈ σ.pending, x.completes s = false) (stores : σ.heap.Stores s d) :
    σ.heap.invocations d = 1 ∧ σ.heap.Decided d ∧ ∀ x ∈ σ.pending, x.runs d = false := by
  have inv := (Config.ok reached).inv
  have promised : σ.heap.Promised s := Or.inl promise
  have undecided : Stacks.count σ.pending (Instr.decidesOn s) = 0 := by
    apply count_absent ended
    intro x is
    cases x with
    | setValue | resolve | setException => exact is
    | _ => cases is
  have most := inv.decisions.receivedLe s promised
  have least := inv.decisions.receivedGe s promised (completed ▸ List.cons_ne_nil _ _)
  rw [completed, List.length_singleton] at most
  have single : σ.heap.walks s = 1 := by omega
  have past : σ.Over s := by
    refine ⟨fun retired => ?_, ended, by omega⟩
    rw [Heap.retired_promise promise, alive] at retired
    cases retired
  obtain ⟨once, idle, walked, -⟩ := past.once reached single stores
  exact ⟨once, (inv.walked_iff.mp (walked ▸ Nat.one_pos)).1, idle⟩

/-- Two callables are attached one after the other, the promise is completed, and both return. -/
def spreadRun : List (Event Nat String Empty) :=
  [Event.call 0 (.newPromise false), Event.call 0 (.then 0 false)] ++
    List.replicate 3 (Event.run 0) ++ [Event.call 0 (.then 1 false)] ++
    List.replicate 3 (Event.run 0) ++ [Event.call 0 (.complete 0 (.ok (.val 7)))] ++
    List.replicate 3 (Event.run 0) ++ [Event.ret 0 (.ok (.val 8))] ++
    List.replicate 3 (Event.run 0) ++ [Event.ret 0 (.ok (.val 9))] ++
    List.replicate 4 (Event.run 0)

theorem spreadRun_replays :
    ((runtime Nat String Empty).replay (Config.start 1) spreadRun).isSome = true := by
  decide +kernel

/-- The second callable was called once. -/
theorem completion_spreads_twice :
    let σ := Config.after 1 spreadRun spreadRun_replays
    σ.heap.invocations 2 = 1 ∧ σ.heap.Decided 2 ∧ ∀ x ∈ σ.pending, x.runs 2 = false := by
  intro σ
  have threads : σ.threads = [[]] := by rfl
  have first : 1 ∈ (σ.heap.cell 0).continuations := by decide +kernel
  have second : 2 ∈ (σ.heap.cell 1).continuations := by decide +kernel
  have ended : ∀ x ∈ σ.pending, x.completes 0 = false := by
    intro x inside
    obtain ⟨stack, member, held⟩ := Stacks.mem_pending.mp inside
    rw [threads, List.mem_singleton] at member
    rw [member] at held
    cases held
  exact completion_spreads (Config.reachable_after spreadRun_replays) (by decide +kernel)
    (by decide +kernel) (by rfl) ended (.deeper (.listed first) second)

end Azul.Async
