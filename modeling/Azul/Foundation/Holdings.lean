import Mathlib.Data.Fintype.EquivFin

/-!
# Who holds what

A table gives entries to clients, as an operating system gives descriptors and mappings to the code
that asks for them. The entries are accounted for when each of them belongs to exactly one client.
Taking a free entry, giving one back, and the end of all clients that a set of entries belongs to
keep it that way, so nothing leaks and nothing is given back twice.
-/

namespace Azul.Foundation

variable {κ α : Type*} {table : κ → Option α} {claims : Nat → Option κ}

/-- Every entry of a table is held by exactly one client. -/
structure Accounted (table : κ → Option α) (claims : Nat → Option κ) : Prop where
  /-- What is held is there. -/
  kept : ∀ client key, claims client = some key → (table key).isSome = true
  /-- Nothing is held twice. -/
  apart : ∀ one other key, claims one = some key → claims other = some key → one = other
  /-- What is there is held. -/
  owned : ∀ key, (table key).isSome = true → ∃ client, claims client = some key

namespace Accounted

/-- An empty table. -/
theorem empty : Accounted (fun _ : κ => (none : Option α)) fun _ => none := by
  constructor
  · intro client key holds
    cases holds
  · intro one other key holds
    cases holds
  · intro key there
    cases there

/-- All entries of a kind are taken from the clients that hold them. -/
theorem drop (accounted : Accounted table claims) (gone : κ → Prop) [DecidablePred gone] :
    Accounted (fun key => if gone key then none else table key)
      fun client => (claims client).filter fun key => ¬ gone key := by
  have remains {client : Nat} {key : κ}
      (left : ((claims client).filter fun key => ¬ gone key) = some key) :
      claims client = some key ∧ ¬ gone key := by
    obtain ⟨holds, stays⟩ := Option.filter_eq_some_iff.mp left
    exact ⟨holds, of_decide_eq_true stays⟩
  constructor
  · intro client key left
    obtain ⟨holds, stays⟩ := remains left
    rw [if_neg stays]
    exact accounted.kept client key holds
  · intro one other key first second
    exact accounted.apart one other key (remains first).1 (remains second).1
  · intro key there
    by_cases leaves : gone key
    · rw [if_pos leaves] at there
      cases there
    · rw [if_neg leaves] at there
      obtain ⟨client, holds⟩ := accounted.owned key there
      exact ⟨client, Option.filter_eq_some_iff.mpr ⟨holds, decide_eq_true leaves⟩⟩

/-- When nobody holds an entry of a kind, there is none. -/
theorem none_left (accounted : Accounted table claims) {key : κ}
    (unheld : ∀ client, claims client ≠ some key) : table key = none := by
  by_contra there
  obtain ⟨client, holds⟩ := accounted.owned key (Option.isSome_iff_ne_none.mpr there)
  exact unheld client holds

variable [DecidableEq κ]

/-- A client that holds nothing takes a free entry. -/
theorem take (accounted : Accounted table claims) {client : Nat} {key : κ} (entry : α)
    (idle : claims client = none) (free : table key = none) :
    Accounted (Function.update table key (some entry))
      (Function.update claims client (some key)) := by
  have unheld (other : Nat) (holds : claims other = some key) : False := by
    have there := accounted.kept other key holds
    rw [free] at there
    cases there
  constructor
  · intro other held holds
    by_cases same : other = client
    · rw [same, Function.update_self] at holds
      rw [← Option.some.inj holds, Function.update_self]
      rfl
    · rw [Function.update_of_ne same] at holds
      have different : held ≠ key := fun clash => unheld other (clash ▸ holds)
      rw [Function.update_of_ne different]
      exact accounted.kept other held holds
  · intro one other held first second
    by_cases same : one = client
    · by_cases also : other = client
      · rw [same, also]
      · rw [same, Function.update_self] at first
        rw [Function.update_of_ne also, ← Option.some.inj first] at second
        exact (unheld other second).elim
    · rw [Function.update_of_ne same] at first
      by_cases also : other = client
      · rw [also, Function.update_self] at second
        rw [← Option.some.inj second] at first
        exact (unheld one first).elim
      · rw [Function.update_of_ne also] at second
        exact accounted.apart one other held first second
  · intro held there
    by_cases same : held = key
    · exact ⟨client, by rw [same, Function.update_self]⟩
    · rw [Function.update_of_ne same] at there
      obtain ⟨other, holds⟩ := accounted.owned held there
      have different : other ≠ client := by
        intro clash
        rw [clash, idle] at holds
        cases holds
      exact ⟨other, by rw [Function.update_of_ne different, holds]⟩

/-- A client gives its entry back. -/
theorem give (accounted : Accounted table claims) {client : Nat} {key : κ}
    (holds : claims client = some key) :
    Accounted (Function.update table key none) (Function.update claims client none) := by
  have others {other : Nat} {held : κ} (left : Function.update claims client none other =
      some held) : other ≠ client ∧ claims other = some held := by
    by_cases same : other = client
    · rw [same, Function.update_self] at left
      cases left
    · rw [Function.update_of_ne same] at left
      exact ⟨same, left⟩
  constructor
  · intro other held left
    obtain ⟨different, still⟩ := others left
    have apart : held ≠ key := fun clash =>
      different (accounted.apart other client held still (clash ▸ holds))
    rw [Function.update_of_ne apart]
    exact accounted.kept other held still
  · intro one other held first second
    exact accounted.apart one other held (others first).2 (others second).2
  · intro held there
    by_cases same : held = key
    · rw [same, Function.update_self] at there
      cases there
    · rw [Function.update_of_ne same] at there
      obtain ⟨other, still⟩ := accounted.owned held there
      have different : other ≠ client := by
        intro clash
        rw [clash, holds] at still
        exact same (Option.some.inj still).symm
      exact ⟨other, by rw [Function.update_of_ne different, still]⟩

/-- What one client does to a table, and what it holds before and after. -/
inductive Trades (table : κ → Option α) (held : Option κ) : (κ → Option α) → Option κ → Prop
  | keeps : Trades table held table held
  | takes {key : κ} {entry : α} (idle : held = none) (free : table key = none) :
    Trades table held (Function.update table key (some entry)) (some key)
  | gives {key : κ} (has : held = some key) :
    Trades table held (Function.update table key none) none

variable {table' : κ → Option α} {client : Nat} {held held' : Option κ}

/-- Who holds an entry keeps it as it is, until it is given back. -/
theorem Trades.entry_kept (trades : Trades table held table' held') (has : held ≠ none) :
    held'.bind table' = held.bind table ∨ held' = none := by
  cases trades with
  | keeps => exact Or.inl rfl
  | takes idle => exact absurd idle has
  | gives => exact Or.inr rfl

/-- Whatever one client does, the entries stay accounted for. -/
theorem trade (accounted : Accounted table claims)
    (trades : Trades table (claims client) table' held') :
    Accounted table' (Function.update claims client held') := by
  cases trades with
  | keeps => rwa [Function.update_eq_self]
  | takes idle free => exact accounted.take _ idle free
  | gives has => exact accounted.give has

/-- The entries of the others stay as they are. -/
theorem trade_others (accounted : Accounted table claims)
    (trades : Trades table (claims client) table' held') {other : Nat} {key : κ}
    (holds : claims other = some key) (different : other ≠ client) : table' key = table key := by
  cases trades with
  | keeps => rfl
  | takes idle free =>
    have there := accounted.kept other key holds
    refine Function.update_of_ne ?_ _ _
    rintro rfl
    rw [free] at there
    cases there
  | gives has =>
    refine Function.update_of_ne ?_ _ _
    rintro rfl
    exact different (accounted.apart other client key holds has)

end Accounted

/-! ## Clients in a list -/

section Clients

variable {ι : Type*} {clients : List ι} {index other : Nat} {i j k : ι}

/-- After one client has changed, the others are as they were. -/
theorem set_cases (found : clients[index]? = some i)
    (present : (clients.set index j)[other]? = some k) :
    (other = index ∧ k = j) ∨ (other ≠ index ∧ clients[other]? = some k) := by
  by_cases same : other = index
  · rw [same, List.getElem?_set_self (List.getElem?_eq_some_iff.mp found).1] at present
    exact Or.inl ⟨same, (Option.some.inj present).symm⟩
  · rw [List.getElem?_set_ne (Ne.symm same)] at present
    exact Or.inr ⟨same, present⟩

/-- The clients that were there are still there when one is added. -/
theorem append_cases (present : (clients ++ [i])[other]? = some j) :
    clients[other]? = some j ∨ (other = clients.length ∧ j = i) := by
  rw [List.getElem?_append] at present
  split at present
  case isTrue => exact Or.inl present
  case isFalse beyond =>
    obtain ⟨inside, same⟩ := List.getElem?_eq_some_iff.mp present
    rw [List.length_singleton] at inside
    refine Or.inr ⟨by omega, ?_⟩
    simpa using same.symm

variable (holds : ι → Option κ)

/-- What the clients of a list hold. -/
def claimsOf (clients : List ι) (index : Nat) : Option κ := (clients[index]?).bind holds

variable {holds}

theorem claimsOf_some (found : clients[index]? = some i) :
    claimsOf holds clients index = holds i := by
  rw [claimsOf, found, Option.bind_some]

/-- A new client that holds nothing. -/
theorem claimsOf_append (bare : holds i = none) :
    claimsOf holds (clients ++ [i]) = claimsOf holds clients := by
  funext index
  cases found : (clients ++ [i])[index]? with
  | none =>
    have short : clients[index]? = none := by
      rw [List.getElem?_eq_none_iff] at found ⊢
      rw [List.length_append] at found
      omega
    rw [claimsOf, claimsOf, found, short]
  | some j =>
    rcases append_cases found with old | ⟨last, rfl⟩
    · rw [claimsOf_some found, claimsOf_some old]
    · have short : clients[index]? = none := by
        rw [last, List.getElem?_eq_none (Nat.le_refl _)]
      rw [claimsOf_some found, bare, claimsOf, short, Option.bind_none]

/-- When one client changes, only it holds something else. -/
theorem claimsOf_set (found : clients[index]? = some i) :
    claimsOf holds (clients.set index j) =
      Function.update (claimsOf holds clients) index (holds j) := by
  funext other
  by_cases same : other = index
  · have inside := (List.getElem?_eq_some_iff.mp found).1
    rw [same, Function.update_self, claimsOf, List.getElem?_set_self inside, Option.bind_some]
  · rw [Function.update_of_ne same, claimsOf, claimsOf, List.getElem?_set_ne (Ne.symm same)]

/-- When all clients change, they lose entries of a kind. -/
theorem claimsOf_map {f : ι → ι} {gone : κ → Prop} [DecidablePred gone]
    (loses : ∀ i, holds (f i) = (holds i).filter fun key => ¬ gone key) :
    claimsOf holds (clients.map f) =
      fun index => (claimsOf holds clients index).filter fun key => ¬ gone key := by
  funext index
  rw [claimsOf, claimsOf, List.getElem?_map]
  cases clients[index]? with
  | none => rfl
  | some i => exact loses i

/-- There is always a number that a process does not use. -/
theorem Accounted.exists_free {table : Nat × Nat → Option α} {holds : ι → Option (Nat × Nat)}
    (accounted : Accounted table (claimsOf holds clients)) (process : Nat) :
    ∃ number, table (process, number) = none := by
  obtain ⟨number, fresh⟩ :=
    Infinite.exists_notMem_finset ((clients.filterMap holds).map Prod.snd).toFinset
  refine ⟨number, accounted.none_left fun client claims => fresh ?_⟩
  obtain ⟨i, found, has⟩ := Option.bind_eq_some_iff.mp claims
  rw [List.mem_toFinset]
  exact List.mem_map_of_mem (List.mem_filterMap.mpr ⟨i, List.mem_of_getElem? found, has⟩)

end Clients

end Azul.Foundation
