import Azul.Ipc.DarwinConditionVariable

/-!
# Timeouts on their way to the operating system

`WaitFor` takes milliseconds as a 64-bit number and hands them to a blocking call that takes 32
bits, with values that stand for no limit at all. The numbers are converted without a check, so
that a wait is as long as it was asked for exactly if the number needs no conversion.
-/

namespace Azul.Ipc

/-- How a blocking call with a limit, if any, may end, by when the event that it waits for occurs,
if it does: whether because of the event, and after how many milliseconds. -/
inductive Blocks (limit : Option Nat) (occurs : Option Nat) : Bool → Nat → Prop
  | event {time elapsed} (occurred : occurs = some time) (after : time ≤ elapsed) :
    Blocks limit occurs true elapsed
  | timeout {duration elapsed} (limited : limit = some duration)
    (before : ∀ time ∈ occurs, duration ≤ time) (after : duration ≤ elapsed) :
    Blocks limit occurs false elapsed

/-- A wait for some milliseconds, by what happens meanwhile, reports a timeout only when they have
passed, and ends also if nothing happens. -/
structure Patient {Happening : Type} (timeout : Nat)
    (waits : Happening → Outcome → Nat → Prop) (nothing : Happening) : Prop where
  early : ∀ happening elapsed, waits happening .timeout elapsed → timeout ≤ elapsed
  limited : ∃ outcome elapsed, waits nothing outcome elapsed

/-- `static_cast<DWORD>(timeout.count())` and `static_cast<std::uint32_t>(timeout.count())`. -/
def castMilliseconds (timeout : Int64) : UInt32 := timeout.toUInt64.toUInt32

namespace Win32

/-- `INFINITE`. -/
def INFINITE : UInt32 := 0xFFFFFFFF

/-- The limit of `WaitForSingleObject`. -/
def limit (milliseconds : UInt32) : Option Nat :=
  if milliseconds = INFINITE then none else some milliseconds.toNat

/-- How `WaitFor` ends, by when its semaphore is released. -/
def WaitsFor (timeout : Int64) (released : Option Nat) (outcome : Outcome) (elapsed : Nat) :
    Prop :=
  ∃ signalled, Blocks (limit (castMilliseconds timeout)) released signalled elapsed ∧
    outcome = if signalled then .noTimeout else .timeout

end Win32

namespace Darwin

/-- The limit of `poll`. -/
def limit (milliseconds : Int32) : Option Nat :=
  if milliseconds < 0 then none else some milliseconds.toInt.toNat

/-- `static_cast<int>(timeout_ms)` in `TimedRead`. -/
def timedReadMilliseconds (timeout : UInt32) : Int32 := timeout.toInt32

/-- The rounds of `WaitFor` from a number of bytes to read on, by when some of them arrive in the
pipe: the time since the beginning of the round, and their number. -/
inductive WaitsFor (timeout : Int64) :
    (toRead : Nat) → List (Nat × Nat) → Outcome → (elapsed : Nat) → Prop
  | done {arrivals} : WaitsFor timeout 0 arrivals .noTimeout 0
  | timesOut {toRead arrivals elapsed} (waiting : 0 < toRead)
    (blocks : Blocks (limit (timedReadMilliseconds (castMilliseconds timeout)))
      (arrivals.head?.map Prod.fst) false elapsed) :
    WaitsFor timeout toRead arrivals .timeout elapsed
  | reads {toRead time count arrivals elapsed outcome later} (progress : 0 < count)
    (fits : count ≤ toRead)
    (blocks : Blocks (limit (timedReadMilliseconds (castMilliseconds timeout))) (some time) true
      elapsed)
    (goes : WaitsFor timeout (toRead - count) arrivals outcome later) :
    WaitsFor timeout toRead ((time, count) :: arrivals) outcome (elapsed + later)

end Darwin

/-! ## The conversions -/

/-- The second conversion keeps what fits into 31 bits. -/
theorem Darwin.timedReadMilliseconds_toInt (milliseconds : UInt32) :
    (Darwin.timedReadMilliseconds milliseconds).toInt =
      if 2 * milliseconds.toNat < 4294967296 then (milliseconds.toNat : Int)
      else milliseconds.toNat - 4294967296 :=
  BitVec.toInt_eq_toNat_cond milliseconds.toBitVec

/-- A limit of `poll` is no longer than the number that is converted. -/
theorem Darwin.limit_le {milliseconds : UInt32} {duration : Nat}
    (limited : Darwin.limit (Darwin.timedReadMilliseconds milliseconds) = some duration) :
    duration ≤ milliseconds.toNat := by
  have signed := Darwin.timedReadMilliseconds_toInt milliseconds
  unfold Darwin.limit at limited
  split at limited
  · cases limited
  · have same := Option.some.inj limited
    split at signed <;> omega

section Conversions

variable {timeout : Int64} (nonnegative : 0 ≤ timeout)

include nonnegative

/-- The first conversion keeps what fits into 32 bits. -/
theorem castMilliseconds_toNat :
    (castMilliseconds timeout).toNat = timeout.toInt.toNat % 4294967296 := by
  have positive : 0 ≤ timeout.toBitVec.toInt := Int64.le_iff_toInt_le.mp nonnegative
  have same : timeout.toBitVec.toInt = timeout.toBitVec.toNat := by
    rw [BitVec.toInt_eq_toNat_cond] at positive ⊢
    have bound := timeout.toBitVec.isLt
    split at positive
    case isTrue small => rw [if_pos small]
    case isFalse large => omega
  show timeout.toUInt64.toNat % 2 ^ 32 = timeout.toBitVec.toInt.toNat % 4294967296
  rw [same]
  rfl

/-- `WaitForSingleObject` is handed the timeout exactly below the value for no limit. -/
theorem Win32.limit_iff :
    Win32.limit (castMilliseconds timeout) = some timeout.toInt.toNat ↔
      timeout.toInt < 4294967295 := by
  have positive : 0 ≤ timeout.toInt := Int64.le_iff_toInt_le.mp nonnegative
  have cast := castMilliseconds_toNat nonnegative
  have infinite : castMilliseconds timeout = Win32.INFINITE ↔
      (castMilliseconds timeout).toNat = 4294967295 := UInt32.toNat_inj.symm
  unfold Win32.limit
  by_cases forever : castMilliseconds timeout = Win32.INFINITE
  · rw [if_pos forever]
    have all := infinite.mp forever
    apply iff_of_false nofun
    omega
  · rw [if_neg forever, Option.some_inj]
    have less := mt infinite.mpr forever
    omega

/-- `poll` is handed the timeout exactly if it fits into 31 bits. -/
theorem Darwin.limit_iff :
    Darwin.limit (Darwin.timedReadMilliseconds (castMilliseconds timeout)) =
        some timeout.toInt.toNat ↔
      timeout.toInt < 2147483648 := by
  have positive : 0 ≤ timeout.toInt := Int64.le_iff_toInt_le.mp nonnegative
  have cast := castMilliseconds_toNat nonnegative
  have signed := Darwin.timedReadMilliseconds_toInt (castMilliseconds timeout)
  have below : (castMilliseconds timeout).toNat < 4294967296 := (castMilliseconds timeout).toNat_lt
  unfold Darwin.limit
  by_cases negative : Darwin.timedReadMilliseconds (castMilliseconds timeout) < 0
  · rw [if_pos negative]
    rw [Int32.lt_iff_toInt_lt, signed] at negative
    apply iff_of_false nofun
    split at negative
    · change _ < (0 : Int) at negative
      omega
    · omega
  · rw [if_neg negative, Option.some_inj]
    rw [Int32.lt_iff_toInt_lt] at negative
    change ¬ _ < (0 : Int) at negative
    rw [signed] at negative ⊢
    split at negative
    case isTrue small =>
      rw [if_pos small]
      omega
    case isFalse => omega

end Conversions

/-! ## The waits -/

section Waits

variable {timeout : Int64}

/-- A wait on `win32` is patient if it is handed its timeout, and only a limit of that length would
do. -/
theorem Win32.patient_iff (shorter : ∀ duration,
    Win32.limit (castMilliseconds timeout) = some duration → duration ≤ timeout.toInt.toNat) :
    Patient timeout.toInt.toNat (Win32.WaitsFor timeout) none ↔
      Win32.limit (castMilliseconds timeout) = some timeout.toInt.toNat := by
  constructor
  · intro patient
    cases limited : Win32.limit (castMilliseconds timeout) with
    | none =>
      obtain ⟨outcome, elapsed, signalled, blocks, _⟩ := patient.limited
      cases blocks with
      | event occurred => cases occurred
      | timeout bounded =>
        rw [limited] at bounded
        cases bounded
    | some duration =>
      have enough := patient.early none duration
        ⟨false, .timeout limited nofun (Nat.le_refl _), rfl⟩
      have atMost := shorter duration limited
      rw [Nat.le_antisymm atMost enough]
  · intro same
    constructor
    · intro released elapsed ends
      obtain ⟨signalled, blocks, outcome⟩ := ends
      cases blocks with
      | event => cases outcome
      | timeout limited _ after =>
        rw [same] at limited
        rw [Option.some.inj limited]
        exact after
    · exact ⟨.timeout, _, false, .timeout same nofun (Nat.le_refl _), rfl⟩

/-- A wait on `darwin` is patient if every round is handed the timeout, and only a limit of that
length would do. -/
theorem Darwin.patient_iff (shorter : ∀ duration,
    Darwin.limit (Darwin.timedReadMilliseconds (castMilliseconds timeout)) = some duration →
      duration ≤ timeout.toInt.toNat) :
    Patient timeout.toInt.toNat (Darwin.WaitsFor timeout Darwin.messageSize) [] ↔
      Darwin.limit (Darwin.timedReadMilliseconds (castMilliseconds timeout)) =
        some timeout.toInt.toNat := by
  constructor
  · intro patient
    cases limited : Darwin.limit (Darwin.timedReadMilliseconds (castMilliseconds timeout)) with
    | none =>
      obtain ⟨outcome, elapsed, ends⟩ := patient.limited
      cases ends with
      | timesOut _ blocks =>
        cases blocks with
        | timeout bounded =>
          rw [limited] at bounded
          cases bounded
    | some duration =>
      have waiting : 0 < Darwin.messageSize := by decide
      have enough := patient.early [] duration
        (.timesOut waiting (.timeout limited nofun (Nat.le_refl _)))
      have atMost := shorter duration limited
      rw [Nat.le_antisymm atMost enough]
  · intro same
    constructor
    · intro arrivals elapsed ends
      -- the induction is on the rounds
      generalize Darwin.messageSize = toRead at ends
      generalize reported : Outcome.timeout = outcome at ends
      induction ends with
      | done => cases reported
      | timesOut _ blocks =>
        cases blocks with
        | timeout limited _ after =>
          rw [same] at limited
          rw [Option.some.inj limited]
          exact after
      | reads _ _ _ _ ih => exact Nat.le_add_left_of_le (ih reported)
    · have waiting : 0 < Darwin.messageSize := by decide
      exact ⟨.timeout, _, .timesOut waiting (.timeout same nofun (Nat.le_refl _))⟩

end Waits

/-- The blocking call of a wait is handed the timeout, and the wait reports a timeout no earlier and
is not without limit, exactly for the timeouts that its conversions keep: on `win32` those below
the value that stands for no limit, on `darwin` those of 31 bits. -/
theorem timeouts_kept_iff {timeout : Int64} (nonnegative : 0 ≤ timeout) :
    ((Win32.limit (castMilliseconds timeout) = some timeout.toInt.toNat ↔
        timeout.toInt < 4294967295) ∧
      (Patient timeout.toInt.toNat (Win32.WaitsFor timeout) none ↔
        timeout.toInt < 4294967295)) ∧
    (Darwin.limit (Darwin.timedReadMilliseconds (castMilliseconds timeout)) =
        some timeout.toInt.toNat ↔ timeout.toInt < 2147483648) ∧
      (Patient timeout.toInt.toNat (Darwin.WaitsFor timeout Darwin.messageSize) [] ↔
        timeout.toInt < 2147483648) := by
  have cast := castMilliseconds_toNat nonnegative
  have win32 := Win32.limit_iff nonnegative
  have darwin := Darwin.limit_iff nonnegative
  refine ⟨⟨win32, ?_⟩, darwin, ?_⟩
  · rw [Win32.patient_iff, win32]
    intro duration limited
    unfold Win32.limit at limited
    split at limited
    · cases limited
    · have same := Option.some.inj limited
      omega
  · rw [Darwin.patient_iff, darwin]
    intro duration limited
    have small := Darwin.limit_le limited
    omega

/-- The longest timeout that `darwin` keeps. -/
theorem timeouts_kept_longest :
    Patient 2147483647 (Darwin.WaitsFor 2147483647 Darwin.messageSize) [] := by
  have nonnegative : (0 : Int64) ≤ 2147483647 := by decide
  exact (timeouts_kept_iff nonnegative).2.2.mpr (by decide)

/-- A timeout of 2 ^ 32 milliseconds, some 50 days, is over at once; one millisecond less is
infinite. -/
theorem timeouts_cut :
    Win32.limit (castMilliseconds 4294967296) = some 0 ∧
      Darwin.limit (Darwin.timedReadMilliseconds (castMilliseconds 4294967296)) = some 0 ∧
      Win32.limit (castMilliseconds 4294967295) = none ∧
      Darwin.limit (Darwin.timedReadMilliseconds (castMilliseconds 4294967295)) = none ∧
      ¬ Patient 4294967296 (Win32.WaitsFor 4294967296) none := by
  refine ⟨by decide, by decide, by decide, by decide, ?_⟩
  intro patient
  have waited : Win32.WaitsFor 4294967296 none .timeout 0 :=
    ⟨false, .timeout (by decide) nofun (Nat.le_refl 0), rfl⟩
  have early := patient.early none 0 waited
  omega

end Azul.Ipc
