import DuraLLM.Lib.Dict
import DuraLLM.Models

/-! # Resource lanes

Whether a credential or deployment lane may be used.  A lane that nothing was
said about is available, and an outage with an end is over when the clock
reaches it.  Every method holds the lock of the store.
-/

namespace DuraLLM

structure ResourceLaneStatus where
  available : Bool
  reason : Option String := none
  expiresAt : Option Seconds := none
  deriving DecidableEq

def ResourceLaneStatus.isAvailable (status : ResourceLaneStatus) (now : Seconds) : Bool :=
  status.available || match status.expiresAt with
    | none => false
    | some expiry => expiry ≤ now

abbrev ResourceLaneStore := Dict String ResourceLaneStatus

namespace ResourceLaneStore

variable (store : ResourceLaneStore) (laneKey : String)

def setUnavailable (reason : String) (retryAfterSeconds : Option Seconds) (now : Seconds) :
    ResourceLaneStore :=
  store.set laneKey
    { available := false
      reason := some reason
      expiresAt := retryAfterSeconds.map fun seconds => now + max 0 seconds }

def setAvailable : ResourceLaneStore := store.set laneKey { available := true }

/-- An outage that is over is written back as such. -/
def status (now : Seconds) : ResourceLaneStatus × ResourceLaneStore :=
  match store.get laneKey with
  | none => ({ available := true }, store)
  | some current =>
      if current.isAvailable now then
        ({ available := true }, if current.available then store else store.setAvailable laneKey)
      else (current, store)

/-- The lane may be used at this time. -/
def Available (now : Seconds) : Prop :=
  ∀ current ∈ store.get laneKey, current.isAvailable now = true

instance (now : Seconds) : Decidable (Available store laneKey now) :=
  inferInstanceAs (Decidable (∀ current ∈ store.get laneKey, _))

theorem available_iff (now : Seconds) :
    (status store laneKey now).1.available = true ↔ Available store laneKey now := by
  unfold status Available
  cases found : store.get laneKey with
  | none => simp
  | some current =>
      by_cases free : current.isAvailable now = true
      · simp [free]
      · simp only [free, Option.mem_def, Option.some.injEq, forall_eq']
        simp only [ResourceLaneStatus.isAvailable, Bool.or_eq_true, not_or] at free
        simp [free.1]

variable {store laneKey}

/-- Asking for a status changes no lane's availability at that time. -/
theorem available_status {now : Seconds} (asked : String) :
    Available (status store asked now).2 laneKey now ↔ Available store laneKey now := by
  unfold status
  cases found : store.get asked with
  | none => rfl
  | some current =>
      by_cases free : current.isAvailable now = true
      · by_cases known : current.available = true
        · simp [free, known]
        · by_cases same : laneKey = asked
          · subst same
            have before : Available store laneKey now := by
              simp [Available, found, free]
            have after : Available (setAvailable store laneKey) laneKey now := by
              simp [Available, setAvailable, ResourceLaneStatus.isAvailable]
            simpa [free, known] using iff_of_true after before
          · simp [Available, setAvailable, free, known, Dict.get_set_ne _ _ same]
      · simp [free]

/-! ## Closed lanes -/

/-- The lane stays out of use up to this time at least. -/
def ClosedUntil (store : ResourceLaneStore) (laneKey : String) (time : Seconds) : Prop :=
  ∃ current ∈ store.get laneKey, current.available = false ∧
    ∀ expiry ∈ current.expiresAt, time ≤ expiry

/-- A lane is closed until a time when every status before that says so. -/
theorem closedUntil_iff {now time : Seconds} (early : now < time) :
    ClosedUntil store laneKey time ↔
      ∀ asking, now ≤ asking → asking < time → (status store laneKey asking).1.available = false := by
  simp only [← Bool.not_eq_true, available_iff, ClosedUntil, Available]
  cases found : store.get laneKey with
  | none => simpa using ⟨now, le_refl now, early⟩
  | some current =>
      simp only [Option.mem_def, Option.some.injEq, exists_eq_left', forall_eq',
        ResourceLaneStatus.isAvailable, Bool.or_eq_true, not_or, Bool.not_eq_true]
      cases expires : current.expiresAt with
      | none =>
          simp only [reduceCtorEq, false_implies, implies_true, and_true]
          exact ⟨fun closed _ _ _ => closed, fun closed => closed now (le_refl now) early⟩
      | some expiry =>
          simp only [Option.some.injEq, forall_eq', decide_eq_false_iff_not, not_le]
          constructor
          · rintro ⟨closed, late⟩ asking _ before
            exact ⟨closed, lt_of_lt_of_le before late⟩
          · intro closed
            refine ⟨(closed now (le_refl now) early).1, ?_⟩
            by_contra soon
            have reached := closed expiry (le_of_lt (closed now (le_refl now) early).2)
              (not_le.mp soon)
            exact lt_irrefl expiry reached.2

theorem closedUntil_set_ne {other : String} (ne : laneKey ≠ other) (status : ResourceLaneStatus)
    (time : Seconds) :
    ClosedUntil (store.set other status) laneKey time ↔ ClosedUntil store laneKey time := by
  simp [ClosedUntil, Dict.get_set_ne _ _ ne]

theorem not_closedUntil_setAvailable (time : Seconds) :
    ¬ClosedUntil (setAvailable store laneKey) laneKey time := by
  simp [ClosedUntil, setAvailable]

theorem closedUntil_setUnavailable (reason : String) (seconds now time : Seconds) :
    ClosedUntil (setUnavailable store laneKey reason (some seconds) now) laneKey time ↔
      time ≤ now + max 0 seconds := by
  simp [ClosedUntil, setUnavailable]

/-- Asking for a status opens no lane early. -/
theorem ClosedUntil.status {now time : Seconds} (closed : ClosedUntil store laneKey time)
    (early : now < time) (asked : String) :
    ClosedUntil (ResourceLaneStore.status store asked now).2 laneKey time := by
  unfold ResourceLaneStore.status
  cases found : store.get asked with
  | none => exact closed
  | some current =>
      by_cases free : current.isAvailable now = true
      · by_cases same : laneKey = asked
        · obtain ⟨cell, at_, shut, late⟩ := closed
          rw [same, found] at at_
          cases at_
          unfold ResourceLaneStatus.isAvailable at free
          cases expires : current.expiresAt with
          | none => simp [expires, shut] at free
          | some expiry =>
              have ended : expiry ≤ now := by simpa [expires, shut] using free
              exact absurd (lt_of_lt_of_le early (late expiry expires)) (not_lt.mpr ended)
        · by_cases known : current.available = true
          · simpa [free, known] using closed
          · simpa [free, known, setAvailable, closedUntil_set_ne same] using closed
      · simpa [free] using closed

end ResourceLaneStore

end DuraLLM
