import DuraLLM.Breaker.Metrics
import DuraLLM.Lib.RingBuffer
import Mathlib.Data.List.Forall2
import Mathlib.Data.List.Induction
import Mathlib.Data.List.TakeWhile
import Mathlib.Data.Nat.Log

/-! # The fast sliding window

`FastSlidingWindow` keeps the outcomes of calls in a ring of three arrays, with a
power of two of cells, and counts them from the newest backwards.  Next to it
stand the window that it is meant to be, the last calls that are recent enough,
and `SlidingWindowMetrics`, which forgets calls as they grow old.
-/

namespace DuraLLM

/-! ## The ring -/

/-- `power = 1; while power < capacity: power <<= 1`, from the power with this exponent on. -/
def roundUp (capacity : Int) (exponent : Nat) : Nat :=
  if (2 ^ exponent : Nat) < capacity then roundUp capacity (exponent + 1) else 2 ^ exponent
termination_by (capacity - (2 ^ exponent : Nat)).toNat
decreasing_by
  have grows : 2 ^ exponent < 2 ^ (exponent + 1) := Nat.pow_lt_pow_succ (by omega)
  omega

structure FastSlidingWindow where
  capacity : Nat
  mask : Nat
  durationS : Seconds
  head : Nat := 0
  count : Nat := 0
  timestamps : List Seconds
  /-- 0 for a failure, 1 for a success. -/
  outcomes : List UInt8
  durations : List ℚ

/-- One call of `record`. -/
structure RecordedCall where
  success : Bool
  durationMs : ℚ := 0
  timestamp : Seconds

structure FastSnapshot where
  totalCalls : Nat := 0
  successfulCalls : Nat := 0
  failedCalls : Nat := 0
  failureRate : ℚ := 0
  avgLatencyMs : ℚ := 0

/-- The sums that a snapshot runs up. -/
structure SnapshotTally where
  totalCalls : Nat := 0
  successfulCalls : Nat := 0
  failedCalls : Nat := 0
  totalDuration : ℚ := 0

namespace FastSlidingWindow

def new (capacity : Int) (windowDurationS : Seconds) : FastSlidingWindow :=
  let power := roundUp capacity 0
  { capacity := power
    mask := power - 1
    durationS := windowDurationS
    timestamps := List.replicate power 0
    outcomes := List.replicate power 0
    durations := List.replicate power 0 }

def record (w : FastSlidingWindow) (call : RecordedCall) : FastSlidingWindow :=
  let idx := w.head &&& w.mask
  { w with
    timestamps := w.timestamps.set idx call.timestamp
    outcomes := w.outcomes.set idx (if call.success then 1 else 0)
    durations := w.durations.set idx call.durationMs
    head := w.head + 1
    count := if w.count < w.capacity then w.count + 1 else w.count }

/-- The loop over `range(count)`: `i` is how many entries are newer. -/
def scan (w : FastSlidingWindow) (cutoff : Seconds) : List Nat → SnapshotTally → SnapshotTally
  | [], tally => tally
  | i :: later, tally =>
      let idx := (w.head - 1 - i) &&& w.mask
      if w.timestamps.getD idx 0 < cutoff then tally
      else
        let success := w.outcomes.getD idx 0 = 1
        w.scan cutoff later
          { totalCalls := tally.totalCalls + 1
            successfulCalls := if success then tally.successfulCalls + 1 else tally.successfulCalls
            failedCalls := if success then tally.failedCalls else tally.failedCalls + 1
            totalDuration := tally.totalDuration + w.durations.getD idx 0 }

def snapshot (w : FastSlidingWindow) (now : Seconds) : FastSnapshot :=
  let tally := w.scan (now - w.durationS) (List.range w.count) {}
  { totalCalls := tally.totalCalls
    successfulCalls := tally.successfulCalls
    failedCalls := tally.failedCalls
    failureRate := if 0 < tally.totalCalls then tally.failedCalls / tally.totalCalls * 100 else 0
    avgLatencyMs := if 0 < tally.totalCalls then tally.totalDuration / tally.totalCalls else 0 }

def recordAll (w : FastSlidingWindow) (calls : List RecordedCall) : FastSlidingWindow :=
  calls.foldl record w

end FastSlidingWindow

/-! ## What it is meant to be -/

structure CallCounts where
  total : Nat
  successful : Nat
  failed : Nat
  deriving DecidableEq

def countCalls (calls : List RecordedCall) : CallCounts where
  total := calls.length
  successful := calls.countP (·.success)
  failed := calls.countP fun c => !c.success

def FastSnapshot.counts (s : FastSnapshot) : CallCounts where
  total := s.totalCalls
  successful := s.successfulCalls
  failed := s.failedCalls

def MetricsSnapshot.counts (s : MetricsSnapshot) : CallCounts where
  total := s.totalCalls
  successful := s.successCalls
  failed := s.failedCalls

/-- The least power of two that is no less than the capacity. -/
def roundedCapacity (capacity : Int) : Nat := 2 ^ Nat.clog 2 capacity.toNat

/-- The last calls, as many as there are cells. -/
def lastCalls (capacity : Int) (calls : List RecordedCall) : List RecordedCall :=
  calls.drop (calls.length - roundedCapacity capacity)

/-- Those not older than the duration. -/
def recentCalls (duration now : Seconds) (calls : List RecordedCall) : List RecordedCall :=
  calls.filter fun c => now - duration ≤ c.timestamp

/-- No call is older than one that was recorded before it. -/
def InOrder (calls : List RecordedCall) : Prop := calls.Pairwise (·.timestamp ≤ ·.timestamp)

/-! ## Capacity -/

theorem roundUp_eq {capacity : Int} {exponent : Nat}
    (below : exponent = 0 ∨ (2 ^ (exponent - 1) : Nat) < capacity) :
    roundUp capacity exponent = roundedCapacity capacity := by
  induction exponent using roundUp.induct capacity with
  | case1 exponent more ih =>
      rw [roundUp, if_pos more]
      exact ih (.inr more)
  | case2 exponent enough =>
      rw [roundUp, if_neg enough, roundedCapacity]
      congr 1
      apply le_antisymm
      · cases below with
        | inl first => rw [first]; exact Nat.zero_le _
        | inr less =>
            have smaller : exponent - 1 < Nat.clog 2 capacity.toNat :=
              (Nat.lt_clog_iff_pow_lt Nat.one_lt_two).mpr (Int.lt_toNat.mpr less)
            omega
      · exact Nat.clog_le_of_le_pow (Int.toNat_le.mpr (not_lt.mp enough))

/-! ## What the ring holds -/

/-- The ring has so many cells, and they hold the last of these calls. -/
structure FastSlidingWindow.Holds (w : FastSlidingWindow) (calls : List RecordedCall) : Prop where
  power : ∃ exponent, w.capacity = 2 ^ exponent
  mask : w.mask = w.capacity - 1
  head : w.head = calls.length
  count : w.count = min calls.length w.capacity
  timestamps : w.timestamps.length = w.capacity ∧
    RingBuffer.Recent w.timestamps (calls.map (·.timestamp))
  outcomes : w.outcomes.length = w.capacity ∧
    RingBuffer.Recent w.outcomes (calls.map fun c => if c.success then 1 else 0)
  durations : w.durations.length = w.capacity ∧
    RingBuffer.Recent w.durations (calls.map (·.durationMs))

namespace FastSlidingWindow.Holds

variable {w : FastSlidingWindow} {calls : List RecordedCall}

/-- The mask takes an index modulo the number of cells. -/
theorem land (holds : w.Holds calls) (n : Nat) : n &&& w.mask = n % w.capacity := by
  obtain ⟨exponent, power⟩ := holds.power
  rw [holds.mask, power, Nat.and_two_pow_sub_one_eq_mod]

theorem new (capacity : Int) (duration : Seconds) :
    (FastSlidingWindow.new capacity duration).Holds [] where
  power := ⟨_, roundUp_eq (.inl rfl)⟩
  mask := rfl
  head := rfl
  count := by simp [FastSlidingWindow.new]
  timestamps := ⟨List.length_replicate, RingBuffer.recent_nil _⟩
  outcomes := ⟨List.length_replicate, RingBuffer.recent_nil _⟩
  durations := ⟨List.length_replicate, RingBuffer.recent_nil _⟩

/-- One array of the ring, when the next entry is put into it. -/
theorem push {α : Type} {cells : List α} {capacity : Nat} {f : RecordedCall → α}
    (holds : cells.length = capacity ∧ RingBuffer.Recent cells (calls.map f)) (call : RecordedCall) :
    (cells.set (calls.length % capacity) (f call)).length = capacity ∧
      RingBuffer.Recent (cells.set (calls.length % capacity) (f call))
        ((calls ++ [call]).map f) := by
  obtain ⟨rfl, recent⟩ := holds
  have next := recent.push (f call)
  rw [List.length_map] at next
  rw [List.length_set, List.map_append, List.map_singleton]
  exact ⟨rfl, next⟩

theorem record (holds : w.Holds calls) (call : RecordedCall) :
    (w.record call).Holds (calls ++ [call]) := by
  have idx : w.head &&& w.mask = calls.length % w.capacity := by rw [holds.land, holds.head]
  constructor
  · exact holds.power
  · exact holds.mask
  · simp [FastSlidingWindow.record, holds.head]
  · simp only [FastSlidingWindow.record, holds.count, List.length_append, List.length_singleton]
    split <;> omega
  · simp only [FastSlidingWindow.record, idx]
    exact push holds.timestamps call
  · simp only [FastSlidingWindow.record, idx]
    exact push holds.outcomes call
  · simp only [FastSlidingWindow.record, idx]
    exact push holds.durations call

theorem recordAll (holds : w.Holds calls) (later : List RecordedCall) :
    (w.recordAll later).Holds (calls ++ later) := by
  induction later generalizing w calls with
  | nil => rwa [List.append_nil]
  | cons call later ih =>
      rw [List.append_cons]
      exact ih (holds.record call)

/-- The `i`-th entry, counted from the newest, is this call. -/
structure Reads (w : FastSlidingWindow) (i : Nat) (call : RecordedCall) : Prop where
  timestamp : w.timestamps.getD ((w.head - 1 - i) &&& w.mask) 0 = call.timestamp
  outcome : w.outcomes.getD ((w.head - 1 - i) &&& w.mask) 0 = if call.success then 1 else 0
  duration : w.durations.getD ((w.head - 1 - i) &&& w.mask) 0 = call.durationMs

/-- What one array of the ring says about an entry. -/
theorem cell (holds : w.Holds calls) {i : Nat} (inside : i < w.count) {α : Type} {cells : List α}
    {f : RecordedCall → α} (default : α)
    (array : cells.length = w.capacity ∧ RingBuffer.Recent cells (calls.map f))
    {call : RecordedCall} (entry : calls[calls.length - 1 - i]? = some call) :
    cells.getD ((w.head - 1 - i) &&& w.mask) default = f call := by
  obtain ⟨size, recent⟩ := array
  have count := holds.count
  have read := recent (calls.length - 1 - i) (by rw [List.length_map]; omega)
    (by rw [List.length_map, size]; omega)
  rw [size, List.getElem?_map, entry, Option.map_some] at read
  rw [holds.land, holds.head, List.getD_eq_getElem?_getD, read, Option.getD_some]

theorem reads (holds : w.Holds calls) {i : Nat} (inside : i < w.count) {call : RecordedCall}
    (entry : calls[calls.length - 1 - i]? = some call) : Reads w i call where
  timestamp := holds.cell inside 0 holds.timestamps entry
  outcome := holds.cell inside 0 holds.outcomes entry
  duration := holds.cell inside 0 holds.durations entry

/-- From the newest backwards the ring reads as the last calls. -/
theorem backwards (holds : w.Holds calls) :
    List.Forall₂ (Reads w) (List.range w.count) (calls.drop (calls.length - w.capacity)).reverse := by
  have count := holds.count
  rw [List.forall₂_iff_get]
  constructor
  · rw [List.length_range, List.length_reverse, List.length_drop]
    omega
  · intro i inside _
    rw [List.length_range] at inside
    simp only [List.get_eq_getElem, List.getElem_range, List.getElem_reverse, List.getElem_drop]
    apply holds.reads inside
    rw [List.getElem?_eq_some_iff]
    refine ⟨by omega, ?_⟩
    congr 1
    rw [List.length_drop]
    omega

end FastSlidingWindow.Holds

/-! ## Snapshots -/

/-- One turn of the loop, for an entry that is recent enough. -/
def SnapshotTally.add (tally : SnapshotTally) (call : RecordedCall) : SnapshotTally where
  totalCalls := tally.totalCalls + 1
  successfulCalls := if call.success then tally.successfulCalls + 1 else tally.successfulCalls
  failedCalls := if call.success then tally.failedCalls else tally.failedCalls + 1
  totalDuration := tally.totalDuration + call.durationMs

theorem scan_eq {w : FastSlidingWindow} {is : List Nat} {calls : List RecordedCall}
    (reads : List.Forall₂ (FastSlidingWindow.Holds.Reads w) is calls) (cutoff : Seconds)
    (tally : SnapshotTally) :
    w.scan cutoff is tally =
      (calls.takeWhile fun c => cutoff ≤ c.timestamp).foldl SnapshotTally.add tally := by
  induction reads generalizing tally with
  | nil => rfl
  | @cons i call is calls first later ih =>
      rw [FastSlidingWindow.scan, first.timestamp, List.takeWhile_cons]
      by_cases old : call.timestamp < cutoff
      · simp [old, not_le.mpr old]
      · have one : tally.add call =
            { totalCalls := tally.totalCalls + 1
              successfulCalls :=
                if (if call.success then (1 : UInt8) else 0) = 1 then tally.successfulCalls + 1
                else tally.successfulCalls
              failedCalls :=
                if (if call.success then (1 : UInt8) else 0) = 1 then tally.failedCalls
                else tally.failedCalls + 1
              totalDuration := tally.totalDuration + call.durationMs } := by
          cases success : call.success <;> simp [SnapshotTally.add, success]
        simp only [old, if_false, first.outcome, first.duration, not_lt.mp old, decide_true, if_true,
          List.foldl_cons, ← ih, one]

theorem foldl_add (calls : List RecordedCall) (tally : SnapshotTally) :
    let sums := calls.foldl SnapshotTally.add tally
    sums.totalCalls = tally.totalCalls + calls.length ∧
      sums.successfulCalls = tally.successfulCalls + calls.countP (·.success) ∧
        sums.failedCalls = tally.failedCalls + calls.countP fun c => !c.success := by
  induction calls generalizing tally with
  | nil => exact ⟨rfl, rfl, rfl⟩
  | cons call calls ih =>
      obtain ⟨total, successful, failed⟩ := ih (tally.add call)
      simp only [List.foldl_cons, List.length_cons, List.countP_cons]
      rw [total, successful, failed]
      cases success : call.success <;> simp [SnapshotTally.add, success] <;> omega

/-- On a list in order the recent calls are those at the end. -/
theorem takeWhile_reverse {calls : List RecordedCall} (ordered : InOrder calls) (cutoff : Seconds) :
    calls.reverse.takeWhile (fun c => cutoff ≤ c.timestamp) =
      (calls.filter fun c => cutoff ≤ c.timestamp).reverse := by
  induction calls using List.reverseRecOn with
  | nil => rfl
  | append_singleton calls call ih =>
      obtain ⟨earlier, -, before⟩ := List.pairwise_append.mp ordered
      rw [List.reverse_append, List.reverse_singleton, List.singleton_append, List.takeWhile_cons,
        List.filter_append]
      by_cases recent : cutoff ≤ call.timestamp
      · simp [recent, ih earlier]
      · have old : calls.filter (fun c => cutoff ≤ c.timestamp) = [] := by
          rw [List.filter_eq_nil_iff]
          intro c member
          have earlier := before c member call List.mem_cons_self
          simpa using (earlier.trans_lt (not_le.mp recent))
        simp [recent, old]

theorem snapshot_counts {w : FastSlidingWindow} {calls : List RecordedCall} (holds : w.Holds calls)
    (ordered : InOrder calls) (now : Seconds) :
    (w.snapshot now).counts =
      countCalls (recentCalls w.durationS now (calls.drop (calls.length - w.capacity))) := by
  have kept : InOrder (calls.drop (calls.length - w.capacity)) :=
    ordered.sublist (List.drop_sublist _ _)
  obtain ⟨total, successful, failed⟩ := foldl_add
    (recentCalls w.durationS now (calls.drop (calls.length - w.capacity))).reverse {}
  simp only [FastSnapshot.counts, FastSlidingWindow.snapshot, scan_eq holds.backwards,
    takeWhile_reverse kept]
  simp only [recentCalls] at total successful failed ⊢
  rw [total, successful, failed]
  simp [countCalls]

/-! ## Beside the metrics of a breaker -/

/-- What is asked of both windows. -/
inductive WindowCall where
  | record (call : RecordedCall)
  | snapshot (now : Seconds)

namespace WindowCall

def time : WindowCall → Seconds
  | record call => call.timestamp
  | snapshot now => now

def recorded : WindowCall → Option RecordedCall
  | record call => some call
  | snapshot _ => none

end WindowCall

/-- The calls that were recorded. -/
def recordedCalls (calls : List WindowCall) : List RecordedCall :=
  calls.filterMap WindowCall.recorded

/-- A snapshot changes nothing in a fast window. -/
def FastSlidingWindow.call (w : FastSlidingWindow) : WindowCall → FastSlidingWindow
  | .record call => w.record call
  | .snapshot _ => w

/-- Every failure poisons the health. -/
def SlidingWindowMetrics.call (m : SlidingWindowMetrics) : WindowCall → SlidingWindowMetrics
  | .record call => m.record call.success call.durationMs call.timestamp true
  | .snapshot now => (m.snapshot now).2

/-- How the metrics note a call. -/
def outcomeOf (slowCallDurationMs : ℚ) (call : RecordedCall) : CallOutcome where
  success := call.success
  durationMs := call.durationMs
  timestampMonotonic := call.timestamp
  isSlow := slowCallDurationMs ≤ call.durationMs
  poisonsHealth := true

/-- The metrics have forgotten what was too old at the time of some call, and nothing else. -/
structure SlidingWindowMetrics.Remembers (m : SlidingWindowMetrics) (calls : List WindowCall) : Prop where
  timed : m.windowType = .timeBased
  kept : ∃ early late, recordedCalls calls = early ++ late ∧
    m.samples = late.map (outcomeOf m.slowCallDurationMs) ∧
      ∀ old ∈ early, ∃ call ∈ calls, old.timestamp < call.time - m.windowSize

theorem evictExpired_timed {m : SlidingWindowMetrics} (timed : m.windowType = .timeBased)
    (now : Seconds) :
    m.evictExpired now =
      { m with
        samples := m.samples.dropWhile fun s => s.timestampMonotonic < now - m.windowSize } := by
  rw [SlidingWindowMetrics.evictExpired, timed]

theorem dropWhile_eq_recentCalls {calls : List RecordedCall} (ordered : InOrder calls)
    (duration now : Seconds) :
    (calls.dropWhile fun c => c.timestamp < now - duration) = recentCalls duration now calls := by
  induction calls with
  | nil => rfl
  | cons call calls ih =>
      obtain ⟨later, ordered⟩ := List.pairwise_cons.mp ordered
      rw [List.dropWhile_cons, recentCalls, List.filter_cons]
      by_cases old : call.timestamp < now - duration
      · simp [old, not_le.mpr old, ih ordered, recentCalls]
      · have all : calls.filter (fun c => now - duration ≤ c.timestamp) = calls := by
          rw [List.filter_eq_self]
          intro c member
          exact decide_eq_true ((not_lt.mp old).trans (later c member))
        simp only [old, decide_false, Bool.false_eq_true, if_false, not_lt.mp old, decide_true,
          if_true, all]

namespace SlidingWindowMetrics.Remembers

variable {m : SlidingWindowMetrics} {calls : List WindowCall}

/-- What is evicted at the time of a call is too old then. -/
theorem evict (remembers : m.Remembers calls) {call : WindowCall} (member : call ∈ calls) :
    (m.evictExpired call.time).Remembers calls := by
  obtain ⟨early, late, split, samples, old⟩ := remembers.kept
  rw [evictExpired_timed remembers.timed]
  refine ⟨remembers.timed, early ++ late.takeWhile fun c => c.timestamp < call.time - m.windowSize,
    late.dropWhile fun c => c.timestamp < call.time - m.windowSize, ?_, ?_, ?_⟩
  · rw [List.append_assoc, List.takeWhile_append_dropWhile, split]
  · rw [samples, List.dropWhile_map]
    rfl
  · intro c gone
    cases List.mem_append.mp gone with
    | inl before => exact old c before
    | inr now => exact ⟨call, member, by simpa using List.mem_takeWhile_imp now⟩

theorem snapshot (remembers : m.Remembers calls) (now : Seconds) :
    (m.call (.snapshot now)).Remembers (calls ++ [.snapshot now]) := by
  obtain ⟨early, late, split, samples, old⟩ := remembers.kept
  have noted : m.Remembers (calls ++ [.snapshot now]) := by
    refine ⟨remembers.timed, early, late, ?_, samples, ?_⟩
    · rw [recordedCalls, List.filterMap_append]
      exact (List.append_nil _).trans split
    · intro c gone
      obtain ⟨call, member, before⟩ := old c gone
      exact ⟨call, List.mem_append_left _ member, before⟩
  exact noted.evict (List.mem_append_right calls List.mem_cons_self)

theorem record (remembers : m.Remembers calls) (call : RecordedCall) :
    (m.call (.record call)).Remembers (calls ++ [.record call]) := by
  obtain ⟨early, late, split, samples, old⟩ := remembers.kept
  have noted : SlidingWindowMetrics.Remembers
      { m with samples := m.samples ++ [outcomeOf m.slowCallDurationMs call] }
      (calls ++ [.record call]) := by
    refine ⟨remembers.timed, early, late ++ [call], ?_, ?_, ?_⟩
    · rw [recordedCalls, List.filterMap_append, ← List.append_assoc, ← split]
      rfl
    · simp [samples]
    · intro c gone
      obtain ⟨earlier, member, before⟩ := old c gone
      exact ⟨earlier, List.mem_append_left _ member, before⟩
  exact noted.evict (List.mem_append_right calls List.mem_cons_self)

theorem foldl (remembers : m.Remembers calls) (later : List WindowCall) :
    (later.foldl SlidingWindowMetrics.call m).Remembers (calls ++ later) := by
  induction later generalizing m calls with
  | nil => rwa [List.append_nil]
  | cons call later ih =>
      rw [List.append_cons, List.foldl_cons]
      cases call with
      | record call => exact ih (remembers.record call)
      | snapshot now => exact ih (remembers.snapshot now)

/-- A snapshot that comes no sooner than the calls before it counts the recent ones. -/
theorem counts (remembers : m.Remembers calls) (ordered : InOrder (recordedCalls calls))
    {now : Seconds} (after : ∀ call ∈ calls, call.time ≤ now) :
    (m.snapshot now).1.counts = countCalls (recentCalls m.windowSize now (recordedCalls calls)) := by
  obtain ⟨early, late, split, samples, old⟩ := remembers.kept
  have gone : recentCalls m.windowSize now early = [] := by
    rw [recentCalls, List.filter_eq_nil_iff]
    intro c member
    obtain ⟨call, called, before⟩ := old c member
    have past := after call called
    have stale := before.trans_le (sub_le_sub_right past (m.windowSize : Seconds))
    simpa only [decide_eq_true_eq, not_le] using stale
  have recent : recentCalls m.windowSize now (recordedCalls calls) =
      late.dropWhile fun c => c.timestamp < now - m.windowSize := by
    rw [split] at ordered ⊢
    rw [dropWhile_eq_recentCalls (List.pairwise_append.mp ordered).2.1, recentCalls,
      List.filter_append]
    exact congrArg (· ++ _) gone
  have left : (m.evictExpired now).samples =
      (recentCalls m.windowSize now (recordedCalls calls)).map (outcomeOf m.slowCallDurationMs) := by
    rw [evictExpired_timed remembers.timed, recent, samples, List.dropWhile_map]
    rfl
  simp only [MetricsSnapshot.counts, SlidingWindowMetrics.snapshot, left, countCalls,
    List.length_map, List.countP_map]
  simp [outcomeOf, Function.comp_def]

end SlidingWindowMetrics.Remembers

/-- The fast window has recorded the calls. -/
theorem foldl_call (w : FastSlidingWindow) (calls : List WindowCall) :
    calls.foldl FastSlidingWindow.call w = w.recordAll (recordedCalls calls) := by
  induction calls generalizing w with
  | nil => rfl
  | cons call calls ih =>
      rw [List.foldl_cons, ih]
      cases call <;> rfl

theorem recordAll_frame (w : FastSlidingWindow) (calls : List RecordedCall) :
    (w.recordAll calls).capacity = w.capacity ∧ (w.recordAll calls).durationS = w.durationS := by
  induction calls generalizing w with
  | nil => exact ⟨rfl, rfl⟩
  | cons call calls ih => exact ih (w.record call)

theorem foldl_windowSize (m : SlidingWindowMetrics) (calls : List WindowCall) :
    (calls.foldl SlidingWindowMetrics.call m).windowSize = m.windowSize := by
  have evicts (m : SlidingWindowMetrics) (now : Seconds) :
      (m.evictExpired now).windowSize = m.windowSize := by
    unfold SlidingWindowMetrics.evictExpired
    split <;> rfl
  induction calls generalizing m with
  | nil => rfl
  | cons call calls ih =>
      rw [List.foldl_cons, ih]
      cases call with
      | record call => exact evicts _ _
      | snapshot now => exact evicts _ _

/-- Where the recent calls fit into the ring, they are among the last. -/
theorem recentCalls_lastCalls {capacity : Int} {duration now : Seconds} {calls : List RecordedCall}
    (ordered : InOrder calls)
    (fits : (recentCalls duration now calls).length ≤ roundedCapacity capacity) :
    recentCalls duration now (lastCalls capacity calls) = recentCalls duration now calls := by
  have recent := dropWhile_eq_recentCalls ordered duration now
  let old := calls.takeWhile fun c => c.timestamp < now - duration
  have split : old ++ recentCalls duration now calls = calls := by
    rw [← recent]
    exact List.takeWhile_append_dropWhile
  have sizes := congrArg List.length split
  rw [List.length_append] at sizes
  have stale : recentCalls duration now (old.drop (calls.length - roundedCapacity capacity)) = [] := by
    rw [recentCalls, List.filter_eq_nil_iff]
    intro c member
    have before := List.mem_takeWhile_imp (List.mem_of_mem_drop member)
    simpa only [decide_eq_true_eq, not_le] using before
  have last : lastCalls capacity calls =
      old.drop (calls.length - roundedCapacity capacity) ++ recentCalls duration now calls := by
    rw [← List.drop_append_of_le_length (by omega), split]
    rfl
  rw [last, recentCalls, List.filter_append]
  simp only [recentCalls] at stale ⊢
  rw [stale, List.filter_filter]
  simp

/-- The fast window counts what it is meant to, and what the metrics of a breaker count, as long
    as the ring is large enough for the window. -/
theorem fast_window_refines_list_window (capacity : Int) (duration : Seconds) :
    (∀ calls, InOrder calls → ∀ now,
      (((FastSlidingWindow.new capacity duration).recordAll calls).snapshot now).counts =
        countCalls (recentCalls duration now (lastCalls capacity calls))) ∧
    ∀ (metrics : SlidingWindowMetrics) (calls : List WindowCall) (now : Seconds),
      metrics.windowType = .timeBased → metrics.windowSize = duration → metrics.samples = [] →
      InOrder (recordedCalls calls) → (∀ call ∈ calls, call.time ≤ now) →
      (recentCalls duration now (recordedCalls calls)).length ≤ roundedCapacity capacity →
        ((calls.foldl FastSlidingWindow.call (.new capacity duration)).snapshot now).counts =
          ((calls.foldl SlidingWindowMetrics.call metrics).snapshot now).1.counts := by
  have counted : ∀ calls, InOrder calls → ∀ now,
      (((FastSlidingWindow.new capacity duration).recordAll calls).snapshot now).counts =
        countCalls (recentCalls duration now (lastCalls capacity calls)) := by
    intro calls ordered now
    have holds := (FastSlidingWindow.Holds.new capacity duration).recordAll calls
    obtain ⟨power, span⟩ := recordAll_frame (.new capacity duration) calls
    have rounded : (FastSlidingWindow.new capacity duration).capacity = roundedCapacity capacity :=
      roundUp_eq (.inl rfl)
    rw [snapshot_counts holds ordered, power, span, rounded]
    rfl
  refine ⟨counted, ?_⟩
  intro metrics calls now timed size empty ordered after fits
  have start : metrics.Remembers [] := ⟨timed, [], [], rfl, empty, by simp⟩
  have remembers := start.foldl calls
  have window := foldl_windowSize metrics calls
  rw [foldl_call, counted _ ordered, recentCalls_lastCalls ordered fits,
    remembers.counts ordered after, window, size]
  rfl

end DuraLLM
