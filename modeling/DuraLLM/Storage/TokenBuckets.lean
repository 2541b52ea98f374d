import DuraLLM.Lib.Dict
import DuraLLM.Models
import Mathlib.Tactic.Linarith
import Mathlib.Algebra.Order.BigOperators.Group.List

/-! # Token buckets

`consume_tokens` of the cluster store.  A bucket is refilled when a call asks
for tokens, and written back only when the call gets them.
-/

namespace DuraLLM

structure TokenBucket where
  tokens : ℚ
  lastRefill : Seconds

/-- One call of `consume_tokens`. -/
structure ConsumeCall where
  now : Seconds
  key : String
  tokens : ℚ
  capacity : ℚ
  refillRatePerSec : ℚ

abbrev TokenBuckets := Dict String TokenBucket

namespace TokenBuckets

/-- The tokens of the bucket at the time of the call. -/
def currentTokens (bucket : Option TokenBucket) (call : ConsumeCall) : ℚ :=
  match bucket with
  | none => call.capacity
  | some bucket =>
      let elapsed := max 0 (call.now - bucket.lastRefill)
      min call.capacity (bucket.tokens + elapsed * call.refillRatePerSec)

def consumeTokens (buckets : TokenBuckets) (call : ConsumeCall) : Bool × TokenBuckets :=
  let current := currentTokens (buckets.get call.key) call
  if call.tokens ≤ current then
    (true, buckets.set call.key { tokens := current - call.tokens, lastRefill := call.now })
  else (false, buckets)

def run (calls : List ConsumeCall) : TokenBuckets :=
  calls.foldl (fun buckets call => (buckets.consumeTokens call).2) Dict.empty

/-- The calls that got their tokens, in order. -/
def granted (buckets : TokenBuckets) : List ConsumeCall → List ConsumeCall
  | [] => []
  | call :: calls =>
      let (answer, after) := buckets.consumeTokens call
      if answer then call :: granted after calls else granted after calls

/-- What the calls of a key got in the time from `start` to `stop`. -/
def grantedWithin (buckets : TokenBuckets) (key : String) (start stop : Seconds)
    (calls : List ConsumeCall) : ℚ :=
  ((buckets.granted calls).map fun call =>
    if call.key = key ∧ start ≤ call.now ∧ call.now ≤ stop then call.tokens else 0).sum

/-! ## One call -/

theorem consumeTokens_refused {buckets : TokenBuckets} {call : ConsumeCall}
    (refused : (buckets.consumeTokens call).1 = false) :
    (buckets.consumeTokens call).2 = buckets := by
  simp only [consumeTokens] at refused ⊢
  split
  · next enough => simp [enough] at refused
  · rfl

theorem consumeTokens_other (buckets : TokenBuckets) {call : ConsumeCall} {key : String}
    (other : call.key ≠ key) : (buckets.consumeTokens call).2.get key = buckets.get key := by
  simp only [consumeTokens]
  split
  · exact Dict.get_set_ne _ _ (Ne.symm other)
  · rfl

/-- A call on the key that is granted, and what it leaves. -/
theorem consumeTokens_granted {buckets : TokenBuckets} {call : ConsumeCall}
    (granted : (buckets.consumeTokens call).1 = true) :
    call.tokens ≤ currentTokens (buckets.get call.key) call ∧
      (buckets.consumeTokens call).2.get call.key = some
        { tokens := currentTokens (buckets.get call.key) call - call.tokens
          lastRefill := call.now } := by
  simp only [consumeTokens] at granted ⊢
  split
  · next enough => exact ⟨enough, Dict.get_set_self _ _ _⟩
  · next short => simp [short] at granted

theorem currentTokens_le (bucket : Option TokenBucket) (call : ConsumeCall) :
    currentTokens bucket call ≤ call.capacity := by
  cases bucket with
  | none => exact le_refl _
  | some bucket => exact min_le_left _ _

/-- A bucket gains at most its rate. -/
theorem currentTokens_le_refill {bucket : TokenBucket} {call : ConsumeCall}
    (later : bucket.lastRefill ≤ call.now) :
    currentTokens (some bucket) call ≤
      bucket.tokens + (call.now - bucket.lastRefill) * call.refillRatePerSec := by
  have elapsed : max 0 (call.now - bucket.lastRefill) = call.now - bucket.lastRefill :=
    max_eq_right (sub_nonneg.mpr later)
  simp only [currentTokens, elapsed]
  exact min_le_right _ _

/-! ## Runs -/

section Runs

variable {key : String} {capacity rate : ℚ}

/-- The key is used with one capacity and one rate, and nobody asks for a
    negative amount of it. -/
def Steady (key : String) (capacity rate : ℚ) (calls : List ConsumeCall) : Prop :=
  ∀ call ∈ calls, call.key = key →
    call.capacity = capacity ∧ call.refillRatePerSec = rate ∧ 0 ≤ call.tokens

/-- The level of the bucket is between nothing and the capacity. -/
def Level (key : String) (capacity : ℚ) (buckets : TokenBuckets) : Prop :=
  ∀ bucket, buckets.get key = some bucket → 0 ≤ bucket.tokens ∧ bucket.tokens ≤ capacity

theorem Level.step {buckets : TokenBuckets} (level : Level key capacity buckets)
    {call : ConsumeCall}
    (steady : call.key = key → call.capacity = capacity ∧ 0 ≤ call.tokens) :
    Level key capacity (buckets.consumeTokens call).2 := by
  by_cases same : call.key = key
  · subst same
    obtain ⟨rfl, amount⟩ := steady rfl
    cases answer : (buckets.consumeTokens call).1 with
    | false =>
        rw [consumeTokens_refused answer]
        exact level
    | true =>
        obtain ⟨enough, left⟩ := consumeTokens_granted answer
        have full := currentTokens_le (buckets.get call.key) call
        intro bucket found
        obtain rfl := Option.some.inj (left.symm.trans found)
        constructor
        · exact sub_nonneg.mpr enough
        · change currentTokens (buckets.get call.key) call - call.tokens ≤ call.capacity
          linarith
  · intro bucket found
    rw [consumeTokens_other buckets same] at found
    exact level bucket found

theorem Level.run {calls : List ConsumeCall} {rate : ℚ} (steady : Steady key capacity rate calls) :
    Level key capacity (run calls) := by
  have folds : ∀ (calls : List ConsumeCall) (buckets : TokenBuckets),
      Steady key capacity rate calls → Level key capacity buckets →
      Level key capacity (calls.foldl (fun buckets call => (buckets.consumeTokens call).2) buckets) := by
    intro calls
    induction calls with
    | nil => exact fun buckets _ level => level
    | cons call calls ih =>
        intro buckets steady level
        apply ih _ fun later member => steady later (List.mem_cons_of_mem _ member)
        apply level.step
        intro same
        obtain ⟨full, _, amount⟩ := steady call List.mem_cons_self same
        exact ⟨full, amount⟩
  exact folds calls _ steady (by simp [Level])

variable {start stop : Seconds}

/-- The calls that come later get nothing within the time. -/
theorem grantedWithin_late {calls : List ConsumeCall} (key : String) (start : Seconds)
    (buckets : TokenBuckets)
    (late : ∀ call ∈ calls, stop < call.now) :
    buckets.grantedWithin key start stop calls = 0 := by
  unfold grantedWithin
  induction calls generalizing buckets with
  | nil => rfl
  | cons call calls ih =>
      have rest := ih (buckets.consumeTokens call).2
        fun later member => late later (List.mem_cons_of_mem _ member)
      have outside : ¬call.now ≤ stop := not_le.mpr (late call List.mem_cons_self)
      simp only [granted]
      split
      · simpa [outside] using rest
      · exact rest

/-- One call and the rest. -/
theorem grantedWithin_cons (buckets : TokenBuckets) (call : ConsumeCall)
    (calls : List ConsumeCall) :
    buckets.grantedWithin key start stop (call :: calls) =
      (if (buckets.consumeTokens call).1 ∧ call.key = key ∧ start ≤ call.now ∧ call.now ≤ stop
        then call.tokens else 0) +
      (buckets.consumeTokens call).2.grantedWithin key start stop calls := by
  unfold grantedWithin
  simp only [granted]
  cases (buckets.consumeTokens call).1 <;> simp

/-- The rest of a run gets at most what is in the bucket and what it gains. -/
theorem grantedWithin_le_level {calls : List ConsumeCall} (start : Seconds)
    {buckets : TokenBuckets} {bucket : TokenBucket} (refills : 0 ≤ rate) (found : buckets.get key = some bucket)
    (held : 0 ≤ bucket.tokens) (inTime : bucket.lastRefill ≤ stop)
    (clock : (calls.map (·.now)).Pairwise (· ≤ ·))
    (later : ∀ call ∈ calls, bucket.lastRefill ≤ call.now)
    (steady : Steady key capacity rate calls) :
    buckets.grantedWithin key start stop calls ≤
      bucket.tokens + rate * (stop - bucket.lastRefill) := by
  induction calls generalizing buckets bucket with
  | nil =>
      have gain := mul_nonneg refills (sub_nonneg.mpr inTime)
      change (0 : ℚ) ≤ _
      linarith
  | cons call calls ih =>
      simp only [List.map_cons, List.pairwise_cons, List.mem_map, forall_exists_index, and_imp,
        forall_apply_eq_imp_iff₂] at clock
      have after := later call List.mem_cons_self
      have restSteady : Steady key capacity rate calls :=
        fun call member => steady call (List.mem_cons_of_mem _ member)
      have restLater : ∀ call ∈ calls, bucket.lastRefill ≤ call.now :=
        fun call member => later call (List.mem_cons_of_mem _ member)
      rw [grantedWithin_cons]
      by_cases same : call.key = key
      · subst same
        obtain ⟨full, refill, amount⟩ := steady call List.mem_cons_self rfl
        cases answer : (buckets.consumeTokens call).1 with
        | false =>
            rw [consumeTokens_refused answer]
            simpa using ih found held inTime clock.2 restLater restSteady
        | true =>
            by_cases within : call.now ≤ stop
            · obtain ⟨enough, left⟩ := consumeTokens_granted answer
              have refilled := currentTokens_le_refill after
              rw [found] at enough left
              rw [refill] at refilled
              have rest := ih left (sub_nonneg.mpr enough) within clock.2 clock.1 restSteady
              have mine : (if (true = true) ∧ call.key = call.key ∧ start ≤ call.now ∧
                  call.now ≤ stop then call.tokens else 0) ≤ call.tokens := by
                split
                · exact le_refl _
                · exact amount
              -- what is granted now is taken from the refilled bucket
              linarith
            · have tooLate := not_le.mp within
              have none := grantedWithin_late call.key start
                (buckets.consumeTokens call).2 fun later member => tooLate.trans_le (clock.1 later member)
              have gain := mul_nonneg refills (sub_nonneg.mpr inTime)
              rw [none]
              simp only [within, and_false, if_false, add_zero]
              linarith
      · have kept := consumeTokens_other buckets same
        rw [found] at kept
        simpa [same] using ih kept held inTime clock.2 restLater restSteady

/-- The bound for any span of time, whatever the bucket holds before it. -/
theorem grantedWithin_le {calls : List ConsumeCall} {buckets : TokenBuckets}
    (holds : 0 ≤ capacity) (refills : 0 ≤ rate) (inTime : start ≤ stop)
    (clock : (calls.map (·.now)).Pairwise (· ≤ ·)) (steady : Steady key capacity rate calls) :
    buckets.grantedWithin key start stop calls ≤ capacity + rate * (stop - start) := by
  have gain := mul_nonneg refills (sub_nonneg.mpr inTime)
  induction calls generalizing buckets with
  | nil =>
      change (0 : ℚ) ≤ _
      linarith
  | cons call calls ih =>
      simp only [List.map_cons, List.pairwise_cons, List.mem_map, forall_exists_index, and_imp,
        forall_apply_eq_imp_iff₂] at clock
      have restSteady : Steady key capacity rate calls :=
        fun call member => steady call (List.mem_cons_of_mem _ member)
      rw [grantedWithin_cons]
      by_cases counts : (buckets.consumeTokens call).1 = true ∧ call.key = key ∧
          start ≤ call.now ∧ call.now ≤ stop
      · obtain ⟨answer, rfl, since, within⟩ := counts
        obtain ⟨full, refill, _⟩ := steady call List.mem_cons_self rfl
        obtain ⟨enough, left⟩ := consumeTokens_granted answer
        have rest := grantedWithin_le_level start refills left (sub_nonneg.mpr enough)
          within clock.2 clock.1 restSteady
        have capped := currentTokens_le (buckets.get call.key) call
        have shorter : rate * (stop - call.now) ≤ rate * (stop - start) :=
          mul_le_mul_of_nonneg_left (by linarith) refills
        simp only [answer, since, within, and_self, if_true]
        rw [full] at capped
        linarith
      · rw [if_neg counts, zero_add]
        exact ih clock.2 restSteady

/-- Token buckets bound the rate: the level stays between nothing and the
    capacity, no span of time gets more than a full bucket and what it gains in
    that time, and a refused call leaves the buckets as they were. -/
theorem token_bucket_bounds_rate {calls : List ConsumeCall} (holds : 0 ≤ capacity)
    (refills : 0 ≤ rate) (clock : (calls.map (·.now)).Pairwise (· ≤ ·))
    (steady : Steady key capacity rate calls) :
    (∀ bucket, (run calls).get key = some bucket →
      0 ≤ bucket.tokens ∧ bucket.tokens ≤ capacity) ∧
    (∀ start stop, start ≤ stop →
      grantedWithin Dict.empty key start stop calls ≤ capacity + rate * (stop - start)) ∧
    ∀ call, ((run calls).consumeTokens call).1 = false →
      ((run calls).consumeTokens call).2 = run calls := by
  refine ⟨Level.run steady, ?_, ?_⟩
  · intro start stop inTime
    exact grantedWithin_le holds refills inTime clock steady
  · intro call refused
    exact consumeTokens_refused refused

/-- A bucket of five tokens that gains one each second: seven tokens within two
    seconds. -/
private def burst : List ConsumeCall :=
  [⟨0, "key", 5, 5, 1⟩, ⟨1, "key", 2, 5, 1⟩, ⟨1, "other", 9, 9, 0⟩, ⟨2, "key", 2, 5, 1⟩]

theorem token_bucket_bounds_rate_burst :
    (∀ bucket, (run burst).get "key" = some bucket →
      0 ≤ bucket.tokens ∧ bucket.tokens ≤ 5) ∧
    (∀ start stop, start ≤ stop →
      grantedWithin Dict.empty "key" start stop burst ≤ 5 + 1 * (stop - start)) ∧
    ∀ call, ((run burst).consumeTokens call).1 = false →
      ((run burst).consumeTokens call).2 = run burst :=
  token_bucket_bounds_rate (by decide) (by decide) (by decide +kernel) (by
    intro call member same
    simp only [burst, List.mem_cons, List.not_mem_nil, or_false] at member
    rcases member with rfl | rfl | rfl | rfl
    · exact ⟨rfl, rfl, by norm_num⟩
    · exact ⟨rfl, rfl, by norm_num⟩
    · exact absurd same (by decide)
    · exact ⟨rfl, rfl, by norm_num⟩)

end Runs

end TokenBuckets

end DuraLLM
