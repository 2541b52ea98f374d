import DuraLLM.Breaker.Transitions
import Mathlib.Data.Finset.Card
import Mathlib.Data.List.Perm.Basic

/-! # Probes

Callers acquire permission and report later, each exactly once, in any order
and arbitrarily late.  A permit remembers the half-open episode that admitted
it.  The breaker does not: its counters of probes in flight and of successful
probes take every report that arrives while it is half open, whichever call it
belongs to.  Where no such report comes from an earlier time, the probes in
flight stay within their bound, and only probes close the breaker.
-/

namespace DuraLLM

/-- The permission of one call. `episode` is the half-open episode that admitted
    it, and `none` when the breaker was not half open. -/
structure Permit where
  id : Nat
  episode : Option Nat
  deriving DecidableEq

/-- How many of these calls the current episode has admitted. -/
def BreakerView.count (v : BreakerView) (calls : List Permit) : Nat :=
  calls.countP (·.episode = some v.episode)

inductive BreakerCall where
  | acquire
  /-- The call at this position among the pending ones reports. -/
  | report (index : Nat) (report : Report)
  | observe
  deriving DecidableEq

structure ProbeRun where
  breaker : CircuitBreaker
  granted : Nat := 0
  pending : List Permit := []
  succeeded : List Permit := []

namespace ProbeRun

variable (world : BreakerWorld)

def start (id : String) (config : CircuitBreakerConfig) : ProbeRun where
  breaker := .new id config

/-- The permit a breaker has just granted. -/
def permit (run : ProbeRun) (b : CircuitBreaker) : Permit where
  id := run.granted
  episode := if b.state = .halfOpen then some b.episode else none

def step (run : ProbeRun) : BreakerCall → ProbeRun
  | .acquire =>
      match run.breaker.acquirePermission world with
      | (.ok (), breaker) =>
          { run with
            breaker
            granted := run.granted + 1
            pending := run.permit breaker :: run.pending }
      | (.error _, breaker) => { run with breaker }
  | .report index report =>
      match run.pending[index]? with
      | none => run
      | some permit =>
          { run with
            breaker := run.breaker.report world report
            pending := run.pending.eraseIdx index
            succeeded := if report.IsSuccess then permit :: run.succeeded else run.succeeded }
  | .observe => { run with breaker := (run.breaker.observe world).2 }

def run (r : ProbeRun) (calls : List BreakerCall) : ProbeRun := calls.foldl (step world) r

/-- The calls of the current episode that have not reported yet. -/
def probesInFlight (run : ProbeRun) : Nat := run.breaker.view.count run.pending

/-- A report of a call from before the current episode that takes a probe off
    the counter and leaves the breaker half open. -/
def Misattributes (run : ProbeRun) : BreakerCall → Prop
  | .acquire | .observe => False
  | .report index report => ∃ permit ∈ run.pending[index]?,
      run.breaker.state = .halfOpen ∧ 0 < run.breaker.halfOpenInFlight ∧
        permit.episode ≠ some run.breaker.episode ∧
        report.Lingers run.breaker.config.halfOpenMaxCalls run.breaker.halfOpenSuccesses

/-- A success that is counted as a probe of an episode which did not grant the
    call. -/
def StaleSuccess (run : ProbeRun) : BreakerCall → Prop
  | .acquire | .observe => False
  | .report index report => ∃ permit ∈ run.pending[index]?, report.IsSuccess ∧
      ((run.breaker.state = .open ∧ run.breaker.WaitOver (run.breaker.ticked.now world)) ∨
        (run.breaker.state = .halfOpen ∧
          ¬run.breaker.ProbesTimedOut (run.breaker.ticked.now world) ∧
          permit.episode ≠ some run.breaker.episode))

/-- No call of the run meets the condition. -/
def Never (bad : ProbeRun → BreakerCall → Prop) (r : ProbeRun) : List BreakerCall → Prop
  | [] => True
  | call :: calls => ¬bad r call ∧ (r.step world call).Never bad calls

instance (run : ProbeRun) : (call : BreakerCall) → Decidable (run.Misattributes call)
  | .acquire | .observe => inferInstanceAs (Decidable False)
  | .report index _ => inferInstanceAs (Decidable (∃ permit ∈ run.pending[index]?, _))

instance (run : ProbeRun) : (call : BreakerCall) → Decidable (run.StaleSuccess world call)
  | .acquire | .observe => inferInstanceAs (Decidable False)
  | .report index _ => inferInstanceAs (Decidable (∃ permit ∈ run.pending[index]?, _))

instance decidableNever (bad : ProbeRun → BreakerCall → Prop)
    [∀ run call, Decidable (bad run call)] (r : ProbeRun) :
    (calls : List BreakerCall) → Decidable (r.Never world bad calls)
  | [] => inferInstanceAs (Decidable True)
  | call :: calls =>
      have := decidableNever bad (r.step world call) calls
      inferInstanceAs (Decidable (_ ∧ _))

end ProbeRun

/-! ## The bound -/

/-- The counter of a half-open breaker covers the probes in flight. -/
structure Bounded (maxCalls : Nat) (v : BreakerView) (pending : List Permit) : Prop where
  known : ∀ p ∈ pending, ∀ n, p.episode = some n → n ≤ v.episode
  counted : v.state = .halfOpen → v.count pending ≤ v.inFlight ∧ v.inFlight ≤ maxCalls
  bound : v.count pending ≤ maxCalls

theorem perm_of_reported {pending : List Permit} {index : Nat} {permit : Permit}
    (found : pending[index]? = some permit) :
    pending.Perm (permit :: pending.eraseIdx index) := by
  obtain ⟨inside, rfl⟩ := List.getElem?_eq_some_iff.mp found
  exact (List.getElem_cons_eraseIdx_perm inside).symm

namespace Bounded

variable {world : BreakerWorld} {maxCalls : Nat} {v w c : BreakerView} {pending : List Permit}

theorem leaves (bounded : Bounded maxCalls v pending) (same : w.episode = v.episode)
    (state : w.state ≠ .halfOpen) : Bounded maxCalls w pending where
  known := same ▸ bounded.known
  counted halfOpen := absurd halfOpen state
  bound := by
    simp only [BreakerView.count, same]
    exact bounded.bound

/-- No call can be pending from an episode that has just begun. -/
theorem enters (bounded : Bounded maxCalls v pending) :
    Bounded maxCalls (v.moved .halfOpen).cleared pending := by
  have episode : (v.moved .halfOpen).cleared.episode = v.episode + 1 := v.episode_entered
  have none : (v.moved .halfOpen).cleared.count pending = 0 := by
    simp only [BreakerView.count, List.countP_eq_zero, decide_eq_true_eq, episode]
    intro p member tagged
    have := bounded.known p member _ tagged
    omega
  refine ⟨?_, fun _ => ⟨none.le, Nat.zero_le _⟩, none.le.trans (Nat.zero_le _)⟩
  intro p member n tagged
  rw [episode]
  exact Nat.le_succ_of_le (bounded.known p member n tagged)

theorem check {b : CircuitBreaker} (bounded : Bounded maxCalls b.view pending)
    (check : b.Check world c) : Bounded maxCalls c pending := by
  cases check with
  | stays => exact bounded
  | trips => exact bounded.leaves (b.view.episode_moved (by decide)) nofun
  | enters => exact bounded.enters
  | timesOut => exact bounded.leaves (b.view.episode_moved (by decide)) nofun

theorem admission (bounded : Bounded maxCalls v pending) (id : Nat) (state : v.state ≠ .halfOpen) :
    Bounded maxCalls v (⟨id, none⟩ :: pending) := by
  refine ⟨?_, fun halfOpen => absurd halfOpen state, ?_⟩
  · simpa using bounded.known
  · simpa [BreakerView.count] using bounded.bound

theorem probe (bounded : Bounded maxCalls v pending) (id : Nat) (state : v.state = .halfOpen)
    (free : v.inFlight < maxCalls) :
    Bounded maxCalls { v with inFlight := v.inFlight + 1 } (⟨id, some v.episode⟩ :: pending) := by
  have count : BreakerView.count { v with inFlight := v.inFlight + 1 }
      (⟨id, some v.episode⟩ :: pending) = v.count pending + 1 := by
    rw [BreakerView.count, List.countP_cons_of_pos (by simp [BreakerView.episode])]
    rfl
  have counted := bounded.counted state
  refine ⟨?_, fun _ => ?_, ?_⟩
  · intro p member n tagged
    rcases List.mem_cons.mp member with rfl | older
    · exact (Option.some.inj tagged).ge
    · exact bounded.known p older n tagged
  · rw [count]
    exact ⟨Nat.succ_le_succ counted.1, free⟩
  · rw [count]
    omega

/-- A report: either it is of a probe, or the counter was empty, or the breaker
    does not stay half open. -/
theorem reported (bounded : Bounded maxCalls c pending) {report : Report}
    (done : CircuitBreaker.Reported maxCalls report c v) {index : Nat} {permit : Permit}
    (found : pending[index]? = some permit)
    (attributed : c.state = .halfOpen → 0 < c.inFlight → report.Lingers maxCalls c.successes →
      permit.episode = some c.episode) :
    Bounded maxCalls v (pending.eraseIdx index) := by
  have known : ∀ p ∈ pending.eraseIdx index, ∀ n, p.episode = some n → n ≤ c.episode :=
    fun p member => bounded.known p (List.mem_of_mem_eraseIdx member)
  have split : c.count pending =
      c.count (pending.eraseIdx index) + if permit.episode = some c.episode then 1 else 0 := by
    simp only [BreakerView.count, (perm_of_reported found).countP_eq, List.countP_cons,
      decide_eq_true_eq]
  have rest : Bounded maxCalls c (pending.eraseIdx index) := by
    refine ⟨known, fun state => ?_, ?_⟩
    · have := bounded.counted state
      omega
    · have := bounded.bound
      omega
  cases done with
  | recorded => exact rest
  | tripped => exact rest.leaves (c.episode_moved (by decide)) nofun
  | closed => exact rest.leaves (c.episode_moved (by decide)) nofun
  | reopened => exact rest.leaves (c.episode_moved (by decide)) nofun
  | counted state lingers success failure =>
      have counted := bounded.counted state
      refine ⟨known, fun _ => ?_, rest.bound⟩
      change c.count (pending.eraseIdx index) ≤ c.inFlight - 1 ∧ c.inFlight - 1 ≤ maxCalls
      rcases Nat.eq_zero_or_pos c.inFlight with empty | flying
      · omega
      · rw [if_pos (attributed state flying lingers)] at split
        omega

end Bounded

/-! ## The evidence -/

/-- The counter of successes is covered by probes that have reported success,
    each of them a call of its own. -/
structure Evidenced (maxCalls : Nat) (v : BreakerView) (granted : Nat)
    (pending succeeded : List Permit) : Prop where
  distinct : (pending ++ succeeded).Nodup
  issued : ∀ p ∈ pending ++ succeeded, p.id < granted
  counted : v.state = .halfOpen → v.successes ≤ v.count succeeded
  closed : v.moves.head? = some (.halfOpen, .closed) → maxCalls ≤ v.count succeeded

namespace Evidenced

variable {world : BreakerWorld} {maxCalls granted : Nat} {v c : BreakerView}
  {pending succeeded : List Permit}

/-- A transition other than the closing one. -/
theorem moves (evidenced : Evidenced maxCalls v granted pending succeeded)
    {w : BreakerView} (other : w.moves.head? ≠ some (.halfOpen, .closed))
    (fresh : w.state = .halfOpen → w.successes = 0) :
    Evidenced maxCalls w granted pending succeeded where
  distinct := evidenced.distinct
  issued := evidenced.issued
  counted halfOpen := (fresh halfOpen).le.trans (Nat.zero_le _)
  closed newest := absurd newest other

theorem check {b : CircuitBreaker} (evidenced : Evidenced maxCalls b.view granted pending succeeded)
    (check : b.Check world c) : Evidenced maxCalls c granted pending succeeded := by
  cases check with
  | stays => exact evidenced
  | trips closed => exact evidenced.moves (by simp [BreakerView.moved]) nofun
  | enters opened waited =>
      exact evidenced.moves (by simp [BreakerView.moved, BreakerView.cleared]) fun _ => rfl
  | timesOut probing late => exact evidenced.moves (by simp [BreakerView.moved]) nofun

theorem admission (evidenced : Evidenced maxCalls v granted pending succeeded)
    (episode : Option Nat) :
    Evidenced maxCalls v (granted + 1) (⟨granted, episode⟩ :: pending) succeeded := by
  refine ⟨?_, ?_, evidenced.counted, evidenced.closed⟩
  · refine List.nodup_cons.mpr ⟨fun member => ?_, evidenced.distinct⟩
    exact absurd (evidenced.issued _ member) (lt_irrefl _)
  · intro p member
    rcases List.mem_cons.mp member with rfl | older
    · exact Nat.lt_succ_self _
    · exact Nat.lt_succ_of_lt (evidenced.issued p older)

/-- A report takes a call off the pending ones; a success keeps it as evidence. -/
theorem settle (evidenced : Evidenced maxCalls v granted pending succeeded) (report : Report)
    {index : Nat} {permit : Permit} (found : pending[index]? = some permit) :
    let evidence := if report.IsSuccess then permit :: succeeded else succeeded
    (pending.eraseIdx index ++ evidence).Nodup ∧
      ∀ p ∈ pending.eraseIdx index ++ evidence, p.id < granted := by
  have moved : (pending ++ succeeded).Perm
      (pending.eraseIdx index ++ permit :: succeeded) :=
    ((perm_of_reported found).append_right _).trans List.perm_middle.symm
  have distinct := moved.nodup_iff.mp evidenced.distinct
  have issued : ∀ p ∈ pending.eraseIdx index ++ permit :: succeeded, p.id < granted :=
    fun p member => evidenced.issued p (moved.mem_iff.mpr member)
  intro evidence
  have sub : (pending.eraseIdx index ++ evidence).Sublist
      (pending.eraseIdx index ++ permit :: succeeded) := by
    refine List.Sublist.append_left ?_ _
    simp only [evidence]
    split
    · exact List.Sublist.refl _
    · exact List.sublist_cons_self _ _
  exact ⟨distinct.sublist sub, fun p member => issued p (sub.subset member)⟩

theorem reported (evidenced : Evidenced maxCalls c granted pending succeeded) {report : Report}
    (done : CircuitBreaker.Reported maxCalls report c v) {index : Nat} {permit : Permit}
    (found : pending[index]? = some permit)
    (attributed : c.state = .halfOpen → report.IsSuccess → permit.episode = some c.episode) :
    Evidenced maxCalls v granted (pending.eraseIdx index)
      (if report.IsSuccess then permit :: succeeded else succeeded) := by
  obtain ⟨distinct, issued⟩ := evidenced.settle report found
  have grows : c.count succeeded ≤
      c.count (if report.IsSuccess then permit :: succeeded else succeeded) := by
    split
    · exact (List.sublist_cons_self _ _).countP_le
    · exact le_refl _
  have probe : c.state = .halfOpen → report.IsSuccess →
      c.count (if report.IsSuccess then permit :: succeeded else succeeded) =
        c.count succeeded + 1 := by
    intro state success
    rw [if_pos success, BreakerView.count,
      List.countP_cons_of_pos (by simpa using attributed state success)]
    rfl
  have kept : Evidenced maxCalls c granted (pending.eraseIdx index)
      (if report.IsSuccess then permit :: succeeded else succeeded) :=
    ⟨distinct, issued, fun state => (evidenced.counted state).trans grows,
      fun newest => (evidenced.closed newest).trans grows⟩
  cases done with
  | recorded => exact kept
  | tripped state =>
      exact kept.moves (by simp [BreakerView.moved, state]) (by simp [BreakerView.moved])
  | reopened state failure =>
      exact kept.moves (by simp [BreakerView.moved, BreakerView.cleared])
        (by simp [BreakerView.moved, BreakerView.cleared])
  | counted state lingers success failure =>
      refine ⟨distinct, issued, fun _ => ?_, fun newest => (evidenced.closed newest).trans grows⟩
      have counted := evidenced.counted state
      by_cases succeeds : report.IsSuccess
      · rw [success succeeds]
        exact (Nat.succ_le_succ counted).trans (probe state succeeds).ge
      · rw [failure succeeds]
        exact counted.trans grows
  | closed state success enough =>
      refine ⟨distinct, issued, by simp [BreakerView.moved, BreakerView.cleared], fun _ => ?_⟩
      have counted := evidenced.counted state
      have episode : (c.moved .closed).cleared.episode = c.episode := c.episode_moved (by decide)
      simp only [BreakerView.count, episode]
      exact enough.trans ((Nat.succ_le_succ counted).trans (probe state success).ge)

/-- As many different calls as the breaker asks for. -/
theorem calls (evidenced : Evidenced maxCalls v granted pending succeeded)
    (newest : v.moves.head? = some (.halfOpen, .closed)) :
    ∃ calls : Finset Permit, calls.card = maxCalls ∧
      ∀ call ∈ calls, call ∈ succeeded ∧ call.episode = some v.episode := by
  have distinct : succeeded.Nodup := (List.nodup_append.mp evidenced.distinct).2.1
  have card : (succeeded.filter (·.episode = some v.episode)).toFinset.card =
      v.count succeeded := by
    rw [List.toFinset_card_of_nodup (distinct.filter _), ← List.countP_eq_length_filter]
    rfl
  obtain ⟨calls, sub, size⟩ := Finset.exists_subset_card_eq
    (card.symm ▸ evidenced.closed newest)
  refine ⟨calls, size, ?_⟩
  intro call member
  simpa using List.mem_toFinset.mp (sub member)

end Evidenced

/-! ## Runs -/

namespace ProbeRun

variable {world : BreakerWorld}

variable (world) in
/-- What asking for permission does to a run. -/
theorem step_acquire (run : ProbeRun) :
    ∃ c, run.breaker.Check world c ∧
      ((run.step world .acquire).breaker.view = c ∧
          run.step world .acquire = { run with breaker := (run.step world .acquire).breaker } ∨
        ∃ episode, (run.step world .acquire).pending = ⟨run.granted, episode⟩ :: run.pending ∧
          (run.step world .acquire).granted = run.granted + 1 ∧
          (run.step world .acquire).succeeded = run.succeeded ∧
          (c.state ≠ .halfOpen ∧ episode = none ∧ (run.step world .acquire).breaker.view = c ∨
            c.state = .halfOpen ∧ episode = some c.episode ∧
              c.inFlight < run.breaker.config.halfOpenMaxCalls ∧
              (run.step world .acquire).breaker.view = { c with inFlight := c.inFlight + 1 })) := by
  obtain ⟨c, check, acquired⟩ := run.breaker.acquirePermission_acquired world
  refine ⟨c, check, ?_⟩
  simp only [step]
  generalize run.breaker.acquirePermission world = answer at acquired
  obtain ⟨answer, b⟩ := answer
  simp only at acquired
  generalize seen : b.view = v at acquired
  have state : b.state = v.state := congrArg BreakerView.state seen
  have episode : b.episode = v.episode := congrArg BreakerView.episode seen
  cases acquired with
  | refused e => exact .inl ⟨seen, rfl⟩
  | admitted other =>
      refine .inr ⟨none, ?_, rfl, rfl, .inl ⟨other, rfl, seen⟩⟩
      simp only [permit, state, if_neg other]
  | probe halfOpen free =>
      refine .inr ⟨some c.episode, ?_, rfl, rfl, .inr ⟨halfOpen, rfl, free, seen⟩⟩
      simp only [permit, state, if_pos halfOpen, episode]
      rfl

theorem step_config (run : ProbeRun) (call : BreakerCall) :
    (run.step world call).breaker.config = run.breaker.config := by
  cases call with
  | acquire =>
      have config := run.breaker.acquirePermission_config world
      simp only [step]
      generalize run.breaker.acquirePermission world = answer at config
      obtain ⟨answer, b⟩ := answer
      cases answer <;> exact config
  | report index report =>
      simp only [step]
      split
      · rfl
      · exact run.breaker.report_config world report
  | observe => exact run.breaker.checkAndUpdateState_config world

theorem run_config (r : ProbeRun) (calls : List BreakerCall) :
    (r.run world calls).breaker.config = r.breaker.config := by
  induction calls generalizing r with
  | nil => rfl
  | cons call calls ih => exact (ih _).trans (r.step_config call)

/-- The probes in flight are within the bound. -/
abbrev IsBounded (run : ProbeRun) : Prop :=
  Bounded run.breaker.config.halfOpenMaxCalls run.breaker.view run.pending

theorem IsBounded.step {run : ProbeRun} (bounded : run.IsBounded) {call : BreakerCall}
    (spares : ¬run.Misattributes call) : (run.step world call).IsBounded := by
  unfold IsBounded
  rw [step_config]
  cases call with
  | acquire =>
      obtain ⟨c, check, ⟨seen, rest⟩ | ⟨episode, pending, _, _, admitted⟩⟩ :=
        run.step_acquire world
      · rw [seen, rest]
        exact Bounded.check bounded check
      · rw [pending]
        rcases admitted with ⟨other, rfl, seen⟩ | ⟨halfOpen, rfl, free, seen⟩
        · rw [seen]
          exact (Bounded.check bounded check).admission _ other
        · rw [seen]
          exact (Bounded.check bounded check).probe _ halfOpen free
  | report index report =>
      simp only [ProbeRun.step]
      split
      · exact bounded
      · next permit found =>
        obtain ⟨c, check, done⟩ := run.breaker.report_reported world report
        refine (Bounded.check (b := run.breaker.ticked) bounded check).reported done found ?_
        intro state flying lingers
        -- A probe in flight is one of an episode that was there before the check.
        cases check with
        | stays =>
            by_contra stale
            exact spares ⟨permit, found, state, flying, stale, lingers⟩
        | trips | timesOut => cases state
        | enters => exact absurd flying (lt_irrefl 0)
  | observe => exact Bounded.check bounded (run.breaker.checkAndUpdateState_check world)

theorem IsBounded.run {r : ProbeRun} (bounded : r.IsBounded) (calls : List BreakerCall)
    (spares : r.Never world Misattributes calls) : (r.run world calls).IsBounded := by
  induction calls generalizing r with
  | nil => exact bounded
  | cons call calls ih => exact ih (bounded.step spares.1) spares.2

abbrev IsEvidenced (run : ProbeRun) : Prop :=
  Evidenced run.breaker.config.halfOpenMaxCalls run.breaker.view run.granted run.pending
    run.succeeded

theorem IsEvidenced.step {run : ProbeRun} (evidenced : run.IsEvidenced) {call : BreakerCall}
    (spares : ¬run.StaleSuccess world call) : (run.step world call).IsEvidenced := by
  unfold IsEvidenced
  rw [step_config]
  cases call with
  | acquire =>
      obtain ⟨c, check, ⟨seen, rest⟩ | ⟨episode, pending, granted, succeeded, admitted⟩⟩ :=
        run.step_acquire world
      · rw [seen, rest]
        exact Evidenced.check evidenced check
      · rw [pending, granted, succeeded]
        have kept := (Evidenced.check evidenced check).admission episode
        rcases admitted with ⟨_, _, seen⟩ | ⟨_, _, _, seen⟩
        · rw [seen]
          exact kept
        · rw [seen]
          exact ⟨kept.distinct, kept.issued, kept.counted, kept.closed⟩
  | report index report =>
      simp only [ProbeRun.step]
      split
      · exact evidenced
      · next permit found =>
        obtain ⟨c, check, done⟩ := run.breaker.report_reported world report
        refine (Evidenced.check (b := run.breaker.ticked) evidenced check).reported done found ?_
        intro state success
        cases check with
        | stays waiting probing =>
            by_contra stale
            exact spares ⟨permit, found, success, .inr ⟨state, probing state, stale⟩⟩
        | trips | timesOut => cases state
        | enters opened waited => exact absurd ⟨permit, found, success, .inl ⟨opened, waited⟩⟩ spares
  | observe => exact Evidenced.check evidenced (run.breaker.checkAndUpdateState_check world)

theorem IsEvidenced.run {r : ProbeRun} (evidenced : r.IsEvidenced) (calls : List BreakerCall)
    (spares : r.Never world (StaleSuccess world) calls) : (r.run world calls).IsEvidenced := by
  induction calls generalizing r with
  | nil => exact evidenced
  | cons call calls ih => exact ih (evidenced.step spares.1) spares.2

end ProbeRun

/-- The probes in flight stay within `half_open_max_calls` in every run in which
    no report from before the episode is taken for that of a probe. -/
theorem probes_within_bound (world : BreakerWorld) (id : String) (config : CircuitBreakerConfig)
    (calls : List BreakerCall)
    (spares : (ProbeRun.start id config).Never world ProbeRun.Misattributes calls) :
    ((ProbeRun.start id config).run world calls).probesInFlight ≤ config.halfOpenMaxCalls := by
  have start : (ProbeRun.start id config).IsBounded :=
    ⟨by simp [ProbeRun.start], nofun, by simp [ProbeRun.start, BreakerView.count]⟩
  have bounded := (start.run calls spares).bound
  rwa [ProbeRun.run_config] at bounded

/-- The clock stands until the `n`-th reading, and has passed the wait after it. -/
private def waitAfter (n : Nat) : BreakerWorld where
  clock k := if k < n then 0 else 31

private theorem waitAfter_monotone (n : Nat) : Monotone (waitAfter n).clock := by
  intro j k le
  simp only [waitAfter]
  split_ifs <;> first | omega | decide

/-- One failure opens the breaker. -/
private def touchy (halfOpenMaxCalls : Nat) : CircuitBreakerConfig where
  minimumNumberOfCalls := 1
  halfOpenMaxCalls := halfOpenMaxCalls

private def failed : Report := .failure 100 none none

theorem probes_within_bound_two :
    ((ProbeRun.start "a" (touchy 2)).run (waitAfter 4)
      [.acquire, .report 0 failed, .acquire, .acquire, .acquire]).probesInFlight ≤ 2 :=
  probes_within_bound (waitAfter 4) "a" (touchy 2) _ (by decide +kernel)

/-- A call admitted before the outage reports while two probes are in flight,
    and a third probe is admitted. -/
theorem late_report_admits_third_probe :
    ¬ ∀ (world : BreakerWorld) (id : String) (config : CircuitBreakerConfig)
        (calls : List BreakerCall), Monotone world.clock → 1 ≤ config.halfOpenMaxCalls →
        ((ProbeRun.start id config).run world calls).probesInFlight ≤ config.halfOpenMaxCalls := by
  intro claim
  have bound := claim (waitAfter 5) "a" (touchy 2)
    [.acquire, .acquire, .report 0 failed, .acquire, .acquire, .report 2 (.success 50), .acquire]
    (waitAfter_monotone 5) (by decide)
  exact absurd bound (by decide +kernel)

/-- The breaker closes only on the evidence of its probes: whenever its newest
    transition is the closing one, as many different calls as
    `half_open_max_calls` says were admitted in that episode and have reported
    success. -/
theorem closed_on_probe_evidence (world : BreakerWorld) (id : String)
    (config : CircuitBreakerConfig) (calls : List BreakerCall)
    (spares : (ProbeRun.start id config).Never world (ProbeRun.StaleSuccess world) calls) :
    let run := (ProbeRun.start id config).run world calls
    run.breaker.view.moves.head? = some (.halfOpen, .closed) →
      ∃ probes : Finset Permit, probes.card = config.halfOpenMaxCalls ∧
        ∀ call ∈ probes, call ∈ run.succeeded ∧ call.episode = some run.breaker.episode := by
  intro run newest
  have start : (ProbeRun.start id config).IsEvidenced :=
    ⟨by simp [ProbeRun.start], by simp [ProbeRun.start], nofun,
      by simp [ProbeRun.start, CircuitBreaker.new, CircuitBreaker.view]⟩
  have config' : run.breaker.config = config := ProbeRun.run_config _ calls
  have found := (start.run calls spares).calls newest
  rwa [config'] at found

theorem closed_on_probe_evidence_one :
    let run := (ProbeRun.start "a" (touchy 1)).run (waitAfter 4)
      [.acquire, .report 0 failed, .acquire, .report 0 (.success 50)]
    run.breaker.view.moves.head? = some (.halfOpen, .closed) ∧
      ∃ probes : Finset Permit, probes.card = 1 ∧
        ∀ call ∈ probes, call ∈ run.succeeded ∧ call.episode = some run.breaker.episode :=
  ⟨by decide +kernel, closed_on_probe_evidence (waitAfter 4) "a" (touchy 1) _ (by decide +kernel)
    (by decide +kernel)⟩

/-- A call admitted before the outage reports success after the wait, and the
    breaker closes without a single probe. -/
theorem late_success_closes :
    ¬ ∀ (world : BreakerWorld) (id : String) (config : CircuitBreakerConfig)
        (calls : List BreakerCall), Monotone world.clock → 1 ≤ config.halfOpenMaxCalls →
        let run := (ProbeRun.start id config).run world calls
        run.breaker.view.moves.head? = some (.halfOpen, .closed) →
          ∃ probes : Finset Permit, probes.card = config.halfOpenMaxCalls ∧
            ∀ call ∈ probes, call ∈ run.succeeded ∧ call.episode = some run.breaker.episode := by
  intro claim
  obtain ⟨probes, card, evidence⟩ := claim (waitAfter 5) "a" (touchy 1)
    [.acquire, .acquire, .report 0 failed, .report 0 (.success 50)] (waitAfter_monotone 5)
    (by decide) (by decide +kernel)
  have one : probes.card = 1 := card
  obtain ⟨call, member⟩ := Finset.card_pos.mp (one ▸ Nat.one_pos)
  have none : ∀ call ∈ ((ProbeRun.start "a" (touchy 1)).run (waitAfter 5)
      [.acquire, .acquire, .report 0 failed, .report 0 (.success 50)]).succeeded,
      call.episode ≠ some ((ProbeRun.start "a" (touchy 1)).run (waitAfter 5)
        [.acquire, .acquire, .report 0 failed, .report 0 (.success 50)]).breaker.episode := by
    decide +kernel
  exact none call (evidence call member).1 (evidence call member).2

end DuraLLM
