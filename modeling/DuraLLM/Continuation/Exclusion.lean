import DuraLLM.Continuation.Calls
import Mathlib.Algebra.Order.Group.MinMax

/-! # The live turn of a session

A turn is live from `begin_turn` until it is completed or interrupted, for at
most the lease time of its instance.  Its lease is what keeps every other turn
out.  The lease belongs to the instance and not to the turn, so three calls of
the same instance give it away under the live turn: an acknowledgement, the end
of another turn that remembers the same lease, and a completion that fails to
serialize its records.  In a run without these the live turn is alone.

Calls are interleaved in any order.  Time passes between them and never moves
back.
-/

namespace DuraLLM

/-- A turn that `begin_turn` returned and that was neither completed nor
    interrupted since. -/
structure OpenTurn where
  turn : ContinuationTurn
  server : Nat
  begunAt : Seconds
  deriving DecidableEq

inductive ContinuationStep (Request Response : Type) where
  | wait (now : Seconds)
  | call (i : Nat) (call : ContinuationCall Request Response)

structure ContinuationRun (Json : Type) [JsonCodec Json] where
  system : ContinuationSystem Json
  openTurns : List OpenTurn := []

namespace ContinuationRun

variable {Json Request Response : Type} [JsonCodec Json] (sha256 : String → String)
  (digests : Digests Request Response)

/-- Instances with these owners and lease times, over a database. -/
def start (db : Database Json SessionPayload) (config : Nat → String × Seconds)
    (hexes : Nat → String) : ContinuationRun Json where
  system :=
    { db, hexes, instances := fun i =>
        { ownerId := (config i).1, leaseTtlSeconds := (config i).2 } }

def perform (run : ContinuationRun Json) (i : Nat) (call : ContinuationCall Request Response) :
    ContinuationAnswer × ContinuationSystem Json :=
  (SqliteContinuation.program digests i call).exec (ContinuationSystem.handle sha256) run.system

def book (run : ContinuationRun Json) (i : Nat) (call : ContinuationCall Request Response) :
    ContinuationAnswer → List OpenTurn
  | .turn turn => ⟨turn, i, run.system.reads.now⟩ :: run.openTurns
  | .event _ => run.openTurns.filter fun o => some o.turn ≠ call.turn?
  | .raised _ => run.openTurns

def step (run : ContinuationRun Json) : ContinuationStep Request Response → ContinuationRun Json
  | .wait now =>
      let reads : StoreReads := ⟨max run.system.reads.now now, max run.system.reads.now now⟩
      { run with system := { run.system with reads } }
  | .call i call =>
      let answer := run.perform sha256 digests i call
      { system := answer.2, openTurns := run.book i call answer.1 }

def run (r : ContinuationRun Json) (steps : List (ContinuationStep Request Response)) :
    ContinuationRun Json :=
  steps.foldl (step sha256 digests) r

/-- The records that the call has to digest can be serialized. -/
def Serializes (now : Seconds) : ContinuationCall Request Response → Prop
  | .completeTurn turn request response endpoint =>
      (checkpointOf digests turn request response endpoint now).isSome
  | .beginTurn _ | .acknowledge .. | .interruptTurn .. => True

/-- Open, and not older than the lease time of its instance. -/
def Live (run : ContinuationRun Json) (o : OpenTurn) : Prop :=
  o ∈ run.openTurns ∧
    run.system.reads.now < o.begunAt + (run.system.instances o.server).leaseTtlSeconds

/-- The lease that the instance remembers for this turn id is the one that the
    session is held under. -/
def SharesLease (s : ContinuationSystem Json) (i : Nat) (turnId sessionId : String) : Prop :=
  ∃ lease ∈ (s.instances i).turnLeases.get turnId,
    lease.resource = sessionResource sessionId ∧
      s.db.holdsLease lease.resource (s.instances i).ownerId lease.fencingToken

/-- A call on the instance of an open turn that gives its lease away. -/
def GivesAway (s : ContinuationSystem Json) (o : OpenTurn) :
    ContinuationCall Request Response → Prop
  | .beginTurn _ => False
  | .acknowledge sessionId turnId _ digest =>
      sessionId = o.turn.sessionId ∧ validateAcknowledgement sessionId turnId digest = .ok ()
  | .completeTurn turn request response endpoint =>
      if turn = o.turn then checkpointOf digests turn request response endpoint s.reads.now = none
      else SharesLease s o.server turn.turnId o.turn.sessionId
  | .interruptTurn turn _ =>
      turn ≠ o.turn ∧ SharesLease s o.server turn.turnId o.turn.sessionId

def StepGivesAway (run : ContinuationRun Json) : ContinuationStep Request Response → Prop
  | .wait _ => False
  | .call i call => ∃ o ∈ run.openTurns,
      run.system.reads.now < o.begunAt + (run.system.instances o.server).leaseTtlSeconds ∧
        o.server = i ∧ GivesAway digests run.system o call

def NeverGivesAway (run : ContinuationRun Json) : List (ContinuationStep Request Response) → Prop
  | [] => True
  | step :: steps =>
      ¬run.StepGivesAway digests step ∧ (run.step sha256 digests step).NeverGivesAway steps

instance (run : ContinuationRun Json) (o : OpenTurn) : Decidable (run.Live o) :=
  inferInstanceAs (Decidable (_ ∧ _))

instance (s : ContinuationSystem Json) (i : Nat) (turnId sessionId : String) :
    Decidable (SharesLease s i turnId sessionId) :=
  inferInstanceAs (Decidable (∃ lease ∈ (s.instances i).turnLeases.get turnId, _))

instance (s : ContinuationSystem Json) (o : OpenTurn) :
    (call : ContinuationCall Request Response) → Decidable (GivesAway digests s o call)
  | .beginTurn _ => inferInstanceAs (Decidable False)
  | .acknowledge .. => inferInstanceAs (Decidable (_ ∧ _))
  | .completeTurn turn request response endpoint =>
      inferInstanceAs (Decidable (if turn = o.turn then
        checkpointOf digests turn request response endpoint s.reads.now = none
      else SharesLease s o.server turn.turnId o.turn.sessionId))
  | .interruptTurn .. => inferInstanceAs (Decidable (_ ∧ _))

instance (run : ContinuationRun Json) :
    (step : ContinuationStep Request Response) → Decidable (run.StepGivesAway digests step)
  | .wait _ => inferInstanceAs (Decidable False)
  | .call _ _ => inferInstanceAs (Decidable (∃ o ∈ run.openTurns, _))

instance decidableNeverGivesAway (run : ContinuationRun Json) :
    (steps : List (ContinuationStep Request Response)) →
      Decidable (run.NeverGivesAway sha256 digests steps)
  | [] => inferInstanceAs (Decidable True)
  | step :: steps =>
      have := decidableNeverGivesAway (run.step sha256 digests step) steps
      inferInstanceAs (Decidable (_ ∧ _))

end ContinuationRun

open SqliteContinuation ContinuationRun

section Invariant

variable {Json Request Response : Type} [JsonCodec Json] {sha256 : String → String}
  {digests : Digests Request Response} {s t : ContinuationSystem Json} {o : OpenTurn}

/-- The instance of the turn holds the session, and the session serves the turn. -/
structure Holds (o : OpenTurn) (s : ContinuationSystem Json) : Prop where
  issued : ∃ k < s.drawn, o.turn.turnId = newTurnId (s.hexes k)
  speaks : o.turn.protocolVersion = acpVersion
  serving : SqliteContinuation.Serving o.turn s
  lease : ∃ lease row, (s.instances o.server).turnLeases.get o.turn.turnId = some lease ∧
    lease.resource = sessionResource o.turn.sessionId ∧
    s.db.leases.get (sessionResource o.turn.sessionId) = some row ∧
    row.ownerId = (s.instances o.server).ownerId ∧ row.fencingToken = lease.fencingToken ∧
    o.begunAt + (s.instances o.server).leaseTtlSeconds ≤ row.expiresAt
  alone : ∀ j ≠ o.server, (s.instances j).turnLeases.get o.turn.turnId = none

/-- The frame rule: the row, the memory and the lease of the turn are as they
    were, except that its own instance may have renewed the lease. -/
theorem Holds.kept (holds : Holds o s) (begun : o.begunAt ≤ s.reads.now) (steady : Steady s t)
    (session : t.db.sessions.get o.turn.sessionId = s.db.sessions.get o.turn.sessionId)
    (memory : ∀ j, (t.instances j).turnLeases.get o.turn.turnId =
      (s.instances j).turnLeases.get o.turn.turnId)
    (lease : t.db.leases.get (sessionResource o.turn.sessionId) =
        s.db.leases.get (sessionResource o.turn.sessionId) ∨
      ∃ token, grantedToken (s.db.leases.get (sessionResource o.turn.sessionId))
          (s.instances o.server).ownerId s.reads.now = some token ∧
        t.db.leases.get (sessionResource o.turn.sessionId) = some (s.rowOf o.server token)) :
    Holds o t := by
  obtain ⟨k, earlier, drawn⟩ := holds.issued
  obtain ⟨cached, row, inMemory, resource, held, owner, token, lasts⟩ := holds.lease
  refine ⟨⟨k, earlier.trans_le steady.drawn, steady.hexes ▸ drawn⟩, holds.speaks, ?_, ?_, ?_⟩
  · obtain ⟨row, located, rest⟩ := holds.serving
    exact ⟨row, session.trans located, rest⟩
  · rcases lease with same | ⟨renewed, rule, now⟩
    · exact ⟨cached, row, (memory _).trans inMemory, resource, same.trans held,
        owner.trans (steady.owner _).symm, token, by rwa [steady.ttl]⟩
    · simp only [held, grantedToken, owner, if_true, Option.some.injEq] at rule
      subst rule
      refine ⟨cached, _, (memory _).trans inMemory, resource, now, (steady.owner _).symm, token, ?_⟩
      rw [steady.ttl]
      exact add_le_add begun (le_max_right _ _)
  · intro j other
    rw [memory, holds.alone j other]

/-- Only the instance of a live turn is granted the lease of its session. -/
theorem Holds.granted_same (holds : Holds o s)
    (live : s.reads.now < o.begunAt + (s.instances o.server).leaseTtlSeconds)
    (owners : Function.Injective fun i => (s.instances i).ownerId) {j token : Nat}
    (rule : grantedToken (s.db.leases.get (sessionResource o.turn.sessionId))
      (s.instances j).ownerId s.reads.now = some token) : j = o.server := by
  obtain ⟨_, row, _, _, held, owner, _, lasts⟩ := holds.lease
  simp only [held, grantedToken] at rule
  split at rule
  · next same => exact owners (same.symm.trans owner)
  · split at rule
    · next expired => exact absurd (live.trans_le lasts) (not_lt.mpr expired)
    · cases rule

theorem Holds.begin_rejected (holds : Holds o s)
    (live : s.reads.now < o.begunAt + (s.instances o.server).leaseTtlSeconds)
    (owners : Function.Injective fun i => (s.instances i).ownerId) (j : Nat)
    {request : ContinuationRequest} (same : requestedSession s request = o.turn.sessionId) :
    Does sha256 (beginTurn j request) s (Rejected j o.turn.sessionId · s ·) := by
  rw [← same]
  cases rule : grantedToken (s.db.leases.get (sessionResource o.turn.sessionId))
      (s.instances j).ownerId s.reads.now with
  | none => exact beginTurn_refused (same ▸ rule)
  | some token =>
      obtain rfl := holds.granted_same live owners rule
      obtain ⟨row, located, version, active⟩ := holds.serving
      obtain ⟨cached, _, inMemory, _⟩ := holds.lease
      obtain ⟨k, _, drawn⟩ := holds.issued
      refine beginTurn_live (same ▸ rule) (same ▸ located) (version.trans holds.speaks) active.1
        ?_ inMemory
      rw [drawn]
      simp [newTurnId]

theorem Holds.acknowledge_rejected (holds : Holds o s)
    (live : s.reads.now < o.begunAt + (s.instances o.server).leaseTtlSeconds)
    (owners : Function.Injective fun i => (s.instances i).ownerId) {j : Nat}
    {turnId digest : String} {epoch : Nat}
    (spared : o.server = j → validateAcknowledgement o.turn.sessionId turnId digest ≠ .ok ()) :
    Does sha256 (acknowledge j o.turn.sessionId turnId epoch digest) s
      (Rejected j o.turn.sessionId · s ·) := by
  cases rule : grantedToken (s.db.leases.get (sessionResource o.turn.sessionId))
      (s.instances j).ownerId s.reads.now with
  | none => exact acknowledge_refused rule
  | some token =>
      obtain rfl := holds.granted_same live owners rule
      unfold acknowledge
      split
      · exact (Rows.refl _ s).rejected rfl o.server _
      · next valid => exact absurd valid (spared rfl)

theorem Holds.rejected {α : Type} {answer : Except ContinuationError α} (holds : Holds o s)
    (begun : o.begunAt ≤ s.reads.now)
    (live : s.reads.now < o.begunAt + (s.instances o.server).leaseTtlSeconds)
    (owners : Function.Injective fun i => (s.instances i).ownerId) {j : Nat}
    (rejected : Rejected j o.turn.sessionId answer s t) : Holds o t := by
  refine holds.kept begun rejected.toSteady (by rw [rejected.sessions])
    (fun _ => by rw [rejected.instances]) ?_
  rcases rejected.leases with same | ⟨token, rule, same⟩
  · exact .inl (by rw [same])
  · obtain rfl := holds.granted_same live owners rule
    exact .inr ⟨token, rule, by rw [same]; exact Dict.get_set_self _ _ _⟩

/-- A call on another session. -/
theorem Holds.elsewhere (holds : Holds o s) (begun : o.begunAt ≤ s.reads.now)
    (injective : Function.Injective s.hexes) {sessionId : String} {i : Nat}
    (within : Within sessionId i s t) (other : o.turn.sessionId ≠ sessionId) : Holds o t := by
  refine holds.kept begun within.toSteady (within.sessions _ other) (fun j => ?_)
    (.inl (within.leases _ fun same => other (sessionResource_injective same)))
  obtain ⟨k, earlier, drawn⟩ := holds.issued
  rw [drawn]
  exact memory_kept within injective earlier j

/-- The turn that remembers the lease of a live turn shares it. -/
theorem Holds.shares (holds : Holds o s) :
    SharesLease s o.server o.turn.turnId o.turn.sessionId := by
  obtain ⟨cached, row, inMemory, resource, held, owner, token, _⟩ := holds.lease
  refine ⟨cached, inMemory, resource, ?_⟩
  simp [Database.holdsLease, resource, held, owner, token]

/-- The end of another turn. -/
theorem Holds.ended (holds : Holds o s) (begun : o.begunAt ≤ s.reads.now)
    (owners : Function.Injective fun i => (s.instances i).ownerId) {j : Nat}
    {turn : ContinuationTurn} {lease : Lease} (ended : Ended j turn lease s t)
    (cached : (s.instances j).turnLeases.get turn.turnId = some lease)
    (spared : j = o.server → ¬SharesLease s o.server turn.turnId o.turn.sessionId) :
    Holds o t := by
  have different : turn.turnId ≠ o.turn.turnId := by
    intro same
    by_cases own : j = o.server
    · exact spared own (same ▸ holds.shares)
    · rw [same, holds.alone j own] at cached
      cases cached
  refine holds.kept begun ended.toSteady ?_ (fun i => ended.memory i _ fun same =>
    different same.2.symm) (.inl ?_)
  · refine ended.sessions _ ?_
    by_cases here : o.turn.sessionId = turn.sessionId
    · refine .inr ?_
      rintro ⟨row, located, _, active⟩
      obtain ⟨found, located', _, active'⟩ := holds.serving
      rw [here, located, Option.some.injEq] at located'
      subst located'
      exact different (Option.some.inj (active.1.symm.trans active'.1))
    · exact .inl here
  · obtain ⟨_, row, _, _, held, owner, _, _⟩ := holds.lease
    rw [ended.leases]
    simp only [ContinuationSystem.released, Database.deleteLease, Dict.get_filter, held,
      Option.filter_some]
    rw [if_pos]
    simp only [decide_eq_true_eq]
    rintro ⟨resource, same, token⟩
    obtain rfl : o.server = j := owners (owner.symm.trans same)
    refine spared rfl ⟨lease, cached, resource.symm, ?_⟩
    simp [Database.holdsLease, ← resource, held, owner, token]

/-- A turn that has just begun. -/
theorem holds_of_began {i token : Nat} {request : ContinuationRequest} {turn : ContinuationTurn}
    (within : Within (requestedSession s request) i s t)
    (held : t.db.leases.get (sessionResource (requestedSession s request)) =
      some (s.rowOf i token))
    (began : Began i (requestedSession s request) acpVersion
      (s.leaseOf i (requestedSession s request) token) s t turn)
    (unused : ∀ k, s.drawn ≤ k → ∀ j, (s.instances j).turnLeases.get (newTurnId (s.hexes k)) = none) :
    Holds ⟨turn, i, s.reads.now⟩ t := by
  obtain ⟨k, below, above, drawn⟩ := began.fresh
  obtain ⟨row, located, active, version⟩ := began.active
  refine ⟨⟨k, above, within.hexes.symm ▸ drawn⟩, began.speaks, ?_, ?_, ?_⟩
  · exact ⟨row, began.named.symm ▸ located, version.trans began.speaks.symm, active⟩
  · refine ⟨_, _, began.cached, ?_, began.named.symm ▸ held, (within.owner i).symm, rfl, ?_⟩
    · simp only [began.named, ContinuationSystem.leaseOf, Lease.granted]
    · simp only [within.ttl, ContinuationSystem.rowOf, LeaseRow.granted]
      exact add_le_add (le_refl _) (le_max_right _ _)
  · intro j other
    rcases within.memory j turn.turnId with same | ⟨here, _⟩
    · rw [drawn] at same
      rw [show (⟨turn, i, s.reads.now⟩ : OpenTurn).turn.turnId = _ from drawn, same]
      exact unused k below j
    · exact absurd here other

/-- Leases are remembered under turn ids that have been drawn. -/
structure Remembers (s : ContinuationSystem Json) : Prop where
  injective : Function.Injective s.hexes
  cached : ∀ j id lease, (s.instances j).turnLeases.get id = some lease →
    ∃ k < s.drawn, id = newTurnId (s.hexes k)

theorem Remembers.unused (remembers : Remembers s) {k : Nat} (later : s.drawn ≤ k) (j : Nat) :
    (s.instances j).turnLeases.get (newTurnId (s.hexes k)) = none := by
  cases found : (s.instances j).turnLeases.get (newTurnId (s.hexes k)) with
  | none => rfl
  | some lease =>
      obtain ⟨k', earlier, same⟩ := remembers.cached j _ lease found
      have : k = k' := remembers.injective (newTurnId_injective same)
      omega

/-- The invariant of a run: every live turn holds its session. -/
structure Exclusive (run : ContinuationRun Json) : Prop extends Remembers run.system where
  owners : Function.Injective fun i => (run.system.instances i).ownerId
  begun : ∀ o ∈ run.openTurns, o.begunAt ≤ run.system.reads.now
  held : ∀ o, run.Live o → Holds o run.system

/-- What a call that ends a turn does. -/
theorem end_does {i : Nat} (call : ContinuationCall Request Response) {turn : ContinuationTurn}
    (ends : call.turn? = some turn) :
    Does sha256 (program digests i call) s fun answer t =>
      ((s.instances i).turnLeases.get turn.turnId = none ∧ t = s) ∨
      ∃ lease, (s.instances i).turnLeases.get turn.turnId = some lease ∧
        Ended i turn lease s t ∧
        (SqliteContinuation.Serving turn s → answer ≠ .raised turnNoLongerActive ∧
          (Serializes digests s.reads.now call → ∃ event, answer = .event event)) := by
  cases call with
  | beginTurn | acknowledge => cases ends
  | completeTurn completed request response endpoint =>
      obtain rfl := Option.some.inj ends
      refine (endTurn_does i completed (completeLeased_does digests i completed request response
        endpoint)).seq ?_
      rintro answer t (⟨uncached, _, rfl⟩ | ⟨lease, cached, ended, served⟩)
      · exact .inl ⟨uncached, rfl⟩
      · refine .inr ⟨lease, cached, ended, fun serving => ⟨?_, fun serializes => ?_⟩⟩
        · intro same
          refine (served serving).1 ?_
          cases answer with
          | ok event => cases same
          | error e => rw [ContinuationAnswer.raised.inj same]
        · obtain ⟨event, rfl⟩ := (served serving).2 serializes
          exact ⟨event, rfl⟩
  | interruptTurn interrupted detail =>
      obtain rfl := Option.some.inj ends
      refine (endTurn_does i interrupted (interruptLeased_does i interrupted detail)).seq ?_
      rintro answer t (⟨uncached, _, rfl⟩ | ⟨lease, cached, ended, served⟩)
      · exact .inl ⟨uncached, rfl⟩
      · refine .inr ⟨lease, cached, ended, fun serving => ?_⟩
        obtain ⟨event, rfl⟩ := served serving
        exact ⟨nofun, fun _ => ⟨event, rfl⟩⟩

theorem givesAway_end {call : ContinuationCall Request Response} {turn : ContinuationTurn}
    (ends : call.turn? = some turn) :
    GivesAway digests s o call ↔ (turn = o.turn ∧ ¬Serializes digests s.reads.now call) ∨
      (turn ≠ o.turn ∧ SharesLease s o.server turn.turnId o.turn.sessionId) := by
  cases call with
  | beginTurn | acknowledge => cases ends
  | completeTurn completed request response endpoint =>
      obtain rfl := Option.some.inj ends
      by_cases same : completed = o.turn <;> simp [GivesAway, Serializes, same]
  | interruptTurn interrupted detail =>
      obtain rfl := Option.some.inj ends
      simp [GivesAway, Serializes]

/-- Only `begin_turn` returns a turn. -/
theorem program_begins (i : Nat) (call : ContinuationCall Request Response) :
    Does sha256 (program digests i call) s fun answer t => ∀ turn, answer = .turn turn →
      ∃ request token, Within (requestedSession s request) i s t ∧
        t.db.leases.get (sessionResource (requestedSession s request)) = some (s.rowOf i token) ∧
        Began i (requestedSession s request) acpVersion
          (s.leaseOf i (requestedSession s request) token) s t turn := by
  have silent : ∀ (P : ContinuationTurn → ContinuationSystem Json → Prop)
      (p : Prog (continuationSignature Json) (Except ContinuationError ContinuationEvent)),
      Does sha256 (do return answerOf .event (← p)) s
        fun answer t => ∀ turn, answer = .turn turn → P turn t := by
    intro P p
    have ends : Does sha256 p s fun _ _ => True := trivial
    refine ends.seq ?_
    intro answer t _ turn same
    cases answer <;> cases same
  cases call with
  | beginTurn request =>
      refine (beginTurn_does i request).seq ?_
      rintro answer t ⟨within, begins⟩ turn same
      cases answer with
      | error e => cases same
      | ok begun =>
          obtain rfl := ContinuationAnswer.turn.inj same
          obtain ⟨token, held, began⟩ := begins begun rfl
          exact ⟨request, token, within, held, began⟩
  | completeTurn turn request response endpoint =>
      exact silent _ _
  | acknowledge sessionId turnId epoch digest =>
      exact silent _ _
  | interruptTurn turn detail =>
      exact silent _ _

/-- A call caches leases only under turn ids it draws. -/
theorem program_remembers (i : Nat) (call : ContinuationCall Request Response) :
    Does sha256 (program digests i call) s fun _ t => ∀ j id lease,
      (t.instances j).turnLeases.get id = some lease →
        (∃ earlier, (s.instances j).turnLeases.get id = some earlier) ∨
          ∃ k, s.drawn ≤ k ∧ k < t.drawn ∧ id = newTurnId (s.hexes k) := by
  have inside : ∀ {sessionId : String} {t : ContinuationSystem Json}, Within sessionId i s t →
      ∀ j id lease, (t.instances j).turnLeases.get id = some lease →
        (∃ earlier, (s.instances j).turnLeases.get id = some earlier) ∨
          ∃ k, s.drawn ≤ k ∧ k < t.drawn ∧ id = newTurnId (s.hexes k) := by
    intro sessionId t within j id lease found
    rcases within.memory j id with same | ⟨_, drawn⟩
    · exact .inl ⟨lease, same.symm.trans found⟩
    · exact .inr drawn
  cases ends : call.turn? with
  | some turn =>
      refine (end_does _ ends).imp ?_
      rintro answer t (⟨_, rfl⟩ | ⟨held, cached, ended, _⟩) j id lease found
      · exact .inl ⟨lease, found⟩
      · by_cases own : j = i ∧ id = turn.turnId
        · obtain ⟨rfl, rfl⟩ := own
          exact .inl ⟨held, cached⟩
        · exact .inl ⟨lease, (ended.memory j id own).symm.trans found⟩
  | none =>
      cases call with
      | completeTurn | interruptTurn => cases ends
      | beginTurn request => exact (beginTurn_does i request).seq fun answer t does => inside does.1
      | acknowledge sessionId turnId epoch digest =>
          exact (acknowledge_does i sessionId turnId epoch digest).seq fun answer t does =>
            inside does

theorem Remembers.call (remembers : Remembers s) (i : Nat)
    (call : ContinuationCall Request Response) :
    Does sha256 (program digests i call) s fun _ t => Remembers t := by
  have steady : Steady s ((program digests i call).exec (ContinuationSystem.handle sha256) s).2 :=
    exec_steady _ _
  refine ⟨steady.hexes ▸ remembers.injective, ?_⟩
  intro j id lease found
  rcases program_remembers i call j id lease found with ⟨earlier, known⟩ | ⟨k, _, above, drawn⟩
  · obtain ⟨k, below, drawn⟩ := remembers.cached j id earlier known
    exact ⟨k, below.trans_le steady.drawn, steady.hexes.symm ▸ drawn⟩
  · exact ⟨k, above, steady.hexes.symm ▸ drawn⟩

/-- An instance forgets the lease of a turn only when it ends the turn. -/
theorem program_keeps (i : Nat) {call : ContinuationCall Request Response}
    (injective : Function.Injective s.hexes) {k : Nat} (earlier : k < s.drawn)
    (spares : ∀ turn ∈ call.turn?, turn.turnId ≠ newTurnId (s.hexes k)) :
    Does sha256 (program digests i call) s fun _ t => ∀ j,
      (t.instances j).turnLeases.get (newTurnId (s.hexes k)) =
        (s.instances j).turnLeases.get (newTurnId (s.hexes k)) := by
  cases ends : call.turn? with
  | some turn =>
      refine (end_does _ ends).imp ?_
      rintro answer t (⟨_, rfl⟩ | ⟨held, cached, ended, _⟩) j
      · rfl
      · exact ended.memory j _ fun own => spares turn ends own.2.symm
  | none =>
      cases call with
      | completeTurn | interruptTurn => cases ends
      | beginTurn request =>
          exact (beginTurn_does i request).seq fun _ _ does => memory_kept does.1 injective earlier
      | acknowledge sessionId turnId epoch digest =>
          exact (acknowledge_does i sessionId turnId epoch digest).seq fun _ _ within =>
            memory_kept within injective earlier

namespace Exclusive

variable {run : ContinuationRun Json}

/-- The end of a turn leaves a live turn in place, or ends it. -/
theorem keeps_ended (inv : Exclusive run) (live : run.Live o) {i : Nat}
    {call : ContinuationCall Request Response} {turn : ContinuationTurn}
    (ends : call.turn? = some turn) (spared : o.server = i → ¬GivesAway digests run.system o call)
    {answer : ContinuationAnswer} {lease : Lease}
    (cached : (run.system.instances i).turnLeases.get turn.turnId = some lease)
    (ended : Ended i turn lease run.system t)
    (served : SqliteContinuation.Serving turn run.system →
      Serializes digests run.system.reads.now call →
      ∃ event, answer = .event event)
    (stays : o ∈ run.book i call answer) : Holds o t := by
  have holds := inv.held o live
  by_cases same : turn = o.turn
  · by_cases own : o.server = i
    · have serializes : Serializes digests run.system.reads.now call := by
        by_contra fails
        exact spared own ((givesAway_end ends).mpr (.inl ⟨same, fails⟩))
      obtain ⟨event, rfl⟩ := served (same ▸ holds.serving) serializes
      simp [book, ends, same] at stays
    · rw [same, holds.alone i (Ne.symm own)] at cached
      cases cached
  · refine holds.ended (inv.begun o live.1) inv.owners ended cached ?_
    intro own shares
    exact spared own.symm ((givesAway_end ends).mpr (.inr ⟨same, shares⟩))

/-- A live turn that the call leaves open still holds its session. -/
theorem keeps_open (inv : Exclusive run) {i : Nat} {call : ContinuationCall Request Response}
    (spares : ¬run.StepGivesAway digests (.call i call)) (live : run.Live o) :
    Does sha256 (program digests i call) run.system fun answer t =>
      o ∈ run.book i call answer → Holds o t := by
  have holds := inv.held o live
  have begun := inv.begun o live.1
  have spared : o.server = i → ¬GivesAway digests run.system o call :=
    fun own gives => spares ⟨o, live.1, live.2, own, gives⟩
  cases ends : call.turn? with
  | some turn =>
      refine (end_does _ ends).imp ?_
      rintro answer t (⟨_, rfl⟩ | ⟨lease, cached, ended, served⟩) stays
      · exact holds
      · exact inv.keeps_ended live ends spared cached ended (fun serving => (served serving).2) stays
  | none =>
      cases call with
      | completeTurn | interruptTurn => cases ends
      | beginTurn request =>
          by_cases here : requestedSession run.system request = o.turn.sessionId
          · refine (holds.begin_rejected live.2 inv.owners i here).seq ?_
            intro answer t rejected _
            exact holds.rejected begun live.2 inv.owners rejected
          · refine (beginTurn_does i request).seq ?_
            rintro answer t ⟨within, _⟩ _
            exact holds.elsewhere begun inv.injective within fun same => here same.symm
      | acknowledge sessionId turnId epoch digest =>
          by_cases here : sessionId = o.turn.sessionId
          · subst here
            refine (holds.acknowledge_rejected live.2 inv.owners fun own valid =>
              spared own ⟨rfl, valid⟩).seq ?_
            intro answer t rejected _
            exact holds.rejected begun live.2 inv.owners rejected
          · refine (acknowledge_does i sessionId turnId epoch digest).seq ?_
            intro answer t within _
            exact holds.elsewhere begun inv.injective within fun same => here same.symm

theorem mem_book {i : Nat} {call : ContinuationCall Request Response} {answer : ContinuationAnswer}
    (member : o ∈ run.book i call answer) :
    o ∈ run.openTurns ∨ ∃ turn, answer = .turn turn ∧ o = ⟨turn, i, run.system.reads.now⟩ := by
  cases answer with
  | turn turn =>
      rcases List.mem_cons.mp member with rfl | older
      · exact .inr ⟨turn, rfl, rfl⟩
      · exact .inl older
  | event event => exact .inl (List.mem_filter.mp member).1
  | raised e => exact .inl member

/-- The step lemma for calls. -/
theorem call (inv : Exclusive run) {i : Nat} {call : ContinuationCall Request Response}
    (spares : ¬run.StepGivesAway digests (.call i call)) :
    Exclusive (run.step sha256 digests (.call i call)) := by
  have steady : Steady run.system (run.perform sha256 digests i call).2 := exec_steady _ _
  refine ⟨inv.toRemembers.call i call, ?_, ?_, ?_⟩
  · simpa only [step, steady.owner] using inv.owners
  · intro o member
    change o.begunAt ≤ (run.perform sha256 digests i call).2.reads.now
    rw [steady.reads]
    rcases mem_book member with older | ⟨turn, _, rfl⟩
    · exact inv.begun o older
    · exact le_refl _
  · rintro o ⟨member, before⟩
    simp only [step, steady.reads, steady.ttl] at before
    rcases mem_book member with older | ⟨turn, returned, rfl⟩
    · exact inv.keeps_open spares ⟨older, before⟩ member
    · obtain ⟨request, token, within, held, began⟩ := program_begins i call turn returned
      exact holds_of_began within held began fun k later j => inv.unused later j

theorem wait (inv : Exclusive run) (now : Seconds) :
    Exclusive (run.step sha256 digests (.wait now)) where
  injective := inv.injective
  owners := inv.owners
  cached := inv.cached
  begun o member := (inv.begun o member).trans (le_max_left _ _)
  held o live := by
    have holds := inv.held o ⟨live.1, (le_max_left _ _).trans_lt live.2⟩
    exact ⟨holds.issued, holds.speaks, holds.serving, holds.lease, holds.alone⟩

theorem along {start : ContinuationRun Json} (inv : Exclusive start)
    (steps : List (ContinuationStep Request Response))
    (spares : start.NeverGivesAway sha256 digests steps) :
    Exclusive (start.run sha256 digests steps) := by
  induction steps generalizing start with
  | nil => exact inv
  | cons step steps ih =>
      cases step with
      | wait now => exact ih (inv.wait now) spares.2
      | call i call => exact ih (inv.call spares.1) spares.2

end Exclusive

end Invariant

/-- What the live turn `o` of a run is promised: `begin_turn` on its session is
    rejected on every instance, and its own completion is not refused. -/
def Excludes {Json Request Response : Type} [JsonCodec Json] (sha256 : String → String)
    (digests : Digests Request Response) (run : ContinuationRun Json) (o : OpenTurn) : Prop :=
  (∀ j request, requestedSession run.system request = o.turn.sessionId →
    ∃ e, (run.perform sha256 digests j (.beginTurn request)).1 = .raised e) ∧
  ∀ request response endpoint,
    (run.perform sha256 digests o.server (.completeTurn o.turn request response endpoint)).1 ≠
      .raised turnNoLongerActive

theorem Exclusive.excludes {Json Request Response : Type} [JsonCodec Json]
    {sha256 : String → String} {digests : Digests Request Response} {run : ContinuationRun Json}
    (inv : Exclusive run) {o : OpenTurn} (live : run.Live o) : Excludes sha256 digests run o := by
  have holds := inv.held o live
  refine ⟨?_, ?_⟩
  · intro j request here
    have rejected : Does sha256 (program digests j (.beginTurn request)) run.system
        fun answer _ => ∃ e, answer = .raised e := by
      refine (holds.begin_rejected live.2 inv.owners j here).seq ?_
      intro answer t rejected
      obtain ⟨e, rfl⟩ := rejected.raised
      exact ⟨e, rfl⟩
    exact rejected
  · intro request response endpoint
    obtain ⟨cached, _, inMemory, _⟩ := holds.lease
    have ended : Does sha256
        (program digests o.server (.completeTurn o.turn request response endpoint)) run.system _ :=
      end_does _ rfl
    rcases ended with ⟨uncached, _⟩ | ⟨lease, _, _, served⟩
    · rw [uncached] at inMemory
      cases inMemory
    · exact (served holds.serving).1

private def tally (n : Nat) : String := String.ofList (List.replicate n 'a')

private theorem tally_injective : Function.Injective tally := by
  intro m n same
  simpa [tally] using congrArg String.length same

private def sampleDigests : Digests Unit Unit where
  request _ := some (tally 64)
  response _ _ := some (tally 64)
  checkpoint _ := some (tally 64)

private def twoInstances : ContinuationRun OkObject := start {} (fun i => (tally i, 120)) tally

private def began : ContinuationStep Unit Unit := .call 0 (.beginTurn { stateDigest := tally 64 })

private def begunTurn : OpenTurn where
  turn :=
    { sessionId := newSessionId (tally 0)
      turnId := newTurnId (tally 1)
      epoch := 0
      parentCheckpointDigest := none
      clientStateDigest := tally 64 }
  server := 0
  begunAt := 0

/-- The request of another client for the same session. -/
private def another : ContinuationRequest :=
  { stateDigest := tally 64, sessionId := some (newSessionId (tally 0)) }

end DuraLLM
