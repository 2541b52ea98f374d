import DuraLLM.Storage.Transactions

/-! # Fencing tokens

A fencing token tells a stale holder of a lease from the current one, provided
tokens grow whenever the lease changes hands.  The token lives in the lease
row, and release, commit, indeterminate marking and recovery delete that row:
the next lease of the resource starts again at 1.  `Observed` runs the store
beside the history of one resource.
-/

namespace DuraLLM

variable {Json Payload : Type} [JsonCodec Json] (sha256 : String → String) (resource : String)

/-- What a run shows of one resource, the newest event first. -/
inductive LeaseEvent where
  | granted (lease : Lease)
  | dropped
  deriving DecidableEq

/-- The leases granted so far, the newest first. -/
def grants : List LeaseEvent → List Lease
  | [] => []
  | .granted lease :: older => lease :: grants older
  | .dropped :: older => grants older

/-- The owner of the newest lease. -/
def previousHolder (history : List LeaseEvent) : Option String :=
  (grants history).head?.map (·.ownerId)

/-- A lease that changes hands carries a token above all earlier ones. -/
def Fenced : List LeaseEvent → Prop
  | [] => True
  | .dropped :: older => Fenced older
  | .granted lease :: older =>
      (previousHolder older ≠ some lease.ownerId →
        ∀ earlier ∈ grants older, earlier.fencingToken < lease.fencingToken) ∧ Fenced older

instance decidableFenced : (history : List LeaseEvent) → Decidable (Fenced history)
  | [] => inferInstanceAs (Decidable True)
  | .dropped :: older => decidableFenced older
  | .granted lease :: older =>
      have := decidableFenced older
      inferInstanceAs (Decidable ((previousHolder older ≠ some lease.ownerId →
        ∀ earlier ∈ grants older, earlier.fencingToken < lease.fencingToken) ∧ Fenced older))

/-- A grant is an answer of the store; a drop is a row that is gone. -/
def observe (lease : Option Lease) (before after : Option LeaseRow) (history : List LeaseEvent) :
    List LeaseEvent :=
  match lease with
  | some lease => if lease.resource = resource then .granted lease :: history else history
  | none => if before.isSome ∧ after.isNone then .dropped :: history else history

structure Observed (Json Payload : Type) [JsonCodec Json] where
  db : Database Json Payload := {}
  history : List LeaseEvent := []

namespace Observed

def step (s : Observed Json Payload) (call : StoreReads × StoreCall Json Payload) :
    Observed Json Payload :=
  let answer := call.2.perform sha256 call.1 s.db
  { db := answer.2
    history := observe resource (call.2.grant answer.1) (s.db.leases.get resource)
      (answer.2.leases.get resource) s.history }

def run (s : Observed Json Payload) (calls : List (StoreReads × StoreCall Json Payload)) :
    Observed Json Payload :=
  calls.foldl (step sha256 resource) s

/-- The call asks for a lease of a resource that has no row any more, for a
    new holder or after tokens above 1. -/
def Restarts (s : Observed Json Payload) (call : StoreCall Json Payload) : Prop :=
  ∃ request ∈ call.leaseRequest s.db,
    request.1 = resource ∧ s.db.leases.get resource = none ∧
      ∃ earlier ∈ grants s.history,
        previousHolder s.history ≠ some request.2 ∨ 1 < earlier.fencingToken

def NeverRestarts (s : Observed Json Payload) :
    List (StoreReads × StoreCall Json Payload) → Prop
  | [] => True
  | call :: calls =>
      ¬s.Restarts resource call.2 ∧ (s.step sha256 resource call).NeverRestarts calls

instance (s : Observed Json Payload) (call : StoreCall Json Payload) :
    Decidable (s.Restarts resource call) :=
  inferInstanceAs (Decidable (∃ request ∈ call.leaseRequest s.db, _))

instance decidableNeverRestarts (s : Observed Json Payload) :
    (calls : List (StoreReads × StoreCall Json Payload)) →
      Decidable (s.NeverRestarts sha256 resource calls)
  | [] => inferInstanceAs (Decidable True)
  | call :: calls =>
      have := decidableNeverRestarts (s.step sha256 resource call) calls
      inferInstanceAs (Decidable (_ ∧ _))

end Observed

/-- The invariant: the row shows the newest lease, and no earlier token is
    above the one in the row. -/
structure Fencing (s : Observed Json Payload) : Prop where
  newest : ∀ row, s.db.leases.get resource = some row → ∃ lease older,
    s.history = .granted lease :: older ∧ lease.ownerId = row.ownerId ∧
      lease.fencingToken = row.fencingToken
  highest : ∀ row, s.db.leases.get resource = some row →
    ∀ earlier ∈ grants s.history, earlier.fencingToken ≤ row.fencingToken
  fenced : Fenced s.history

/-- What one call can add to the history, with the row it leaves. -/
private theorem step_cases (s : Observed Json Payload)
    (call : StoreReads × StoreCall Json Payload) :
    ((s.step sha256 resource call).history = s.history ∧
      (s.step sha256 resource call).db.leases.get resource = s.db.leases.get resource) ∨
    (∃ owner token ttl, call.2.leaseRequest s.db = some (resource, owner) ∧
      grantedToken (s.db.leases.get resource) owner call.1.now = some token ∧
      (s.step sha256 resource call).history =
        .granted (.granted resource owner token ttl call.1.now) :: s.history ∧
      (s.step sha256 resource call).db.leases.get resource =
        some (.granted owner token ttl call.1.now)) ∨
    ((s.step sha256 resource call).history = .dropped :: s.history ∧
      (s.step sha256 resource call).db.leases.get resource = none) := by
  have change := (call.2.outcome sha256 call.1 s.db).lease_change resource
  simp only [Observed.step, StoreCall.after] at change ⊢
  generalize call.2.grant (call.2.perform sha256 call.1 s.db).1 = lease at change
  generalize (call.2.perform sha256 call.1 s.db).2.leases.get resource = row at change
  cases change with
  | kept elsewhere =>
      refine .inl ⟨?_, rfl⟩
      cases lease with
      | none => cases s.db.leases.get resource <;> simp [observe]
      | some lease => simp [observe, elsewhere lease rfl]
  | granted request rule =>
      exact .inr (.inl ⟨_, _, _, request, rule, by simp [observe, Lease.granted], rfl⟩)
  | dropped held drop => exact .inr (.inr ⟨by simp [observe, held], rfl⟩)

variable {sha256 resource}

namespace Fencing

/-- A grant keeps the invariant when it does not restart the tokens. -/
private theorem grant {s : Observed Json Payload} (inv : Fencing resource s) {owner : String}
    {token : Nat} {now : Seconds}
    (rule : grantedToken (s.db.leases.get resource) owner now = some token)
    (free : s.db.leases.get resource = none → ∀ earlier ∈ grants s.history,
      previousHolder s.history = some owner ∧ earlier.fencingToken ≤ 1) :
    (∀ earlier ∈ grants s.history, earlier.fencingToken ≤ token) ∧
      (previousHolder s.history ≠ some owner →
        ∀ earlier ∈ grants s.history, earlier.fencingToken < token) := by
  cases held : s.db.leases.get resource with
  | none =>
      obtain rfl : 1 = token := by simpa [grantedToken, held] using rule
      refine ⟨fun earlier member => (free held earlier member).2, ?_⟩
      intro other earlier member
      exact absurd (free held earlier member).1 other
  | some row =>
      have highest := inv.highest row held
      simp only [grantedToken, held] at rule
      split at rule
      · next same =>
        obtain rfl := Option.some.inj rule
        refine ⟨highest, fun other => absurd ?_ other⟩
        obtain ⟨lease, older, history, holder, _⟩ := inv.newest row held
        simp only [previousHolder, history, grants, List.head?_cons, Option.map_some, holder, same]
      · split at rule
        · obtain rfl := Option.some.inj rule
          refine ⟨fun earlier member => ?_, fun _ earlier member => ?_⟩
          · exact Nat.le_succ_of_le (highest earlier member)
          · exact Nat.lt_succ_of_le (highest earlier member)
        · cases rule

/-- The step lemma. -/
theorem step {s : Observed Json Payload} (inv : Fencing resource s)
    (call : StoreReads × StoreCall Json Payload) (free : ¬s.Restarts resource call.2) :
    Fencing resource (s.step sha256 resource call) := by
  rcases step_cases sha256 resource s call with
    ⟨history, row⟩ | ⟨owner, token, ttl, request, rule, history, row⟩ | ⟨history, row⟩
  · refine ⟨?_, ?_, ?_⟩ <;> rw [history]
    · rw [row]
      exact inv.newest
    · rw [row]
      exact inv.highest
    · exact inv.fenced
  · obtain ⟨highest, above⟩ := inv.grant rule (by
      intro absent earlier member
      simp only [Observed.Restarts, request, Option.mem_def, Option.some.injEq, not_exists,
        not_and, not_or, not_not, not_lt] at free
      exact free _ rfl rfl absent earlier member)
    refine ⟨?_, ?_, ?_⟩ <;> rw [history]
    · intro found located
      obtain rfl := Option.some.inj (row.symm.trans located)
      exact ⟨_, _, rfl, rfl, rfl⟩
    · intro found located earlier member
      obtain rfl := Option.some.inj (row.symm.trans located)
      rcases List.mem_cons.mp member with rfl | older
      · exact le_refl _
      · exact highest earlier older
    · exact ⟨above, inv.fenced⟩
  · refine ⟨?_, ?_, ?_⟩
    · intro found located
      rw [row] at located
      cases located
    · intro found located
      rw [row] at located
      cases located
    · rw [history]
      exact inv.fenced

theorem run {s : Observed Json Payload} (inv : Fencing resource s)
    (calls : List (StoreReads × StoreCall Json Payload))
    (free : s.NeverRestarts sha256 resource calls) :
    Fencing resource (s.run sha256 resource calls) := by
  induction calls generalizing s with
  | nil => exact inv
  | cons call calls ih => exact ih (inv.step call free.1) free.2

end Fencing

/-- In a run in which no lease restarts its tokens, every lease that changes
    hands carries a token above all earlier ones, and the lease check accepts
    only the newest lease, while it is not released. -/
theorem leases_fenced (resource : String) (calls : List (StoreReads × StoreCall Json Payload))
    (free : ({} : Observed Json Payload).NeverRestarts sha256 resource calls) :
    let s := ({} : Observed Json Payload).run sha256 resource calls
    Fenced s.history ∧
      ∀ owner token now, s.db.assertLeaseLocked resource owner token now = .ok () →
        ∃ lease older, s.history = .granted lease :: older ∧ lease.ownerId = owner ∧
          lease.fencingToken = token := by
  have start : Fencing resource ({} : Observed Json Payload) :=
    ⟨by simp, by simp, trivial⟩
  have inv := start.run calls free
  refine ⟨inv.fenced, ?_⟩
  intro owner token now live
  obtain ⟨row, held, rfl, rfl, _⟩ := Database.assertLeaseLocked_ok live
  exact inv.newest row held

/-- An expired lease taken over by another owner. -/
private def takenOver : List (StoreReads × StoreCall OkObject Unit) :=
  [(⟨0, 0⟩, .acquireLease "session:s" "alpha" 30), (⟨31, 31⟩, .acquireLease "session:s" "beta" 30)]

theorem leases_fenced_taken_over :
    let s := ({} : Observed OkObject Unit).run sampleSha256 "session:s" takenOver
    Fenced s.history ∧
      ∀ owner token now, s.db.assertLeaseLocked "session:s" owner token now = .ok () →
        ∃ lease older, s.history = .granted lease :: older ∧ lease.ownerId = owner ∧
          lease.fencingToken = token :=
  leases_fenced "session:s" takenOver (by decide +kernel)

/-- After a release the next owner gets token 1 again. -/
theorem released_lease_restarts :
    ¬ ∀ (resource : String) (calls : List (StoreReads × StoreCall OkObject Unit)),
        let s := ({} : Observed OkObject Unit).run sampleSha256 resource calls
        Fenced s.history ∧
          ∀ owner token now, s.db.assertLeaseLocked resource owner token now = .ok () →
            ∃ lease older, s.history = .granted lease :: older ∧ lease.ownerId = owner ∧
              lease.fencingToken = token := by
  intro claim
  have fenced := (claim "session:s"
    [(⟨0, 0⟩, .acquireLease "session:s" "alpha" 30), (⟨1, 1⟩, .releaseLease "session:s" "alpha" 1),
      (⟨2, 2⟩, .acquireLease "session:s" "beta" 30)]).1
  exact absurd fenced (by decide +kernel)

end DuraLLM
