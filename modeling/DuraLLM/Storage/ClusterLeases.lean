import DuraLLM.Storage.Sqlite

/-! # Leases of the cluster store

`ClusterPersistenceStore` keeps the newest lease of each resource, and beside it
a counter of the tokens it has handed out.  A release takes the lease away and
leaves the counter.  `Witnessed` runs the two maps beside the history of what
was granted and of which releases were asked for.
-/

namespace DuraLLM

structure ClusterLeases where
  leases : Dict String Lease := .empty
  fencingCounters : Dict String Nat := .empty

namespace ClusterLeases

variable (s : ClusterLeases) (now : Seconds) (resource ownerId : String)

/-- The newest lease is in the way of this owner. -/
def Blocked : Prop :=
  ∃ current ∈ s.leases.get resource, now < current.expiresAt ∧ current.ownerId ≠ ownerId

instance : Decidable (s.Blocked now resource ownerId) :=
  inferInstanceAs (Decidable (∃ current ∈ s.leases.get resource, _))

def acquireLease (ttlSeconds : Seconds) : Option Lease × ClusterLeases :=
  if s.Blocked now resource ownerId then (none, s)
  else
    let fencing := (s.fencingCounters.get resource).getD 0 + 1
    let lease : Lease :=
      { resource, ownerId, fencingToken := fencing, expiresAt := now + ttlSeconds }
    (some lease,
      { leases := s.leases.set resource lease
        fencingCounters := s.fencingCounters.set resource fencing })

def releaseLease (fencingToken : Nat) : Bool × ClusterLeases :=
  match s.leases.get resource with
  | none => (true, s)
  | some current =>
      if current.ownerId = ownerId ∧ current.fencingToken = fencingToken then
        (true, { s with leases := s.leases.erase resource })
      else (false, s)

end ClusterLeases

/-! ## Runs -/

inductive LeaseCall where
  | acquire (resource ownerId : String) (ttlSeconds : Seconds)
  | release (resource ownerId : String) (fencingToken : Nat)

/-- What a run shows of the leases. -/
inductive LeaseMoment where
  | granted (lease : Lease)
  | releaseAsked (resource ownerId : String) (fencingToken : Nat)

/-- The store beside its history, the newest moment first. -/
structure Witnessed where
  store : ClusterLeases := {}
  history : List LeaseMoment := []

namespace Witnessed

def step (w : Witnessed) : Seconds × LeaseCall → Witnessed
  | (now, .acquire resource ownerId ttlSeconds) =>
      let (lease, store) := w.store.acquireLease now resource ownerId ttlSeconds
      { store, history := (lease.map LeaseMoment.granted).toList ++ w.history }
  | (_, .release resource ownerId fencingToken) =>
      { store := (w.store.releaseLease resource ownerId fencingToken).2
        history := .releaseAsked resource ownerId fencingToken :: w.history }

def run (calls : List (Seconds × LeaseCall)) : Witnessed := calls.foldl step {}

end Witnessed

/-! ## What the history says of a resource -/

section History

variable (resource : String)

/-- The leases of the resource, the newest first. -/
def grantsOf : List LeaseMoment → List Lease
  | [] => []
  | .granted lease :: older =>
      if lease.resource = resource then lease :: grantsOf older else grantsOf older
  | .releaseAsked .. :: older => grantsOf older

/-- Somebody asked for the release of the lease with its owner and token, after
    it was granted and before any newer lease of the resource. -/
def ReleasedSince (lease : Lease) : List LeaseMoment → Prop
  | [] => False
  | .granted newer :: older =>
      if newer.resource = lease.resource then False else ReleasedSince lease older
  | .releaseAsked resource ownerId fencingToken :: older =>
      (resource = lease.resource ∧ ownerId = lease.ownerId ∧ fencingToken = lease.fencingToken) ∨
        ReleasedSince lease older

instance decidableReleasedSince (lease : Lease) :
    (history : List LeaseMoment) → Decidable (ReleasedSince lease history)
  | [] => inferInstanceAs (Decidable False)
  | .granted newer :: older =>
      have := decidableReleasedSince lease older
      inferInstanceAs (Decidable (if newer.resource = lease.resource then False
        else ReleasedSince lease older))
  | .releaseAsked .. :: older =>
      have := decidableReleasedSince lease older
      inferInstanceAs (Decidable (_ ∨ _))

/-- The lease is the newest of the resource, and nobody released it. -/
def Standing (history : List LeaseMoment) (lease : Lease) : Prop :=
  (grantsOf resource history).head? = some lease ∧ ¬ReleasedSince lease history

theorem grantsOf_resource {history : List LeaseMoment} {lease : Lease}
    (member : lease ∈ grantsOf resource history) : lease.resource = resource := by
  induction history with
  | nil => simp [grantsOf] at member
  | cons moment older ih =>
      cases moment with
      | releaseAsked => exact ih member
      | granted newer =>
          simp only [grantsOf] at member
          split at member
          · next same =>
            cases List.mem_cons.mp member with
            | inl here => exact here ▸ same
            | inr earlier => exact ih earlier
          · exact ih member

end History

/-! ## The invariant -/

/-- The counter is above every token of the resource, the tokens grow, and the
    map holds the lease that stands. -/
structure Witnessed.Sound (resource : String) (w : Witnessed) : Prop where
  counted : ∀ lease ∈ grantsOf resource w.history,
    lease.fencingToken ≤ (w.store.fencingCounters.get resource).getD 0
  growing : (grantsOf resource w.history).Pairwise fun newer older =>
    older.fencingToken < newer.fencingToken
  held : ∀ lease, w.store.leases.get resource = some lease ↔ Standing resource w.history lease

namespace Witnessed.Sound

variable {resource : String} {w : Witnessed}

theorem start : Sound resource {} where
  counted := by simp [grantsOf]
  growing := .nil
  held lease := by simp [Standing, grantsOf]

/-- A grant of any resource. -/
theorem grant (sound : w.Sound resource) (lease : Lease)
    (next : lease.fencingToken = (w.store.fencingCounters.get lease.resource).getD 0 + 1) :
    Sound resource
      { store :=
          { leases := w.store.leases.set lease.resource lease
            fencingCounters := w.store.fencingCounters.set lease.resource lease.fencingToken }
        history := .granted lease :: w.history } := by
  by_cases same : lease.resource = resource
  · subst same
    constructor
    · intro earlier member
      simp only [grantsOf, if_true, List.mem_cons] at member
      simp only [Dict.get_set_self, Option.getD_some]
      cases member with
      | inl here => exact here ▸ le_refl _
      | inr older =>
          have below := sound.counted earlier older
          omega
    · simp only [grantsOf, if_true, List.pairwise_cons]
      refine ⟨fun earlier member => ?_, sound.growing⟩
      have below := sound.counted earlier member
      omega
    · intro other
      simp only [Dict.get_set_self, Standing, grantsOf, if_true, List.head?_cons,
        Option.some.injEq]
      constructor
      · rintro rfl
        simp [ReleasedSince]
      · exact fun standing => standing.1
  · have other : resource ≠ lease.resource := fun eq => same eq.symm
    constructor
    · simpa [grantsOf, same, Dict.get_set_ne _ _ other] using sound.counted
    · simpa [grantsOf, same] using sound.growing
    · intro found
      rw [Dict.get_set_ne _ _ other, sound.held]
      simp only [Standing, grantsOf, same, if_false]
      refine and_congr_right fun newest => ?_
      have located := grantsOf_resource resource (List.mem_of_mem_head? newest)
      simp [ReleasedSince, located, same]

/-- A release that was asked for, whatever it does. -/
theorem release (sound : w.Sound resource) (asked ownerId : String) (fencingToken : Nat) :
    Sound resource
      { store := (w.store.releaseLease asked ownerId fencingToken).2
        history := .releaseAsked asked ownerId fencingToken :: w.history } := by
  have counters : (w.store.releaseLease asked ownerId fencingToken).2.fencingCounters =
      w.store.fencingCounters := by
    unfold ClusterLeases.releaseLease
    split
    · rfl
    · split <;> rfl
  refine ⟨?_, sound.growing, ?_⟩
  · rw [counters]
    exact sound.counted
  · intro lease
    have before := sound.held lease
    simp only [Standing, grantsOf, ReleasedSince, not_or, not_and] at before ⊢
    by_cases same : asked = resource
    · subst same
      unfold ClusterLeases.releaseLease
      cases held : w.store.leases.get asked with
      | none =>
          rw [held] at before
          simp only [held, reduceCtorEq, false_iff] at before ⊢
          exact fun standing => before ⟨standing.1, standing.2.2⟩
      | some current =>
          rw [held, Option.some.injEq] at before
          by_cases own : current.ownerId = ownerId ∧ current.fencingToken = fencingToken
          · simp only [own, and_self, if_true, Dict.get_erase_self, reduceCtorEq, false_iff]
            rintro ⟨newest, asks, unreleased⟩
            obtain rfl := before.mpr ⟨newest, unreleased⟩
            have located := grantsOf_resource asked (List.mem_of_mem_head? newest)
            exact asks located.symm own.1.symm own.2.symm
          · simp only [own, if_false, held, Option.some.injEq]
            constructor
            · intro here
              obtain ⟨newest, unreleased⟩ := before.mp here
              refine ⟨newest, fun _ owner token => ?_, unreleased⟩
              subst here
              exact own ⟨owner.symm, token.symm⟩
            · exact fun standing => before.mpr ⟨standing.1, standing.2.2⟩
    · have kept : (w.store.releaseLease asked ownerId fencingToken).2.leases.get resource =
          w.store.leases.get resource := by
        unfold ClusterLeases.releaseLease
        split
        · rfl
        · split
          · exact Dict.get_erase_ne _ (Ne.symm same)
          · rfl
      rw [kept, before]
      refine and_congr_right fun newest => ?_
      have located := grantsOf_resource resource (List.mem_of_mem_head? newest)
      simp [located, same]

theorem step (sound : w.Sound resource) (call : Seconds × LeaseCall) :
    (w.step call).Sound resource := by
  obtain ⟨now, call⟩ := call
  cases call with
  | acquire asked ownerId ttlSeconds =>
      by_cases blocked : w.store.Blocked now asked ownerId
      · simpa [Witnessed.step, ClusterLeases.acquireLease, blocked] using sound
      · simpa [Witnessed.step, ClusterLeases.acquireLease, blocked] using
          sound.grant
            ⟨asked, ownerId, (w.store.fencingCounters.get asked).getD 0 + 1, now + ttlSeconds⟩ rfl
  | release asked ownerId fencingToken => exact sound.release asked ownerId fencingToken

theorem run (resource : String) (calls : List (Seconds × LeaseCall)) :
    (Witnessed.run calls).Sound resource := by
  have folds : ∀ (calls : List (Seconds × LeaseCall)) (w : Witnessed), w.Sound resource →
      (calls.foldl Witnessed.step w).Sound resource := by
    intro calls
    induction calls with
    | nil => exact fun w sound => sound
    | cons call calls ih => exact fun w sound => ih _ (sound.step call)
  exact folds calls {} start

end Witnessed.Sound

/-- After any run: the tokens of the resource have grown with each grant; a
    lease that stands and has not expired keeps every other owner out; and a
    release that does not name the newest lease changes nothing. -/
theorem cluster_leases_exclusive (resource : String) (calls : List (Seconds × LeaseCall)) :
    let w := Witnessed.run calls
    ((grantsOf resource w.history).Pairwise fun newer older =>
      older.fencingToken < newer.fencingToken) ∧
    (∀ lease, Standing resource w.history lease → ∀ now ownerId ttlSeconds,
      now < lease.expiresAt → ownerId ≠ lease.ownerId →
        w.store.acquireLease now resource ownerId ttlSeconds = (none, w.store)) ∧
    ∀ ownerId fencingToken, (∀ lease, (grantsOf resource w.history).head? = some lease →
        lease.ownerId ≠ ownerId ∨ lease.fencingToken ≠ fencingToken) →
      (w.store.releaseLease resource ownerId fencingToken).2 = w.store := by
  have sound := Witnessed.Sound.run resource calls
  refine ⟨sound.growing, ?_, ?_⟩
  · intro lease standing now ownerId ttlSeconds early other
    have blocked : (Witnessed.run calls).store.Blocked now resource ownerId :=
      ⟨lease, (sound.held lease).mpr standing, early, Ne.symm other⟩
    simp only [ClusterLeases.acquireLease, if_pos blocked]
  · intro ownerId fencingToken foreign
    unfold ClusterLeases.releaseLease
    split
    · rfl
    · next current held =>
      have newest := ((sound.held current).mp held).1
      have own : ¬(current.ownerId = ownerId ∧ current.fencingToken = fencingToken) := by
        rintro ⟨owner, token⟩
        cases foreign current newest with
        | inl other => exact other owner
        | inr other => exact other token
      rw [if_neg own]

end DuraLLM
