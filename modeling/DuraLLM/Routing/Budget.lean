import DuraLLM.Lib.Dict
import Mathlib.Algebra.BigOperators.Group.List.Basic
import Mathlib.Algebra.Order.BigOperators.Group.List
import Mathlib.Algebra.Order.Field.Rat
import Mathlib.Data.List.Induction
import Mathlib.Tactic.Linarith

/-! # Agent-budget reservations

`BudgetReservationStore` serializes its calls by a lock, so that any number of
concurrent requests is a list of calls.  Beside the store a history keeps what
became of every reservation that was granted; the store itself is run without
it.  Amounts are exact.
-/

namespace DuraLLM

structure BudgetReservation where
  reservationId : String
  scope : String
  amountUsd : ℚ
  limitUsd : ℚ
  deriving DecidableEq

structure BudgetReservationStore where
  reserved : Dict String BudgetReservation := .empty
  spent : Dict String ℚ := .empty

/-- The refusal of a negative amount. -/
structure BudgetValueError where
  message : String
  deriving DecidableEq

/-- `1e-12` -/
def budgetSlack : ℚ := 1 / 10 ^ 12

namespace BudgetReservationStore

/-- `self._spent.get(scope, 0.0)` -/
def spentOn (store : BudgetReservationStore) (scope : String) : ℚ := (store.spent.get scope).getD 0

/-- The sum of the open reservations of a scope. -/
def reservedFor (store : BudgetReservationStore) (scope : String) : ℚ :=
  ((store.reserved.values.filter (·.scope = scope)).map (·.amountUsd)).sum

def reserve (store : BudgetReservationStore) (reservationId scope : String)
    (amountUsd limitUsd : ℚ) :
    Except BudgetValueError (Option BudgetReservation × BudgetReservationStore) :=
  if amountUsd < 0 ∨ limitUsd < 0 then .error ⟨"budget amounts must be non-negative"⟩
  else
    match store.reserved.get reservationId with
    | some existing => .ok (some existing, store)
    | none =>
        if limitUsd + budgetSlack < store.spentOn scope + store.reservedFor scope + amountUsd then
          .ok (none, store)
        else
          let reservation : BudgetReservation := { reservationId, scope, amountUsd, limitUsd }
          .ok (some reservation,
            { store with reserved := store.reserved.set reservationId reservation })

def release (store : BudgetReservationStore) (reservationId : String) : BudgetReservationStore :=
  { store with reserved := store.reserved.erase reservationId }

def settle (store : BudgetReservationStore) (reservationId : String) (actualCostUsd : ℚ) :
    Except BudgetValueError BudgetReservationStore :=
  if actualCostUsd < 0 then .error ⟨"actual cost must be non-negative"⟩
  else
    match store.reserved.get reservationId with
    | none => .ok store
    | some reservation => .ok
        { reserved := store.reserved.erase reservationId
          spent := store.spent.set reservation.scope
            (store.spentOn reservation.scope + actualCostUsd) }

def remaining (store : BudgetReservationStore) (scope : String) (limitUsd : ℚ) : ℚ :=
  max 0 (limitUsd - store.spentOn scope - store.reservedFor scope)

end BudgetReservationStore

/-! ## Runs of the store -/

inductive BudgetCall where
  | reserve (reservationId scope : String) (amountUsd limitUsd : ℚ)
  | release (reservationId : String)
  | settle (reservationId : String) (actualCostUsd : ℚ)
  deriving DecidableEq

/-- The id a call reserves under. -/
def BudgetCall.reserves : BudgetCall → Option String
  | .reserve reservationId _ _ _ => some reservationId
  | _ => none

/-- A store with what became of the reservations it granted: charged, at a
    cost, or released. -/
structure BudgetHistory where
  store : BudgetReservationStore := {}
  granted : List BudgetReservation := []
  charged : List (BudgetReservation × ℚ) := []
  released : List BudgetReservation := []

namespace BudgetHistory

/-- A call that raises leaves the store as it is. -/
def step (h : BudgetHistory) : BudgetCall → BudgetHistory
  | .reserve reservationId scope amountUsd limitUsd =>
      match h.store.reserve reservationId scope amountUsd limitUsd with
      | .error _ => h
      | .ok (answer, store) =>
          { h with
            store
            granted := h.granted ++
              if h.store.reserved.contains reservationId then [] else answer.toList }
  | .release reservationId =>
      { h with
        store := h.store.release reservationId
        released := h.released ++ (h.store.reserved.get reservationId).toList }
  | .settle reservationId actualCostUsd =>
      match h.store.settle reservationId actualCostUsd with
      | .error _ => h
      | .ok store =>
          { h with
            store
            charged := h.charged ++
              ((h.store.reserved.get reservationId).map (·, actualCostUsd)).toList }

def run (calls : List BudgetCall) : BudgetHistory := calls.foldl step {}

/-- The reservations that are over. -/
def closed (h : BudgetHistory) : List BudgetReservation := h.charged.map Prod.fst ++ h.released

/-- What the scope was charged. -/
def chargedOn (h : BudgetHistory) (scope : String) : ℚ :=
  ((h.charged.filter (·.1.scope = scope)).map Prod.snd).sum

/-- What the reservations of the scope that are not over hold back. -/
def openOn (h : BudgetHistory) (scope : String) : ℚ :=
  ((h.granted.filter fun r => r ∉ h.closed ∧ r.scope = scope).map (·.amountUsd)).sum

/-- What one call does to the books. -/
inductive Effect (h : BudgetHistory) : BudgetCall → BudgetHistory → Prop where
  | nothing (call : BudgetCall) : Effect h call h
  | granted (r : BudgetReservation) (absent : h.store.reserved.get r.reservationId = none)
      (nonneg : 0 ≤ r.amountUsd)
      (fits : h.store.spentOn r.scope + h.store.reservedFor r.scope + r.amountUsd ≤
        r.limitUsd + budgetSlack) :
      Effect h (.reserve r.reservationId r.scope r.amountUsd r.limitUsd)
        { h with
          store := { h.store with reserved := h.store.reserved.set r.reservationId r }
          granted := h.granted ++ [r] }
  | released (r : BudgetReservation) (reservationId : String)
      (found : h.store.reserved.get reservationId = some r) :
      Effect h (.release reservationId)
        { h with store := h.store.release reservationId, released := h.released ++ [r] }
  | charged (r : BudgetReservation) (reservationId : String) (cost : ℚ)
      (found : h.store.reserved.get reservationId = some r) (nonneg : 0 ≤ cost) :
      Effect h (.settle reservationId cost)
        { h with
          store :=
            { reserved := h.store.reserved.erase reservationId
              spent := h.store.spent.set r.scope (h.store.spentOn r.scope + cost) }
          charged := h.charged ++ [(r, cost)] }

theorem step_effect (h : BudgetHistory) (call : BudgetCall) : h.Effect call (h.step call) := by
  cases call with
  | reserve reservationId scope amountUsd limitUsd =>
      by_cases negative : amountUsd < 0 ∨ limitUsd < 0
      · simpa only [step, BudgetReservationStore.reserve, if_pos negative] using
          Effect.nothing (h := h) _
      · cases found : h.store.reserved.get reservationId with
        | some existing =>
            have kept : h.step (.reserve reservationId scope amountUsd limitUsd) = h := by
              simp [step, BudgetReservationStore.reserve, negative, found, Dict.contains]
            rw [kept]
            exact .nothing _
        | none =>
            by_cases exceeds : limitUsd + budgetSlack <
                h.store.spentOn scope + h.store.reservedFor scope + amountUsd
            · have kept : h.step (.reserve reservationId scope amountUsd limitUsd) = h := by
                simp [step, BudgetReservationStore.reserve, negative, found, exceeds, Dict.contains]
              rw [kept]
              exact .nothing _
            · have nonneg : 0 ≤ amountUsd := not_lt.mp fun below => negative (.inl below)
              have granted := Effect.granted (h := h) ⟨reservationId, scope, amountUsd, limitUsd⟩
                found nonneg (not_lt.mp exceeds)
              simpa [step, BudgetReservationStore.reserve, negative, found, exceeds,
                Dict.contains] using granted
  | release reservationId =>
      cases found : h.store.reserved.get reservationId with
      | none =>
          have kept : h.step (.release reservationId) = h := by
            simp [step, BudgetReservationStore.release, found, Dict.erase_of_absent found]
          rw [kept]
          exact .nothing _
      | some r => simpa [step, found] using Effect.released r reservationId found
  | settle reservationId cost =>
      by_cases negative : cost < 0
      · simpa only [step, BudgetReservationStore.settle, if_pos negative] using
          Effect.nothing (h := h) _
      · cases found : h.store.reserved.get reservationId with
        | none =>
            have kept : h.step (.settle reservationId cost) = h := by
              simp [step, BudgetReservationStore.settle, negative, found]
            rw [kept]
            exact .nothing _
        | some r =>
            have charged := Effect.charged r reservationId cost found (not_lt.mp negative)
            simpa [step, BudgetReservationStore.settle, negative, found] using charged

/-! ## The books balance -/

section Sums

variable {held more : List BudgetReservation} (scope : String)

/-- What a list of reservations holds back from a scope. -/
private def amountOn (held : List BudgetReservation) (scope : String) : ℚ :=
  ((held.filter (·.scope = scope)).map (·.amountUsd)).sum

private theorem amountOn_perm (same : held.Perm more) : amountOn held scope = amountOn more scope :=
  ((same.filter _).map _).sum_eq

private theorem amountOn_cons (r : BudgetReservation) (held : List BudgetReservation) :
    amountOn (r :: held) scope = (if r.scope = scope then r.amountUsd else 0) + amountOn held scope := by
  by_cases mine : r.scope = scope <;> simp [amountOn, mine]

end Sums

variable {h next : BudgetHistory} {call : BudgetCall}

private theorem reservedFor_granted {r : BudgetReservation}
    (absent : h.store.reserved.get r.reservationId = none) (scope : String) :
    amountOn (h.store.reserved.set r.reservationId r).values scope =
      (if r.scope = scope then r.amountUsd else 0) + h.store.reservedFor scope := by
  rw [Dict.values_set_of_absent absent, amountOn_perm scope (List.perm_append_singleton r _),
    amountOn_cons]
  rfl

private theorem reservedFor_closed {r : BudgetReservation} {reservationId : String}
    (found : h.store.reserved.get reservationId = some r) (scope : String) :
    h.store.reservedFor scope = (if r.scope = scope then r.amountUsd else 0) +
      amountOn (h.store.reserved.erase reservationId).values scope :=
  (amountOn_perm scope (Dict.values_perm_erase found)).trans (amountOn_cons scope r _)

/-- What the store holds is what the calls have left of the grants. -/
structure Balanced (h : BudgetHistory) : Prop where
  nonneg : ∀ r ∈ h.store.reserved.values, 0 ≤ r.amountUsd
  conserved : h.granted.Perm (h.store.reserved.values ++ h.closed)
  spent : ∀ scope, h.store.spentOn scope = h.chargedOn scope

theorem balanced_start : Balanced {} where
  nonneg := fun _ inside => by cases inside
  conserved := .refl _
  spent := fun _ => rfl

theorem Balanced.reservedFor_nonneg (balanced : Balanced h) (scope : String) :
    0 ≤ h.store.reservedFor scope := by
  refine List.sum_nonneg fun amount inside => ?_
  obtain ⟨r, held, rfl⟩ := List.mem_map.mp inside
  exact balanced.nonneg r (List.mem_of_mem_filter held)

/-- Closing a reservation moves it from the store to the closed ones. -/
theorem Balanced.close (balanced : Balanced h) {r : BudgetReservation} {reservationId : String}
    (found : h.store.reserved.get reservationId = some r) {closed : List BudgetReservation}
    (moved : closed.Perm (r :: h.closed)) :
    h.granted.Perm ((h.store.reserved.erase reservationId).values ++ closed) := by
  have left : (h.store.reserved.values ++ h.closed).Perm
      (r :: ((h.store.reserved.erase reservationId).values ++ h.closed)) :=
    (Dict.values_perm_erase found).append_right _
  have right : ((h.store.reserved.erase reservationId).values ++ closed).Perm
      (r :: ((h.store.reserved.erase reservationId).values ++ h.closed)) :=
    (moved.append_left _).trans List.perm_middle
  exact balanced.conserved.trans (left.trans right.symm)

theorem Balanced.nonneg_erase (balanced : Balanced h) {r : BudgetReservation}
    {reservationId : String} (found : h.store.reserved.get reservationId = some r) :
    0 ≤ r.amountUsd ∧ ∀ other ∈ (h.store.reserved.erase reservationId).values,
      0 ≤ other.amountUsd := by
  have same := Dict.values_perm_erase found
  exact ⟨balanced.nonneg r (same.mem_iff.mpr (by simp)),
    fun other inside => balanced.nonneg other (same.mem_iff.mpr (by simp [inside]))⟩

theorem Balanced.step (balanced : Balanced h) (effect : h.Effect call next) : Balanced next := by
  cases effect with
  | nothing => exact balanced
  | granted r absent nonneg fits =>
      refine ⟨?_, ?_, balanced.spent⟩
      · intro other inside
        rw [Dict.values_set_of_absent absent, List.mem_append, List.mem_singleton] at inside
        cases inside with
        | inl old => exact balanced.nonneg other old
        | inr new => exact new ▸ nonneg
      · have added := balanced.conserved.append_right [r]
        simp only [Dict.values_set_of_absent absent, List.append_assoc] at added ⊢
        exact added.trans (List.perm_append_comm.append_left _)
  | released r reservationId found =>
      refine ⟨(balanced.nonneg_erase found).2, balanced.close found ?_, balanced.spent⟩
      simp only [closed, ← List.append_assoc]
      exact List.perm_append_singleton r _
  | charged r reservationId cost found nonneg =>
      refine ⟨(balanced.nonneg_erase found).2, balanced.close found ?_, ?_⟩
      · simp only [closed, List.map_append, List.append_assoc, List.map_cons, List.map_nil]
        exact List.perm_middle
      · intro scope
        have before := balanced.spent scope
        by_cases mine : r.scope = scope
        · subst mine
          simp [BudgetReservationStore.spentOn, chargedOn] at before ⊢
          rw [before]
        · have apart : scope ≠ r.scope := fun same => mine same.symm
          simp [BudgetReservationStore.spentOn, chargedOn, mine, Dict.get_set_ne _ _ apart]
            at before ⊢
          exact before

theorem run_append (calls : List BudgetCall) (call : BudgetCall) :
    run (calls ++ [call]) = (run calls).step call := by
  simp only [run, List.foldl_append, List.foldl_cons, List.foldl_nil]

theorem run_balanced (calls : List BudgetCall) : Balanced (run calls) := by
  induction calls using List.reverseRecOn with
  | nil => exact balanced_start
  | append_singleton calls call ih => exact run_append calls call ▸ ih.step (step_effect _ call)

/-- Only calls that reserve grant, and under their own id. -/
theorem run_granted (calls : List BudgetCall) :
    ((run calls).granted.map (·.reservationId)).Sublist
      (calls.filterMap BudgetCall.reserves) := by
  induction calls using List.reverseRecOn with
  | nil => exact .slnil
  | append_singleton calls call ih =>
      rw [run_append, List.filterMap_append]
      have effect := step_effect (run calls) call
      generalize (run calls).step call = next at effect ⊢
      cases effect with
      | granted r =>
          rw [List.map_append]
          exact ih.append (.refl _)
      | nothing | released | charged => exact ih.trans (List.sublist_append_left _ _)

/-! ## The limit is kept -/

/-- A scope that is used with one limit, under ids of its own, and charged at
    most what was reserved. -/
structure Disciplined (scope : String) (limitUsd : ℚ) (calls : List BudgetCall) : Prop where
  oneLimit : ∀ reservationId amountUsd limit,
    BudgetCall.reserve reservationId scope amountUsd limit ∈ calls → limit = limitUsd
  uniqueIds : (calls.filterMap BudgetCall.reserves).Nodup
  affordable : ∀ before reservationId cost r,
    before ++ [BudgetCall.settle reservationId cost] <+: calls →
      (run before).store.reserved.get reservationId = some r → r.scope = scope →
        cost ≤ r.amountUsd

/-- What is open was reserved under its key. -/
theorem reserved_under {seen : List BudgetCall} {reservationId : String} {r : BudgetReservation}
    (found : (run seen).store.reserved.get reservationId = some r) :
    BudgetCall.reserve reservationId r.scope r.amountUsd r.limitUsd ∈ seen := by
  induction seen using List.reverseRecOn with
  | nil => cases found
  | append_singleton seen call ih =>
      rw [run_append] at found
      have kept : ∀ id, ((run seen).store.reserved.erase id).get reservationId = some r →
          (run seen).store.reserved.get reservationId = some r := by
        intro id left
        rw [Dict.erase, Dict.get_filter] at left
        exact (Option.filter_eq_some_iff.mp left).1
      have effect := step_effect (run seen) call
      generalize (run seen).step call = next at effect found
      cases effect with
      | nothing => exact List.mem_append_left _ (ih found)
      | released other id held => exact List.mem_append_left _ (ih (kept id found))
      | charged other id cost held nonneg => exact List.mem_append_left _ (ih (kept id found))
      | granted other absent nonneg fits =>
          change (Dict.set _ _ _).get _ = _ at found
          by_cases here : reservationId = other.reservationId
          · subst here
            rw [Dict.get_set_self] at found
            cases found
            simp
          · rw [Dict.get_set_ne _ _ here] at found
            exact List.mem_append_left _ (ih found)

/-- It is enough that no settlement costs more than a reservation of its id. -/
theorem affordable_of_calls {calls : List BudgetCall}
    (cheaper : ∀ reservationId cost scope amountUsd limit,
      BudgetCall.settle reservationId cost ∈ calls →
        BudgetCall.reserve reservationId scope amountUsd limit ∈ calls → cost ≤ amountUsd)
    {before : List BudgetCall} {reservationId : String} {cost : ℚ} {r : BudgetReservation}
    (prior : before ++ [BudgetCall.settle reservationId cost] <+: calls)
    (found : (run before).store.reserved.get reservationId = some r) : cost ≤ r.amountUsd :=
  cheaper reservationId cost r.scope r.amountUsd r.limitUsd (prior.subset (by simp))
    (prior.subset (List.mem_append_left _ (reserved_under found)))

/-- What a scope was charged and what its open reservations hold back. -/
def Within (h : BudgetHistory) (scope : String) (bound : ℚ) : Prop :=
  h.store.spentOn scope + h.store.reservedFor scope ≤ bound

instance (h : BudgetHistory) (scope : String) (bound : ℚ) : Decidable (h.Within scope bound) :=
  inferInstanceAs (Decidable (_ ≤ _))

theorem Within.step {scope : String} {bound : ℚ} (within : h.Within scope bound)
    (balanced : Balanced h) (effect : h.Effect call next)
    (fits : ∀ reservationId amountUsd limit, call = .reserve reservationId scope amountUsd limit →
      h.Within scope (limit + budgetSlack - amountUsd) → h.Within scope (bound - amountUsd))
    (affordable : ∀ reservationId cost r, call = .settle reservationId cost →
      h.store.reserved.get reservationId = some r → r.scope = scope → cost ≤ r.amountUsd) :
    next.Within scope bound := by
  unfold Within at within fits ⊢
  cases effect with
  | nothing => exact within
  | granted r absent nonneg accepted =>
      have sum := reservedFor_granted absent scope
      change h.store.spentOn scope + amountOn _ scope ≤ _
      by_cases mine : r.scope = scope
      · rw [mine] at accepted
        have room := fits r.reservationId r.amountUsd r.limitUsd (by rw [mine]) (by linarith)
        rw [if_pos mine] at sum
        linarith
      · rw [if_neg mine, zero_add] at sum
        rwa [sum]
  | released r reservationId found =>
      have sum := reservedFor_closed found scope
      have nonneg := (balanced.nonneg_erase found).1
      change h.store.spentOn scope + amountOn (h.store.reserved.erase reservationId).values scope ≤ _
      split at sum <;> linarith
  | charged r reservationId cost found nonneg =>
      have sum := reservedFor_closed found scope
      change ((h.store.spent.set r.scope (h.store.spentOn r.scope + cost)).get scope).getD 0 +
        amountOn _ scope ≤ _
      by_cases mine : r.scope = scope
      · have paid := affordable reservationId cost r rfl found mine
        rw [if_pos mine] at sum
        rw [mine, Dict.get_set_self, Option.getD_some]
        linarith
      · rw [if_neg mine, zero_add] at sum
        rw [Dict.get_set_ne _ _ fun same => mine same.symm]
        change h.store.spentOn scope + _ ≤ _
        rwa [← sum]

/-- A bound that every accepted reservation respects is respected throughout. -/
theorem run_within {scope : String} {bound : ℚ} (nonneg : 0 ≤ bound) {calls : List BudgetCall}
    (fits : ∀ before reservationId amountUsd limit,
      before ++ [BudgetCall.reserve reservationId scope amountUsd limit] <+: calls →
        (run before).Within scope (limit + budgetSlack - amountUsd) →
          (run before).Within scope (bound - amountUsd))
    (affordable : ∀ before reservationId cost r,
      before ++ [BudgetCall.settle reservationId cost] <+: calls →
        (run before).store.reserved.get reservationId = some r → r.scope = scope →
          cost ≤ r.amountUsd)
    {seen : List BudgetCall} (prior : seen <+: calls) : (run seen).Within scope bound := by
  induction seen using List.reverseRecOn with
  | nil =>
      change (0 : ℚ) + 0 ≤ bound
      linarith
  | append_singleton seen call ih =>
      rw [run_append]
      refine (ih ((List.prefix_append _ _).trans prior)).step (run_balanced seen)
        (step_effect _ call) ?_ ?_
      · rintro reservationId amountUsd limit rfl
        exact fits seen reservationId amountUsd limit prior
      · rintro reservationId cost r rfl found mine
        exact affordable seen reservationId cost r prior found mine

theorem Disciplined.within {scope : String} {limitUsd : ℚ} {calls : List BudgetCall}
    (disciplined : Disciplined scope limitUsd calls) (nonneg : 0 ≤ limitUsd)
    {seen : List BudgetCall} (prior : seen <+: calls) :
    (run seen).Within scope (limitUsd + budgetSlack) := by
  have slack : (0 : ℚ) ≤ budgetSlack := by norm_num [budgetSlack]
  refine run_within (by linarith) ?_ disciplined.affordable prior
  intro before reservationId amountUsd limit here room
  rwa [disciplined.oneLimit reservationId amountUsd limit (here.subset (by simp))] at room

/-- No reservation is over twice. -/
theorem closed_nodup {calls seen : List BudgetCall} (prior : seen <+: calls)
    (unique : (calls.filterMap BudgetCall.reserves).Nodup) :
    (((run seen).store.reserved.values ++ (run seen).closed).map (·.reservationId)).Nodup := by
  have sublist := (run_granted seen).trans (prior.sublist.filterMap _)
  exact ((run_balanced seen).conserved.map _).nodup_iff.mp (sublist.nodup unique)

/-- What is open by the books is what the store holds back. -/
theorem openOn_eq {h : BudgetHistory} (balanced : Balanced h)
    (distinct : ((h.store.reserved.values ++ h.closed).map (·.reservationId)).Nodup)
    (scope : String) : h.openOn scope = h.store.reservedFor scope := by
  have apart := List.disjoint_of_nodup_append distinct.of_map
  have stillOpen : (h.granted.filter fun r => r ∉ h.closed).Perm h.store.reserved.values := by
    have kept := balanced.conserved.filter fun r => r ∉ h.closed
    have all : (h.store.reserved.values.filter fun r => r ∉ h.closed) = h.store.reserved.values :=
      List.filter_eq_self.mpr fun r inside => by simpa using apart inside
    have none : (h.closed.filter fun r => r ∉ h.closed) = [] := by simp
    rwa [List.filter_append, all, none, List.append_nil] at kept
  have sum := amountOn_perm scope stillOpen
  simpa only [openOn, BudgetReservationStore.reservedFor, amountOn, List.filter_filter,
    Bool.decide_and, Bool.and_comm] using sum

/-- At every moment of every run the scope is within its limit, no reservation
    is charged twice or charged and released, and what `remaining` answers is
    the limit less the charges and the open grants. -/
theorem budget_store_safe {scope : String} {limitUsd : ℚ} (nonneg : 0 ≤ limitUsd)
    {calls : List BudgetCall} (disciplined : Disciplined scope limitUsd calls)
    {seen : List BudgetCall} (prior : seen <+: calls) :
    (run seen).Within scope (limitUsd + budgetSlack) ∧
      ((run seen).closed.map (·.reservationId)).Nodup ∧
      (run seen).closed ⊆ (run seen).granted ∧
      (run seen).store.spentOn scope = (run seen).chargedOn scope ∧
      (run seen).store.reservedFor scope = (run seen).openOn scope ∧
      (run seen).store.remaining scope limitUsd =
        max 0 (limitUsd - (run seen).chargedOn scope - (run seen).openOn scope) := by
  have balanced := run_balanced seen
  have distinct := closed_nodup prior disciplined.uniqueIds
  have opened := openOn_eq balanced distinct scope
  refine ⟨disciplined.within nonneg prior, ?_, ?_, balanced.spent scope, opened.symm, ?_⟩
  · rw [List.map_append] at distinct
    exact distinct.of_append_right
  · intro r gone
    exact balanced.conserved.mem_iff.mpr (List.mem_append_right _ gone)
  · rw [BudgetReservationStore.remaining, balanced.spent, opened]

/-- No charge is above its reservation. -/
theorem charged_affordable {calls : List BudgetCall}
    (affordable : ∀ before reservationId cost r,
      before ++ [BudgetCall.settle reservationId cost] <+: calls →
        (run before).store.reserved.get reservationId = some r → cost ≤ r.amountUsd)
    {seen : List BudgetCall} (prior : seen <+: calls) :
    ∀ charge ∈ (run seen).charged, charge.2 ≤ charge.1.amountUsd := by
  induction seen using List.reverseRecOn with
  | nil => exact fun _ inside => by cases inside
  | append_singleton seen call ih =>
      have earlier := ih ((List.prefix_append _ _).trans prior)
      have effect := step_effect (run seen) call
      rw [run_append]
      generalize (run seen).step call = next at effect ⊢
      cases effect with
      | nothing | granted | released => exact earlier
      | charged r reservationId cost found nonneg =>
          intro charge inside
          cases List.mem_append.mp inside with
          | inl old => exact earlier charge old
          | inr new =>
              obtain rfl := List.mem_singleton.mp new
              exact affordable seen reservationId cost r prior found

/-- Two requests on one scope, one of them charged and one released. -/
private def sampleCalls : List BudgetCall :=
  [.reserve "a" "agent" 3 5, .reserve "b" "agent" 2 5, .reserve "c" "agent" 1 5, .settle "a" 2,
    .release "b", .settle "a" 2]

theorem budget_store_safe_sample :
    0 ≤ (5 : ℚ) ∧ Disciplined "agent" 5 sampleCalls ∧
      (run sampleCalls).store.remaining "agent" 5 =
        max 0 (5 - (run sampleCalls).chargedOn "agent" - (run sampleCalls).openOn "agent") := by
  have disciplined : Disciplined "agent" 5 sampleCalls := by
    refine ⟨?_, by decide, fun before id cost r prior found _ =>
      affordable_of_calls (fun _ _ _ _ _ settles reserves => ?_) prior found⟩
    · intro id amount limit inside
      simp [sampleCalls] at inside
      grind
    · simp [sampleCalls] at settles reserves
      grind
  exact ⟨by norm_num, disciplined,
    (budget_store_safe (by norm_num) disciplined (List.prefix_refl _)).2.2.2.2.2⟩

end BudgetHistory

end DuraLLM
