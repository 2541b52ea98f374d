import DuraLLM.Lib.Dict
import DuraLLM.Lib.Text
import DuraLLM.Models

/-! # Quota lockouts in the database

The table `provider_quota_lockouts` of the SQLite store, one row for each
provider, pool and route, all of them lower-cased.  The row of a whole account
has the route `*`.
-/

namespace DuraLLM

structure QuotaLockout where
  providerId : String
  pool : String
  routeId : String
  expiresAt : Seconds
  reason : String
  deriving DecidableEq

/-- Expiry and reason under the primary key. -/
abbrev QuotaLockoutTable := Dict (String × String × String) (Seconds × String)

namespace QuotaLockoutTable

variable (casing : Casing) (table : QuotaLockoutTable)

def recordQuotaLockout (providerId pool routeId : String) (expiresAt : Seconds)
    (reason : Option String) : QuotaLockoutTable :=
  table.set (casing.lower providerId, casing.lower pool, casing.lower routeId)
    (expiresAt, reason.getD "")

/-- The rows that have not expired, of one pool or of all. -/
def getActiveQuotaLockouts (pool : Option String) (now : Seconds) : List QuotaLockout :=
  let rows := table.entries.map fun ((providerId, pool, routeId), expiresAt, reason) =>
    { providerId, pool, routeId, expiresAt, reason : QuotaLockout }
  rows.filter fun row =>
    (match pool.filter (· ≠ "") with
      | none => true
      | some pool => row.pool = casing.lower pool) && now < row.expiresAt

theorem mem_getActiveQuotaLockouts {casing : Casing} {table : QuotaLockoutTable} {now : Seconds}
    {row : QuotaLockout} :
    row ∈ table.getActiveQuotaLockouts casing none now ↔
      table.get (row.providerId, row.pool, row.routeId) = some (row.expiresAt, row.reason) ∧
        now < row.expiresAt := by
  simp only [getActiveQuotaLockouts, Option.filter_none, List.mem_filter, List.mem_map,
    Bool.true_and, decide_eq_true_eq, ← Dict.mem_entries_iff]
  constructor
  · rintro ⟨⟨entry, member, rfl⟩, active⟩
    exact ⟨member, active⟩
  · rintro ⟨member, active⟩
    exact ⟨⟨_, member, rfl⟩, active⟩

def purgeExpiredQuotaLockouts (now : Seconds) : QuotaLockoutTable :=
  table.filter fun _ entry => !(entry.1 ≤ now)

end QuotaLockoutTable

end DuraLLM
