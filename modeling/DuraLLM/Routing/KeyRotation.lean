import DuraLLM.Lib.Text
import DuraLLM.Routing.Keys
import DuraLLM.Streaming.Chunking
import Mathlib.Data.List.Rotate

/-! # Fair and safe rotation

Calls on the pool come in any order, for any endpoints, and rate limits are
recorded in between.  What one call hands out depends on the keys that are
available and on the turn of the endpoint, and only a call for the same
endpoint moves that turn.  So over calls that see the same keys, the answers
are the list of these keys, read in a circle from wherever the turn stood.
-/

namespace DuraLLM

namespace KeyRotationPool

variable {pool : KeyRotationPool} {endpoint : Endpoint} {keys : Dict String String} {now : Seconds}

/-- The answer that hands out a key. -/
def handOut (key : Key) : Option String × Option String := (some key.1, some key.2)

theorem mem_availableKeys {key : Key} :
    key ∈ pool.availableKeys endpoint keys now ↔
      key ∈ getCandidateKeys endpoint keys ∧ pool.coolsDown key.2 now = false := by
  simp [availableKeys]

/-- A key is one part of a text between commas. -/
theorem candidate_single {key : Key} (candidate : key ∈ getCandidateKeys endpoint keys) :
    ',' ∉ key.1.toList := by
  have parts : ∀ name, ∀ part ∈ (splitCommas (keyText keys name)).map strip,
      ',' ∉ part.toList := by
    intro name part inside comma
    obtain ⟨whole, split, rfl⟩ := List.mem_map.mp inside
    obtain ⟨chars, piece, rfl⟩ := List.mem_map.mp split
    have held : ',' ∈ chars := by simpa using SSEStreamParser.mem_strip comma
    have free := Text.mem_segment _ _ chars piece ',' held
    simp at free
  have listed : ∀ name, ∀ key ∈ listedKeys keys name, ',' ∉ key.1.toList := by
    intro name key inside
    simp only [listedKeys, List.mem_filter, List.mem_mapIdx] at inside
    obtain ⟨⟨i, bound, rfl⟩, _⟩ := inside
    exact parts name _ (List.getElem_mem bound)
  have sole : ∀ name, ∀ key ∈ soleKeys keys name, ',' ∉ key.1.toList := by
    intro name key inside
    simp only [soleKeys, List.mem_mapIdx] at inside
    obtain ⟨i, bound, rfl⟩ := inside
    exact parts name _ (List.mem_of_mem_filter (List.getElem_mem bound))
  unfold getCandidateKeys at candidate
  split at candidate
  next first more found =>
    rw [← found] at candidate
    obtain ⟨name, _, inside⟩ := List.mem_flatMap.mp candidate
    exact listed name key inside
  next =>
    split at candidate
    · cases candidate
    · split at candidate
      · cases candidate
      · exact sole _ key candidate

/-! ## One call -/

/-- Where keys are available, the one whose turn it is. -/
theorem getActiveKey_answer (some_available : pool.availableKeys endpoint keys now ≠ []) :
    ∃ key, (pool.availableKeys endpoint keys now)[pool.turn endpoint.id %
        (pool.availableKeys endpoint keys now).length]? = some key ∧
      (pool.getActiveKey endpoint keys now).1 = handOut key := by
  unfold getActiveKey
  split
  next none_listed => simp [availableKeys, none_listed] at some_available
  next key one_listed =>
    by_cases cooling : pool.coolsDown key.2 now
    · simp [availableKeys, one_listed, cooling] at some_available
    · refine ⟨key, ?_, by simp [cooling, handOut]⟩
      simp [availableKeys, one_listed, cooling, Nat.mod_one]
  next =>
    cases available : pool.availableKeys endpoint keys now with
    | nil => exact absurd available some_available
    | cons first more =>
        have inside := Nat.mod_lt (pool.turn endpoint.id) (Nat.zero_lt_succ more.length)
        have found : (first :: more)[pool.turn endpoint.id % (first :: more).length]? =
            some ((first :: more).getD (pool.turn endpoint.id % (first :: more).length) first) := by
          rw [List.getD_eq_getElem?_getD, List.getElem?_eq_getElem (by simpa using inside)]
          rfl
        exact ⟨_, found, rfl⟩

/-- Where none is, no value is handed out. -/
theorem getActiveKey_none (none_available : pool.availableKeys endpoint keys now = []) :
    (pool.getActiveKey endpoint keys now).1.1 = none := by
  unfold getActiveKey
  split
  next => rfl
  next key one_listed =>
    have cooling : pool.coolsDown key.2 now = true := by
      simpa [availableKeys, one_listed] using none_available
    simp [cooling]
  next => simp [none_available, takeTurn]

/-- The turn moves on by one, unless a single key is all there is. -/
theorem turn_getActiveKey (some_available : pool.availableKeys endpoint keys now ≠ []) :
    (pool.getActiveKey endpoint keys now).2.turn endpoint.id %
        (pool.availableKeys endpoint keys now).length =
      (pool.turn endpoint.id + 1) % (pool.availableKeys endpoint keys now).length := by
  unfold getActiveKey
  split
  next none_listed => simp [availableKeys, none_listed] at some_available
  next key one_listed =>
    have one : (pool.availableKeys endpoint keys now).length = 1 := by
      have below : (pool.availableKeys endpoint keys now).length ≤ 1 := by
        simpa [availableKeys, one_listed] using List.length_filter_le
          (fun key : Key => !pool.coolsDown key.2 now) [key]
      have above := List.length_pos_iff.mpr some_available
      omega
    rw [one]
    simp only [Nat.mod_one]
  next =>
    cases available : pool.availableKeys endpoint keys now with
    | nil => exact absurd available some_available
    | cons first more => simp [takeTurn, turn]

/-- Neither the turns of others nor any cooldown is touched. -/
theorem turn_getActiveKey_ne {other : String} (ne : other ≠ endpoint.id) :
    (pool.getActiveKey endpoint keys now).2.turn other = pool.turn other := by
  unfold getActiveKey
  split
  next => rfl
  next => split <;> rfl
  next =>
    cases pool.availableKeys endpoint keys now with
    | nil => rfl
    | cons first more => simp [takeTurn, turn, Dict.get_set_ne _ _ ne]

theorem turn_recordRateLimit (keyIdentifier : String) (cooldownSeconds : Option Seconds)
    (id : String) : (pool.recordRateLimit keyIdentifier cooldownSeconds now).turn id = pool.turn id :=
  rfl

end KeyRotationPool

open KeyRotationPool

/-! ## Runs -/

/-- A call on the pool. -/
inductive KeyCall where
  | getActiveKey (endpoint : Endpoint) (keys : Dict String String)
  | recordRateLimit (keyIdentifier : String) (cooldownSeconds : Option Seconds)

/-- One call of `get_active_key`, with the pool and the clock it finds. -/
structure KeyRequest where
  pool : KeyRotationPool
  endpoint : Endpoint
  keys : Dict String String
  now : Seconds

namespace KeyRequest

variable (request : KeyRequest)

def answer : Option String × Option String :=
  (request.pool.getActiveKey request.endpoint request.keys request.now).1

/-- The pool that the call leaves behind. -/
def left : KeyRotationPool :=
  (request.pool.getActiveKey request.endpoint request.keys request.now).2

def candidates : List Key := getCandidateKeys request.endpoint request.keys

def available : List Key := request.pool.availableKeys request.endpoint request.keys request.now

/-- No key in cooldown is returned, and some key is whenever one is free. -/
structure Served : Prop where
  safe : ∀ value, request.answer.1 = some value →
    ∃ id, request.answer = handOut (value, id) ∧ (value, id) ∈ request.candidates ∧
      request.pool.coolsDown id request.now = false
  live : ∀ key ∈ request.candidates, request.pool.coolsDown key.2 request.now = false →
    request.answer.1.isSome

theorem served : request.Served := by
  by_cases none_available : request.available = []
  · have empty : request.answer.1 = none := getActiveKey_none none_available
    constructor
    · intro value returned
      simp [empty] at returned
    · intro key listed free
      have member : key ∈ request.available := mem_availableKeys.mpr ⟨listed, free⟩
      simp [none_available] at member
  · obtain ⟨key, found, answered⟩ := getActiveKey_answer none_available
    have returns : request.answer = handOut key := answered
    constructor
    · intro value returned
      obtain ⟨listed, free⟩ := mem_availableKeys.mp (List.mem_of_getElem? found)
      obtain rfl : key.1 = value := by simpa [returns, handOut] using returned
      exact ⟨key.2, returns, listed, free⟩
    · intro _ _ _
      simp [returns, handOut]

end KeyRequest

namespace KeyRotationPool

/-- The calls of `get_active_key` in a run, each call with the clock it reads. -/
def requests : KeyRotationPool → List (Seconds × KeyCall) → List KeyRequest
  | _, [] => []
  | pool, (now, .getActiveKey endpoint keys) :: calls =>
      ⟨pool, endpoint, keys, now⟩ :: requests (pool.getActiveKey endpoint keys now).2 calls
  | pool, (now, .recordRateLimit keyIdentifier cooldownSeconds) :: calls =>
      requests (pool.recordRateLimit keyIdentifier cooldownSeconds now) calls

/-- The calls for one endpoint. -/
def requestsFor (pool : KeyRotationPool) (calls : List (Seconds × KeyCall)) (endpointId : String) :
    List KeyRequest :=
  (pool.requests calls).filter fun request => request.endpoint.id = endpointId

/-- Each call for the endpoint finds the turn where the one before left it. -/
inductive InTurn (endpointId : String) : Nat → List KeyRequest → Prop where
  | nil (turn : Nat) : InTurn endpointId turn []
  | call {request : KeyRequest} {later : List KeyRequest} (own : request.endpoint.id = endpointId)
      (rest : InTurn endpointId (request.left.turn endpointId) later) :
      InTurn endpointId (request.pool.turn endpointId) (request :: later)

theorem requestsFor_inTurn (endpointId : String) (pool : KeyRotationPool)
    (calls : List (Seconds × KeyCall)) :
    InTurn endpointId (pool.turn endpointId) (pool.requestsFor calls endpointId) := by
  induction calls generalizing pool with
  | nil => exact .nil _
  | cons entry calls ih =>
      obtain ⟨now, call⟩ := entry
      cases call with
      | recordRateLimit keyIdentifier cooldownSeconds =>
          exact ih (pool.recordRateLimit keyIdentifier cooldownSeconds now)
      | getActiveKey endpoint keys =>
          have later := ih (pool.getActiveKey endpoint keys now).2
          by_cases own : endpoint.id = endpointId
          · have first : pool.requestsFor ((now, .getActiveKey endpoint keys) :: calls) endpointId =
                ⟨pool, endpoint, keys, now⟩ ::
                  (pool.getActiveKey endpoint keys now).2.requestsFor calls endpointId := by
              simp [requestsFor, requests, own]
            rw [first]
            exact @InTurn.call _ ⟨pool, endpoint, keys, now⟩ _ own later
          · have skipped : pool.requestsFor ((now, .getActiveKey endpoint keys) :: calls)
                endpointId = (pool.getActiveKey endpoint keys now).2.requestsFor calls endpointId := by
              simp [requestsFor, requests, own]
            rw [skipped]
            rwa [turn_getActiveKey_ne (Ne.symm own)] at later

/-- Any tail of the calls is in turn as well. -/
theorem InTurn.drop {endpointId : String} {turn : Nat} (before : List KeyRequest)
    {later : List KeyRequest} (inTurn : InTurn endpointId turn (before ++ later)) :
    ∃ turn', InTurn endpointId turn' later := by
  induction before generalizing turn with
  | nil => exact ⟨turn, inTurn⟩
  | cons request before ih =>
      cases inTurn with
      | call own rest => exact ih rest

/-- Calls that see the same keys are answered by reading these in a circle. -/
theorem InTurn.circle {endpointId : String} {available : List Key} (present : available ≠ [])
    {block later : List KeyRequest} {turn : Nat} (inTurn : InTurn endpointId turn (block ++ later))
    (steady : ∀ request ∈ block, request.available = available) (k : Nat) (inside : k < block.length) :
    (available[(turn + k) % available.length]?).map handOut = some block[k].answer := by
  induction block generalizing turn k with
  | nil => cases inside
  | cons request block ih =>
      cases inTurn with
      | call own rest =>
          subst own
          have same : request.available = available := steady request List.mem_cons_self
          have some_available : request.available ≠ [] := by rwa [same]
          cases k with
          | zero =>
              obtain ⟨key, found, answered⟩ := getActiveKey_answer some_available
              have returns : request.answer = handOut key := answered
              change request.available[request.pool.turn request.endpoint.id %
                request.available.length]? = some key at found
              rw [same] at found
              simp only [List.getElem_cons_zero, Nat.add_zero, found, returns, Option.map_some]
          | succ k =>
              have moved := turn_getActiveKey some_available
              change request.left.turn request.endpoint.id % request.available.length =
                (request.pool.turn request.endpoint.id + 1) % request.available.length at moved
              rw [same] at moved
              have next := ih rest (fun r member => steady r (List.mem_cons_of_mem _ member)) k
                (by simpa using inside)
              have place : (request.left.turn request.endpoint.id + k) % available.length =
                  (request.pool.turn request.endpoint.id + (k + 1)) % available.length := by
                rw [Nat.add_mod, moved, ← Nat.add_mod, Nat.add_assoc, Nat.add_comm 1 k]
              rw [place] at next
              exact next

/-- As many calls as there are keys hand out each of them once. -/
theorem InTurn.round {endpointId : String} {available : List Key} {block later : List KeyRequest}
    {turn : Nat} (inTurn : InTurn endpointId turn (block ++ later))
    (steady : ∀ request ∈ block, request.available = available)
    (whole : block.length = available.length) :
    (block.map KeyRequest.answer).Perm (available.map handOut) := by
  by_cases present : available = []
  · have none_called : block = [] := List.length_eq_zero_iff.mp (by simpa [present] using whole)
    simp [present, none_called]
  · have circle : block.map KeyRequest.answer = (available.rotate turn).map handOut := by
      apply List.ext_getElem
      · simp [whole]
      · intro k inside _
        have read := inTurn.circle present steady k (by simpa using inside)
        rw [List.getElem?_eq_getElem (Nat.mod_lt _ (List.length_pos_iff.mpr present)),
          Nat.add_comm turn k] at read
        simpa using read.symm
    rw [circle]
    exact (List.rotate_perm available turn).map handOut

end KeyRotationPool

end DuraLLM
