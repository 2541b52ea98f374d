import DuraLLM.Lib.Dict
import DuraLLM.Streaming.Parser

/-! # Key rotation

The keys of an endpoint stand, separated by commas, under the names it lists.
The pool hands out one key at a time, in turn, and leaves out keys that are in
cooldown after a rate limit.  Every method holds the lock of the pool.
-/

namespace DuraLLM

/-- `value.split(",")` -/
def splitCommas (value : String) : List String :=
  (value.toList.splitOnP (· == ',')).map String.ofList

/-- `keys.get(name, "")` -/
def keyText (keys : Dict String String) (name : String) : String := (keys.get name).getD ""

structure KeyRotationPool where
  keyCooldowns : Dict String Seconds := .empty
  rrIndices : Dict String Nat := .empty

namespace KeyRotationPool

/-- A key with its identifier. -/
abbrev Key := String × String

def identified (name : String) (index : Nat) (key : String) : Key :=
  (key, name ++ ":" ++ toString index)

/-- The keys under one of `env_keys`: blank parts count in the numbering. -/
def listedKeys (keys : Dict String String) (name : String) : List Key :=
  (((splitCommas (keyText keys name)).map strip).mapIdx (identified name)).filter fun key => key.1 ≠ ""

/-- The keys under `env_key`: blank parts do not count. -/
def soleKeys (keys : Dict String String) (name : String) : List Key :=
  (((splitCommas (keyText keys name)).map strip).filter (· ≠ "")).mapIdx (identified name)

def getCandidateKeys (endpoint : Endpoint) (keys : Dict String String) : List Key :=
  match endpoint.envKeys.flatMap (listedKeys keys) with
  | first :: more => first :: more
  | [] =>
      match endpoint.envKey with
      | none => []
      | some name => if name = "" then [] else soleKeys keys name

variable (pool : KeyRotationPool)

/-- A key that was never limited is free from time 0 on. -/
def coolsDown (keyIdentifier : String) (now : Seconds) : Bool :=
  now < (pool.keyCooldowns.get keyIdentifier).getD 0

def availableKeys (endpoint : Endpoint) (keys : Dict String String) (now : Seconds) : List Key :=
  (getCandidateKeys endpoint keys).filter fun key => !pool.coolsDown key.2 now

/-- Where the turn of the endpoint stands. -/
def turn (endpointId : String) : Nat := (pool.rrIndices.get endpointId).getD 0

/-- Whose turn it is among available keys; the turn moves on. -/
def takeTurn (endpointId : String) : List Key → (Option String × Option String) × KeyRotationPool
  | [] => ((none, none), pool)
  | first :: more =>
      let available := first :: more
      let selected := available.getD (pool.turn endpointId % available.length) first
      ((some selected.1, some selected.2),
        { pool with
          rrIndices := pool.rrIndices.set endpointId ((pool.turn endpointId + 1) % available.length) })

/-- The value and the identifier of the next key. A single key in cooldown is
    named without its value. -/
def getActiveKey (endpoint : Endpoint) (keys : Dict String String) (now : Seconds) :
    (Option String × Option String) × KeyRotationPool :=
  match getCandidateKeys endpoint keys with
  | [] => ((none, none), pool)
  | [key] =>
      if pool.coolsDown key.2 now then ((none, some key.2), pool)
      else ((some key.1, some key.2), pool)
  | _ :: _ :: _ => pool.takeTurn endpoint.id (pool.availableKeys endpoint keys now)

/-- A later rate limit overwrites an earlier one. -/
def recordRateLimit (keyIdentifier : String) (cooldownSeconds : Option Seconds) (now : Seconds) :
    KeyRotationPool :=
  { pool with
    keyCooldowns := pool.keyCooldowns.set keyIdentifier (now + max 1 (cooldownSeconds.getD 60)) }

def hasAlternativeKey (endpoint : Endpoint) (keys : Dict String String)
    (currentKeyId : Option String) (now : Seconds) : Bool :=
  match getCandidateKeys endpoint keys with
  | [] | [_] => false
  | candidates =>
      candidates.any fun key => some key.2 ≠ currentKeyId && !pool.coolsDown key.2 now

end KeyRotationPool

end DuraLLM
