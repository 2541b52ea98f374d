import DuraLLM.Routing.Requirements

/-! # Shadow quality

`ShadowQualityPolicy` collects quality observations of endpoints by task class
and recommends an endpoint for the record.
-/

namespace DuraLLM

structure QualityEstimate where
  score : ℚ
  confidence : ℚ
  provenance : String
  expiresAt : Option Seconds := none
  deriving DecidableEq

def QualityEstimate.isCurrent (estimate : QualityEstimate) (now : Seconds) : Bool :=
  match estimate.expiresAt with
  | none => true
  | some expiry => now < expiry

structure ShadowQualityRecommendation where
  endpointId : Option String
  score : Option ℚ
  abstained : Bool
  reason : String
  deriving DecidableEq

structure ShadowQualityPolicy where
  minConfidence : ℚ := 7 / 10
  estimates : Dict (String × String) QualityEstimate := .empty

namespace ShadowQualityPolicy

variable (policy : ShadowQualityPolicy)

/-- A score or a confidence that is no share is refused. -/
def observe (endpoint : Endpoint) (taskClass : String) (estimate : QualityEstimate) :
    Except String Unit × ShadowQualityPolicy :=
  if (0 ≤ estimate.score ∧ estimate.score ≤ 1) ∧
      (0 ≤ estimate.confidence ∧ estimate.confidence ≤ 1) then
    (.ok (), { policy with estimates := policy.estimates.set (endpoint.id, taskClass) estimate })
  else (.error "quality score and confidence must be in [0, 1]", policy)

/-- What has been observed, or what the profile declares. -/
def estimate (endpoint : Endpoint) (taskClass : String) (now : Seconds) :
    Option QualityEstimate :=
  match (policy.estimates.get (endpoint.id, taskClass)).filter (·.isCurrent now) with
  | some observed => some observed
  | none =>
      endpoint.profile.bind fun profile =>
        profile.expectedQualityScore.map fun score =>
          { score
            confidence := profile.qualityConfidence
            provenance := orText profile.qualityProvenance "profile_declared"
            expiresAt := profile.capabilityExpiresAt }

/-- The first of the best. -/
def best : List (String × QualityEstimate) → Option (String × QualityEstimate)
  | [] => none
  | candidate :: rest =>
      match best rest with
      | none => some candidate
      | some other => if other.2.score ≤ candidate.2.score then some candidate else some other

def recommend (endpoints : List Endpoint) (taskClass : String) (now : Seconds) :
    ShadowQualityRecommendation :=
  let candidates := endpoints.filterMap fun endpoint =>
    ((policy.estimate endpoint taskClass now).filter
      (policy.minConfidence ≤ ·.confidence)).map fun estimate => (endpoint.id, estimate)
  match best candidates with
  | none =>
      { endpointId := none
        score := none
        abstained := true
        reason := "No current quality estimate meets the confidence threshold" }
  | some (endpointId, best) =>
      { endpointId := some endpointId
        score := some best.score
        abstained := false
        reason := best.provenance ++ " at confidence " ++ fixedPlaces 2 best.confidence }

end ShadowQualityPolicy

end DuraLLM
